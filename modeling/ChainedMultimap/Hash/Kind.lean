/-!
# Kinds of hash function

Three hash functions are built in. Each has a display name and a tag for diagnostic text.
-/

namespace ChainedMultimap

/-- The built-in hash functions. -/
inductive HashKind where
  | lcg
  | zobrist
  | keyedDigest
  deriving DecidableEq

namespace HashKind

/-- The display name. -/
def name : HashKind → String
  | lcg => "lcg"
  | zobrist => "zobrist"
  | keyedDigest => "keyed-digest"

/-- The tag written in diagnostic text. -/
def tag : HashKind → String
  | lcg => "Lcg"
  | zobrist => "Zobrist"
  | keyedDigest => "KeyedDigest"

end HashKind

end ChainedMultimap
