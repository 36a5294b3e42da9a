import ChainedMultimap.Hash.Kind
import ChainedMultimap.Hash.Zobrist
import ChainedMultimap.Secret.Cell

/-!
# Hash functions chosen while running

A hash function is one of the three built-in ones together with its state: nothing, a Zobrist table,
or the secret it was made with. Making a keyed digest generates the process secret if there is none
yet, and hashing with it goes through the process secret.
-/

namespace ChainedMultimap

/-- A built-in hash function with its state. -/
inductive HashFunction where
  /-- The linear-congruential hash. -/
  | lcg
  /-- Zobrist hashing with a table. -/
  | zobrist (table : Zobrist)
  /-- The keyed digest; it remembers the process secret of its making. -/
  | keyedDigest (secret : Digest)

/-- What making a hash function can draw on. -/
structure HashMaker where
  /-- How a secret would be generated. -/
  secret : SecretMaker
  /-- Which numbers of words can be reserved. -/
  allows : Allocator
  /-- The wall clock in microseconds, which seeds a Zobrist table. -/
  clockSeed : UInt64

/-- The first word of a message's keyed digest. -/
def keyedHash (secret : Digest) : Strategy := fun bytes => (keyedMd5 secret bytes).firstWord

namespace HashFunction

/-- Which of the built-in functions it is. -/
def kind : HashFunction → HashKind
  | lcg => .lcg
  | zobrist _ => .zobrist
  | keyedDigest _ => .keyedDigest

/-- Gives up the state of a Zobrist table; other functions have none to give up. -/
def release : HashFunction → Except TableError HashFunction
  | zobrist table => .ok (zobrist table.release)
  | other => .error (.unsupportedOperation other.kind)

/-- The strategy of a hash function, on its own state alone. -/
def strategy : HashFunction → Strategy
  | lcg => Lcg.hash
  | zobrist table => table.hash
  | keyedDigest secret => keyedHash secret

end HashFunction

namespace Process

/-- Makes a hash function of a kind. The requested length matters to Zobrist hashing alone, and the
process secret to the keyed digest alone. -/
def makeFunction (process : Process) (maker : HashMaker) (kind : HashKind) (length : Nat) :
    Outcome Process (Except TableError HashFunction) :=
  match kind with
  | .lcg => ⟨.ok .lcg, process, []⟩
  | .zobrist =>
    let (made, log) := Zobrist.ofSeed maker.allows length maker.clockSeed
    ⟨made.map .zobrist, process, log⟩
  | .keyedDigest =>
    let used := process.use maker.secret
    ⟨.ok (.keyedDigest used.answer), used.state, used.log⟩

/-- The hash of a byte string. A keyed digest uses the secret of the process. -/
def hash (process : Process) (maker : SecretMaker) (function : HashFunction) (bytes : Bytes) :
    Outcome Process UInt32 :=
  match function with
  | .lcg => ⟨Lcg.hash bytes, process, []⟩
  | .zobrist table => ⟨table.hash bytes, process, []⟩
  | .keyedDigest _ =>
    let digest := process.keyedDigest maker bytes
    ⟨digest.answer.firstWord, digest.state, digest.log⟩

end Process

namespace HashFunction

/-- Makes a hash function of a kind for the process with a cell. -/
def make (kind : HashKind) (length : Nat) (maker : HashMaker) (cell : SecretCell) :
    Outcome SecretCell (Except TableError HashFunction) :=
  (cell.process.makeFunction maker kind length).map Process.cell id

/-- The hash of a byte string in the process with a cell. -/
def hash (function : HashFunction) (maker : SecretMaker) (cell : SecretCell) (bytes : Bytes) :
    Outcome SecretCell UInt32 :=
  (cell.process.hash maker function bytes).map Process.cell id

end HashFunction

end ChainedMultimap
