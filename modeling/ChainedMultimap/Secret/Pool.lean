import ChainedMultimap.Hash.Md5
import ChainedMultimap.WordStream

/-!
# The entropy pool

Up to sixteen words are gathered in order; further ones are refused. The secret is the digest of the
gathered words, filled up from a word stream that the gathered words seed.
-/

namespace ChainedMultimap

/-- The number of words a pool has room for. -/
def EntropyPool.capacity : Nat := 16

/-- Gathered words, oldest first. -/
structure EntropyPool where
  /-- The words accepted so far. -/
  gathered : List UInt32
  /-- No more words than the pool has room for. -/
  length_le : gathered.length ≤ EntropyPool.capacity

namespace EntropyPool

/-- Nothing gathered. -/
def empty : EntropyPool := ⟨[], Nat.zero_le _⟩

/-- The number of words gathered. -/
def filled (pool : EntropyPool) : Nat := pool.gathered.length

/-- The number of words there is still room for. -/
def remaining (pool : EntropyPool) : Nat := capacity - pool.filled

/-- Adds a word if there is room, and says whether there was. -/
def push (pool : EntropyPool) (word : UInt32) : Bool × EntropyPool :=
  if room : pool.gathered.length < capacity then
    (true, ⟨pool.gathered ++ [word], by rw [List.length_append]; exact room⟩)
  else (false, pool)

/-- Adds words one after another, and says of each whether there was room. -/
def pushAll (pool : EntropyPool) : List UInt32 → List Bool × EntropyPool
  | [] => ([], pool)
  | word :: rest =>
    let (accepted, pool) := pool.push word
    let (others, pool) := pool.pushAll rest
    (accepted :: others, pool)

/-- Folds the gathered words into one: exclusive or with the next word, then a rotation by one. -/
def seed (pool : EntropyPool) : UInt32 :=
  pool.gathered.foldl (fun mixed word => Word.rotateLeft (mixed ^^^ word) 1) 0

/-- All sixteen words, zeros after the gathered ones. -/
def words (pool : EntropyPool) : List UInt32 :=
  pool.gathered ++ List.replicate pool.remaining 0

/-- The sixteen words as bytes, lowest first. -/
def toBytes (pool : EntropyPool) : Bytes := Bytes.ofWords32 pool.words

/-- The pool filled up from the word stream that its fold seeds. -/
def padded (pool : EntropyPool) : EntropyPool :=
  (pool.pushAll (WordStream.words pool.seed.toUInt64 (pool.remaining + 1))).2

/-- The digest of the filled-up pool. -/
def secret (pool : EntropyPool) : Digest := md5 pool.padded.toBytes

end EntropyPool

end ChainedMultimap
