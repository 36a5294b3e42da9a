import ChainedMultimap.Secret.Pool

/-!
# The entropy pool in place

The pool once more, as an array of sixteen slots that is written slot by slot, and the number of slots
in use. An access to a slot that does not exist has no result, and neither has filling up the array
from a stream that has not ended after a given number of draws. On the slots of a pool every operation
has a result, the one of the pool.
-/

namespace ChainedMultimap

namespace EntropyPool

/-- An array of words and the number of those that are in use. -/
structure Slots where
  /-- The words in all slots. -/
  words : Vector UInt32 capacity
  /-- How many slots are in use, from the first on. -/
  used : Nat

namespace Slots

/-- No slot is in use, and all hold zero. -/
def empty : Slots := ⟨Vector.replicate capacity 0, 0⟩

/-- Writes a word into the first slot that is not in use, which must exist, unless all slots are in
use. Says whether it did. -/
def push? (slots : Slots) (word : UInt32) : Option (Bool × Slots) :=
  if slots.used = capacity then some (false, slots)
  else if inside : slots.used < capacity then
    some (true, ⟨slots.words.set slots.used word, slots.used + 1⟩)
  else none

/-- Pushes words one after another, and says of each whether it was written. -/
def pushAll? (slots : Slots) : List UInt32 → Option (List Bool × Slots)
  | [] => some ([], slots)
  | word :: rest => do
    let (accepted, slots) ← slots.push? word
    let (others, slots) ← slots.pushAll? rest
    return (accepted :: others, slots)

/-- Folds the words in use, whose slots must exist, into one: exclusive or with the next word, then a
rotation by one. -/
def seed? (slots : Slots) : Option UInt32 :=
  if slots.used ≤ capacity then
    some ((slots.words.toList.take slots.used).foldl
      (fun mixed word => Word.rotateLeft (mixed ^^^ word) 1) 0)
  else none

/-- Draws words from a place of a stream on and pushes each of them, until one is refused, which must
come to pass within `count` draws. -/
def fillUp? (stream : Nat → UInt32) (place : Nat) (slots : Slots) : Nat → Option Slots
  | 0 => none
  | count + 1 => do
    let (accepted, slots) ← slots.push? (stream place)
    if accepted then slots.fillUp? stream (place + 1) count else return slots

/-- The digest of the slots after they are filled up, within `count` draws, from the stream that
their fold seeds. -/
def secret? (generator : Generator) (count : Nat) (slots : Slots) : Option Digest := do
  let seed ← slots.seed?
  let full ← slots.fillUp? (generator seed.toUInt64) 0 count
  return md5 (Bytes.ofWords32 full.words.toList)

end Slots

/-- All sixteen words of a pool make an array. -/
theorem length_words (pool : EntropyPool) : pool.words.length = capacity := by
  rw [words, List.length_append, List.length_replicate, remaining, filled]
  exact Nat.add_sub_cancel' pool.length_le

/-- The array that holds a pool. -/
def slots (pool : EntropyPool) : Slots := ⟨⟨pool.words.toArray, pool.length_words⟩, pool.filled⟩

end EntropyPool

end ChainedMultimap
