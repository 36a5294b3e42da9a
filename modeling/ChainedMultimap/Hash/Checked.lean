import ChainedMultimap.Hash.Zobrist

/-!
# Checked Zobrist hashing

Hashing with a Zobrist table once more, one access at a time and with indices computed as sizes of 64
bits. A product or a sum that is too large for a size has no result, and neither has an access to a
word that is not in the table.
-/

namespace ChainedMultimap

/-- A number as a size of 64 bits, if it is small enough. -/
def size? (number : Nat) : Option Nat := if number < 1 <<< 64 then some number else none

namespace Zobrist

/-- Reads the word for a byte at a position. -/
def word? (table : Zobrist) (position : Nat) (byte : UInt8) : Option UInt32 := do
  let row ← size? (byte.toNat * table.length)
  let index ← size? (row + (position &&& (table.length - 1)))
  table.words[index]?

/-- Exclusive or of the words for all bytes of a string whose first byte stands at a position. -/
def mixFrom? (table : Zobrist) : Nat → UInt32 → Bytes → Option UInt32
  | _, mixed, [] => some mixed
  | position, mixed, byte :: rest => do
    let word ← table.word? position byte
    table.mixFrom? (position + 1) (mixed ^^^ word) rest

/-- Zero once released, and before that the exclusive or of the words for all bytes. -/
def hash? (table : Zobrist) (bytes : Bytes) : Option UInt32 :=
  if table.isReleased then some 0 else table.mixFrom? 0 0 bytes

end Zobrist

end ChainedMultimap
