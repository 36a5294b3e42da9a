/-!
# Rotations of 32-bit words

A rotation moves bits that leave a word at one end to the other end. Shift amounts are taken modulo
32, so a rotation by zero changes nothing.
-/

namespace ChainedMultimap.Word

/-- A word rotated towards its high end, for an amount below 32. -/
def rotateLeft (word amount : UInt32) : UInt32 :=
  (word <<< amount) ||| (word >>> (32 - amount))

/-- A word rotated towards its low end, for an amount below 32. -/
def rotateRight (word amount : UInt32) : UInt32 :=
  (word >>> amount) ||| (word <<< (32 - amount))

end ChainedMultimap.Word
