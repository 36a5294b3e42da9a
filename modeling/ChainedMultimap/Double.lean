import ChainedMultimap.Bytes

/-!
# Binary64 values by their bits

A `Double` is the 64 bits of a binary64 number, so both zeros and every not-a-number payload are
values of their own. The order is the total order of the floating-point standard: negative
not-a-numbers, negative infinity, the negative numbers, `-0`, `+0`, the positive numbers, positive
infinity, positive not-a-numbers. It is read off an unsigned key of the bits.
-/

namespace ChainedMultimap

/-- A binary64 number, identified with its encoding. -/
structure Double where
  /-- Sign bit, eleven exponent bits and fifty-two fraction bits. -/
  bits : UInt64
  deriving DecidableEq

namespace Double

/-- Positive zero. -/
def zero : Double := ⟨0⟩

/-- Whether the sign bit is set. -/
def isNegative (value : Double) : Bool := 0x8000000000000000 ≤ value.bits

/-- The unsigned key of the total order: a negative encoding is complemented, so that larger
magnitudes come first, and any other is placed above all of those. -/
def orderKey (value : Double) : UInt64 :=
  if value.isNegative then ~~~value.bits else value.bits ||| 0x8000000000000000

instance : Ord Double := ⟨compareOn orderKey⟩

/-- Whether the encoding is a not-a-number: all exponent bits and some fraction bit. -/
def isNaN (value : Double) : Bool :=
  0x7ff0000000000000 < value.bits &&& 0x7fffffffffffffff

/-- A not-a-number operand is passed on with its quiet bit set. -/
def quieted (value : Double) : Double := ⟨value.bits ||| 0x0008000000000000⟩

/-- The not-a-number that an invalid operation produces. -/
def invalid : Double := ⟨0xfff8000000000000⟩

/-- The sum rounded to nearest, ties to even. A not-a-number operand is passed on, the left one
before the right one; opposite infinities have no sum. -/
def add (left right : Double) : Double :=
  if left.isNaN then left.quieted
  else if right.isNaN then right.quieted
  else
    let sum : Double := ⟨(Float.ofBits left.bits + Float.ofBits right.bits).toBits⟩
    if sum.isNaN then invalid else sum

/-- The quotient of two counts, rounded to nearest. -/
def ofQuotient (count total : Nat) : Double :=
  ⟨(Float.ofNat count / Float.ofNat total).toBits⟩

end Double

end ChainedMultimap
