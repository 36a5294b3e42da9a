import ChainedMultimap.Decimal.Layout

/-!
# Occupancy ratios

An occupancy ratio is a binary32 number, kept as its bits. A table accepts the finite positive ones;
those are exactly `significand * 2 ^ exponent`, so the question whether a number of entries has
reached the ratio is settled in whole numbers.
-/

namespace ChainedMultimap

/-- A binary32 number, identified with its encoding. -/
structure Ratio where
  /-- Sign bit, eight exponent bits and twenty-three fraction bits. -/
  bits : UInt32
  deriving DecidableEq

namespace Ratio

/-- One half. -/
def half : Ratio := ⟨0x3f000000⟩

/-- Whether the sign bit is set. -/
def isNegative (ratio : Ratio) : Bool := 0x80000000 ≤ ratio.bits

/-- The encoding without its sign bit. -/
def magnitude (ratio : Ratio) : UInt32 := ratio.bits &&& 0x7fffffff

/-- Whether some exponent bit is clear. -/
def isFinite (ratio : Ratio) : Bool := ratio.magnitude < 0x7f800000

/-- Whether the encoding is a not-a-number. -/
def isNaN (ratio : Ratio) : Bool := 0x7f800000 < ratio.magnitude

/-- A table accepts a ratio that is finite and above zero. -/
def isAccepted (ratio : Ratio) : Bool :=
  ratio.isFinite && !ratio.isNegative && ratio.magnitude != 0

/-- Numeric equality: both zeros are equal, a not-a-number equals nothing. -/
def numericallyEqual (left right : Ratio) : Bool :=
  !left.isNaN && !right.isNaN &&
    (left.bits == right.bits || (left.magnitude == 0 && right.magnitude == 0))

/-- The exponent bits. -/
def exponentField (ratio : Ratio) : Nat := (ratio.magnitude >>> 23).toNat

/-- The fraction bits. -/
def fractionField (ratio : Ratio) : Nat := (ratio.magnitude &&& 0x7fffff).toNat

/-- The whole number that a finite magnitude is a power of two times of; the leading bit is implicit
unless the exponent bits are all clear. -/
def significand (ratio : Ratio) : Nat :=
  if ratio.exponentField = 0 then ratio.fractionField else 0x800000 + ratio.fractionField

/-- The power of two that the significand of a finite magnitude is scaled by. -/
def exponent (ratio : Ratio) : Int :=
  if ratio.exponentField = 0 then -149 else ratio.exponentField - 150

/-- Whether `entries` is at least the ratio times `buckets`, for a finite positive ratio. -/
def isReached (ratio : Ratio) (entries buckets : Nat) : Bool :=
  (ratio.significand * buckets) <<< ratio.exponent.toNat ≤ entries <<< (-ratio.exponent).toNat

/-- The reals that round to a finite magnitude, in quarters of its last place. Below a power of two
the spacing is half of what it is above. -/
def roundingRange (ratio : Ratio) : RoundingRange where
  low := 4 * ratio.significand - (if ratio.fractionField = 0 && 1 < ratio.exponentField then 1 else 2)
  value := 4 * ratio.significand
  high := 4 * ratio.significand + 2
  exponent := ratio.exponent - 2
  closed := ratio.significand % 2 = 0

/-- The shortest decimal that reads back as a finite magnitude; zero has none. The grids run from
above the largest magnitude down to the last place of the smallest. -/
def shortest? (ratio : Ratio) : Option Decimal :=
  if ratio.significand = 0 then none else ratio.roundingRange.onGrids? 39 189

/-- The text of a ratio in a layout: the sign is written for every negative number, zero included,
and not for a not-a-number. -/
def render (layout : DecimalLayout) (ratio : Ratio) : String :=
  if ratio.isNaN then "NaN"
  else
    (if ratio.isNegative then "-" else "") ++
      (if ratio.isFinite then (ratio.shortest?.map layout.render).getD layout.zero else "inf")

/-- In messages a ratio never has an exponent, and a whole number no decimal point. -/
def messageLayout : DecimalLayout := ⟨none, false⟩

/-- In diagnostic text a ratio has an exponent below `10 ^ -4` and from `10 ^ 16` on, and otherwise
always a decimal point. -/
def diagnosticLayout : DecimalLayout := ⟨some (-4, 15), true⟩

/-- The text of a ratio in messages. -/
def display (ratio : Ratio) : String := ratio.render messageLayout

/-- The text of a ratio in diagnostics. -/
def diagnostic (ratio : Ratio) : String := ratio.render diagnosticLayout

end Ratio

end ChainedMultimap
