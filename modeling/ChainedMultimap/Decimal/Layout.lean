import ChainedMultimap.Decimal.Shortest

/-!
# How decimals are written

A layout says which decimals are written with an exponent and whether a whole number shows a decimal
point. Digits are never added beyond those of the decimal, except for the zeros that carry its place.
-/

namespace ChainedMultimap

/-- How a decimal is written. -/
structure DecimalLayout where
  /-- The powers of ten of the first digit that are written without an exponent, as an inclusive
  range; without a range all are. -/
  positional : Option (Int × Int)
  /-- Whether a whole number ends in `.0`. -/
  wholeMark : Bool

namespace DecimalLayout

/-- Whether a number whose first digit has this power of ten is written without an exponent. -/
def isPositional (layout : DecimalLayout) (leading : Int) : Bool :=
  match layout.positional with
  | none => true
  | some (least, greatest) => least ≤ leading && leading ≤ greatest

/-- The text of zero. -/
def zero (layout : DecimalLayout) : String := if layout.wholeMark then "0.0" else "0"

/-- Digits with the decimal point `places` digits after the start, zeros filled in on either side. -/
def withPoint (layout : DecimalLayout) (digits : List Char) (places : Int) : List Char :=
  if places ≤ 0 then
    ['0', '.'] ++ List.replicate (-places).toNat '0' ++ digits
  else if places.toNat < digits.length then
    digits.take places.toNat ++ ['.'] ++ digits.drop places.toNat
  else
    digits ++ List.replicate (places.toNat - digits.length) '0' ++
      (if layout.wholeMark then ['.', '0'] else [])

/-- One digit, the others after a point, and the power of ten of the first digit after an `e`. -/
def withExponent (digits : List Char) (leading : Int) : List Char :=
  digits.take 1 ++ (if digits.length ≤ 1 then [] else '.' :: digits.drop 1) ++
    'e' :: (Int.repr leading).toList

/-- The text of a positive decimal. -/
def render (layout : DecimalLayout) (decimal : Decimal) : String :=
  let digits := Nat.toDigits 10 decimal.digits
  let places : Int := digits.length + decimal.exponent
  let leading := places - 1
  String.ofList
    (if layout.isPositional leading then layout.withPoint digits places
     else withExponent digits leading)

end DecimalLayout

end ChainedMultimap
