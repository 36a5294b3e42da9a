/-!
# Shortest decimals

A positive binary number stands for every real that rounds to it. Its shortest decimal is the point
of the coarsest decimal grid that lies among those reals, and of two such points the nearer one. The
selection is exact arithmetic on natural numbers.
-/

namespace ChainedMultimap

/-- The number `digits * 10 ^ exponent`. -/
structure Decimal where
  /-- All digits, read as one number. -/
  digits : Nat
  /-- The power of ten of the last digit. -/
  exponent : Int
  deriving DecidableEq

/-- The reals around `value * 2 ^ exponent` that round to it. -/
structure RoundingRange where
  /-- The lower end. -/
  low : Nat
  /-- The number itself. -/
  value : Nat
  /-- The upper end. -/
  high : Nat
  /-- The power of two that scales the other three. -/
  exponent : Int
  /-- Whether the ends themselves round to the number. -/
  closed : Bool

namespace RoundingRange

/-- What the numbers of a range are multiplied with to compare them with points of a grid. -/
def binaryScale (range : RoundingRange) (grid : Int) : Nat :=
  Nat.pow 2 range.exponent.toNat * Nat.pow 10 (-grid).toNat

/-- What the points of a grid are multiplied with to compare them with numbers of a range. -/
def decimalScale (range : RoundingRange) (grid : Int) : Nat :=
  Nat.pow 2 (-range.exponent).toNat * Nat.pow 10 grid.toNat

/-- Whether a decimal rounds to the number. -/
def holds (range : RoundingRange) (decimal : Decimal) : Bool :=
  let low := range.low * range.binaryScale decimal.exponent
  let high := range.high * range.binaryScale decimal.exponent
  let point := decimal.digits * range.decimalScale decimal.exponent
  if range.closed then low ≤ point && point ≤ high else low < point && point < high

/-- The point of one grid that rounds to the number and lies nearest to it, if there is one. Only
the two neighbours of the number can be that point; of two equally near ones the upper is taken. -/
def onGrid? (range : RoundingRange) (grid : Int) : Option Decimal :=
  let target := range.value * range.binaryScale grid
  let unit := range.decimalScale grid
  let below : Decimal := ⟨target / unit, grid⟩
  let above : Decimal := ⟨target / unit + 1, grid⟩
  match range.holds below, range.holds above with
  | true, false => some below
  | false, true => some above
  | true, true =>
    if target - below.digits * unit < above.digits * unit - target then some below else some above
  | false, false => none

/-- Searches `count` grids, each ten times finer than the one before. -/
def onGrids? (range : RoundingRange) (coarsest : Int) (count : Nat) : Option Decimal :=
  (List.range count).findSome? fun (finer : Nat) => range.onGrid? (coarsest - finer)

end RoundingRange

end ChainedMultimap
