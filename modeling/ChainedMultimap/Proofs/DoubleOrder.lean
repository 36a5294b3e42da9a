import ChainedMultimap.Proofs.Lawful
import Mathlib

/-!
# The total order of doubles

The floating-point standard orders all encodings in one line. Numbers and infinities are ordered by
their value, with the negative zero before the positive one. Negative not-a-numbers come before
everything else and positive ones after everything else; among the positive ones a signaling one
comes before a quiet one and then a lower payload before a higher one, among the negative ones it is
the other way round. The unsigned key of the bits by which doubles are compared has this order,
because the value of a number grows with its bits without the sign.
-/

namespace ChainedMultimap.Double

variable {left right value : Double}

/-! ## What an encoding stands for -/

/-- The encoding without its sign bit. -/
def magnitude (value : Double) : Nat := value.bits.toNat % 2 ^ 63

/-- The eleven exponent bits. -/
def exponentField (value : Double) : Nat := value.magnitude / 2 ^ 52

/-- The fifty-two fraction bits. -/
def fractionField (value : Double) : Nat := value.magnitude % 2 ^ 52

/-- The absolute value of a finite number. The digit before the point is one, unless all exponent
bits are clear. -/
def absolute (value : Double) : ℚ :=
  if value.exponentField = 0 then value.fractionField / 2 ^ 52 * 2 ^ (-1022 : Int)
  else (1 + value.fractionField / 2 ^ 52) * 2 ^ (value.exponentField - 1023 : Int)

/-- One and a half. -/
example : absolute ⟨0x3ff8000000000000⟩ = 3 / 2 := by
  have exponent : exponentField ⟨0x3ff8000000000000⟩ = 1023 := by decide
  have fraction : fractionField ⟨0x3ff8000000000000⟩ = 2 ^ 51 := by decide
  rw [absolute, exponent, fraction]
  norm_num

/-- The absolute value of a number or an infinity, which has all exponent bits set. -/
noncomputable def size (value : Double) : EReal :=
  if value.exponentField = 2047 then ⊤ else ((value.absolute : ℝ) : EReal)

/-- The value of a number or an infinity. Both zeros have the same. -/
noncomputable def number (value : Double) : EReal :=
  if value.isNegative then -value.size else value.size

/-- Whether a not-a-number is quiet, which its highest fraction bit tells. -/
def isQuiet (value : Double) : Bool := 2 ^ 51 ≤ value.fractionField

/-- The fraction bits of a not-a-number behind the highest one. -/
def payload (value : Double) : Nat := value.fractionField % 2 ^ 51

/-- Positive not-a-numbers are ordered with the signaling ones first, then by payload. -/
def PayloadOrdered (left right : Double) : Prop :=
  (¬left.isQuiet ∧ right.isQuiet) ∨ (left.isQuiet = right.isQuiet ∧ left.payload ≤ right.payload)

/-- The total order of the floating-point standard. -/
def TotallyOrdered (left right : Double) : Prop :=
  match left.isNaN, right.isNaN with
  | false, false => left.number < right.number ∨
      left.number = right.number ∧ (right.isNegative → left.isNegative)
  | true, false => left.isNegative
  | false, true => ¬right.isNegative
  | true, true =>
    match left.isNegative, right.isNegative with
    | true, false => True
    | false, true => False
    | false, false => PayloadOrdered left right
    | true, true => PayloadOrdered right left

/-! ## Values grow with magnitudes -/

/-- A magnitude in units of the least positive number. -/
def units (magnitude : Nat) : Nat :=
  if magnitude / 2 ^ 52 = 0 then magnitude % 2 ^ 52
  else (2 ^ 52 + magnitude % 2 ^ 52) * 2 ^ (magnitude / 2 ^ 52 - 1)

/-- The next magnitude is a larger number, within one exponent and from one exponent to the next. -/
theorem strictMono_units : StrictMono units := by
  apply strictMono_nat_of_lt_succ
  intro magnitude
  obtain ⟨exponent, same⟩ : ∃ exponent, magnitude / 2 ^ 52 = exponent := ⟨_, rfl⟩
  have bound : magnitude % 2 ^ 52 < 2 ^ 52 := Nat.mod_lt _ (by decide)
  by_cases last : magnitude % 2 ^ 52 + 1 = 2 ^ 52
  · have carried : (magnitude + 1) / 2 ^ 52 = exponent + 1 := by omega
    have clear : (magnitude + 1) % 2 ^ 52 = 0 := by omega
    rw [units, units, same, carried, clear, if_neg (Nat.succ_ne_zero exponent), Nat.add_zero,
      Nat.add_sub_cancel]
    cases exponent with
    | zero => simpa using bound
    | succ below =>
      rw [if_neg (Nat.succ_ne_zero below), Nat.add_sub_cancel]
      have scale : 0 < 2 ^ below := Nat.two_pow_pos below
      calc (2 ^ 52 + magnitude % 2 ^ 52) * 2 ^ below
        _ < 2 ^ 53 * 2 ^ below := Nat.mul_lt_mul_of_pos_right (by omega) scale
        _ = 2 ^ 52 * 2 ^ (below + 1) := by ring
  · have kept : (magnitude + 1) / 2 ^ 52 = exponent := by omega
    have next : (magnitude + 1) % 2 ^ 52 = magnitude % 2 ^ 52 + 1 := by omega
    rw [units, units, same, kept, next]
    split
    · exact Nat.lt_succ_self _
    · exact Nat.mul_lt_mul_of_pos_right (by omega) (Nat.two_pow_pos _)

/-- The absolute value of a finite number counts its units. -/
theorem absolute_eq_units (value : Double) :
    value.absolute = units value.magnitude * (2 : ℚ) ^ (-1074 : Int) := by
  rw [absolute, units, ← exponentField, ← fractionField]
  split
  · have scale : (2 : ℚ) ^ (-1022 : Int) = 2 ^ 52 * 2 ^ (-1074 : Int) := by
      rw [← zpow_natCast, ← zpow_add₀ (by norm_num)]
      norm_num
    rw [scale]
    field_simp
  · have scale : (2 : ℚ) ^ (value.exponentField - 1023 : Int) =
        2 ^ (value.exponentField - 1) * 2 ^ 52 * 2 ^ (-1074 : Int) := by
      rw [← zpow_natCast, ← zpow_natCast, ← zpow_add₀ (by norm_num), ← zpow_add₀ (by norm_num)]
      congr 1
      omega
    rw [scale, Nat.cast_mul, Nat.cast_add, Nat.cast_pow, Nat.cast_pow, Nat.cast_ofNat]
    generalize (2 : ℚ) ^ (-1074 : Int) = unit
    field_simp

/-- Between numbers and infinities the size grows with the magnitude. -/
theorem size_lt_iff (first : left.magnitude ≤ 2047 * 2 ^ 52)
    (second : right.magnitude ≤ 2047 * 2 ^ 52) : left.size < right.size ↔ left.magnitude < right.magnitude := by
  have unit : (0 : ℚ) < 2 ^ (-1074 : Int) := by positivity
  rw [size, size]
  split <;> split
  · refine iff_of_false (lt_irrefl _) ?_
    rw [exponentField] at *
    omega
  · refine iff_of_false not_top_lt ?_
    rw [exponentField] at *
    omega
  · refine iff_of_true (EReal.coe_lt_top _) ?_
    rw [exponentField] at *
    omega
  · rw [EReal.coe_lt_coe_iff, Rat.cast_lt, absolute_eq_units, absolute_eq_units,
      mul_lt_mul_iff_left₀ unit, Nat.cast_lt, strictMono_units.lt_iff_lt]

/-! ## Signs -/

/-- A not-a-number has a larger magnitude than infinity. -/
theorem isNaN_iff : value.isNaN ↔ 2047 * 2 ^ 52 < value.magnitude := by
  have mask : value.bits.toNat &&& (2 ^ 63 - 1) = value.magnitude :=
    Nat.and_two_pow_sub_one_eq_mod _ 63
  rw [isNaN, decide_eq_true_iff, UInt64.lt_iff_toNat_lt, UInt64.toNat_and]
  exact mask ▸ Iff.rfl

/-- A double is a number or an infinity exactly if its magnitude is at most that of infinity. -/
theorem isNaN_eq_false_iff : value.isNaN = false ↔ value.magnitude ≤ 2047 * 2 ^ 52 := by
  rw [← Bool.not_eq_true, isNaN_iff, Nat.not_lt]

/-- Negative encodings have the keys below `2 ^ 63`, falling with the magnitude, and the others
those from there on, rising with it. -/
theorem orderKey_eq_magnitude (value : Double) : value.orderKey.toNat =
    if value.isNegative then 2 ^ 63 - 1 - value.magnitude else 2 ^ 63 + value.magnitude := by
  have small := value.bits.toNat_lt
  rw [orderKey_toNat, magnitude]
  by_cases negative : value.isNegative
  · have high := isNegative_iff.mp negative
    rw [if_pos high, if_pos negative]
    omega
  · have low : ¬2 ^ 63 ≤ value.bits.toNat := negative ∘ isNegative_iff.mpr
    rw [if_neg low, if_neg negative]
    omega

/-- Negative encodings come first, with larger magnitudes before smaller ones; the others follow,
with smaller magnitudes before larger ones. -/
theorem isLE_compare_iff_magnitude : (compare left right).isLE ↔
    match left.isNegative, right.isNegative with
    | true, true => right.magnitude ≤ left.magnitude
    | true, false => True
    | false, true => False
    | false, false => left.magnitude ≤ right.magnitude := by
  have small : left.magnitude < 2 ^ 63 := Nat.mod_lt _ (by decide)
  have small' : right.magnitude < 2 ^ 63 := Nat.mod_lt _ (by decide)
  change (compare left.orderKey right.orderKey).isLE ↔ _
  rw [Std.isLE_compare, UInt64.le_iff_toNat_le, orderKey_eq_magnitude, orderKey_eq_magnitude]
  cases left.isNegative <;> cases right.isNegative <;> simp <;> omega

/-! ## The order of the standard -/

/-- The sizes of two numbers or infinities are ordered as their magnitudes are. -/
theorem size_le_iff (first : left.magnitude ≤ 2047 * 2 ^ 52)
    (second : right.magnitude ≤ 2047 * 2 ^ 52) : left.size ≤ right.size ↔ left.magnitude ≤ right.magnitude := by
  rw [← not_lt, size_lt_iff second first, not_lt]

/-- No size is negative. -/
theorem size_nonneg (value : Double) : 0 ≤ value.size := by
  rw [size]
  split
  · exact le_top
  · have absolute : 0 ≤ value.absolute := by
      rw [absolute_eq_units]
      positivity
    exact EReal.coe_nonneg.mpr (Rat.cast_nonneg.mpr absolute)

/-- The payload order is the order of the magnitudes. -/
theorem payloadOrdered_iff (first : left.isNaN) (second : right.isNaN) :
    PayloadOrdered left right ↔ left.magnitude ≤ right.magnitude := by
  have large := isNaN_iff.mp first
  have large' := isNaN_iff.mp second
  have small : left.magnitude < 2 ^ 63 := Nat.mod_lt _ (by decide)
  have small' : right.magnitude < 2 ^ 63 := Nat.mod_lt _ (by decide)
  have fractions : left.magnitude ≤ right.magnitude ↔ left.fractionField ≤ right.fractionField := by
    rw [fractionField, fractionField]
    omega
  have fraction : left.fractionField < 2 ^ 52 := Nat.mod_lt _ (by decide)
  have fraction' : right.fractionField < 2 ^ 52 := Nat.mod_lt _ (by decide)
  rw [PayloadOrdered, isQuiet, isQuiet, payload, payload, fractions]
  simp only [decide_eq_true_iff, decide_eq_decide]
  omega

/-- Numbers and infinities are ordered by value, and zeros by their sign. -/
theorem number_ordered_iff (first : left.isNaN = false) (second : right.isNaN = false) :
    (left.number < right.number ∨
      left.number = right.number ∧ (right.isNegative → left.isNegative)) ↔
        (compare left right).isLE := by
  have bound := isNaN_eq_false_iff.mp first
  have bound' := isNaN_eq_false_iff.mp second
  have sizes := size_le_iff bound bound'
  have sizes' := size_le_iff bound' bound
  have below := EReal.neg_le_zero.mpr left.size_nonneg
  have below' := EReal.neg_le_zero.mpr right.size_nonneg
  rw [isLE_compare_iff_magnitude, number, number]
  cases left.isNegative with
  | false =>
    cases right.isNegative with
    | false => simp [← sizes, le_iff_lt_or_eq]
    | true => simpa using below'.trans left.size_nonneg
  | true =>
    cases right.isNegative with
    | false => simpa [← le_iff_lt_or_eq] using below.trans right.size_nonneg
    | true => simp [← sizes', le_iff_lt_or_eq, eq_comm]

/-- Doubles are compared in the total order of the floating-point standard. -/
theorem isLE_compare_iff_totallyOrdered : (compare left right).isLE ↔ TotallyOrdered left right := by
  rw [TotallyOrdered]
  cases nan : left.isNaN with
  | false =>
    cases nan' : right.isNaN with
    | false => exact (number_ordered_iff nan nan').symm
    | true =>
      have bound := isNaN_eq_false_iff.mp nan
      have above := isNaN_iff.mp nan'
      rw [isLE_compare_iff_magnitude]
      cases left.isNegative <;> cases right.isNegative <;> simp <;> omega
  | true =>
    have above := isNaN_iff.mp nan
    cases nan' : right.isNaN with
    | false =>
      have bound := isNaN_eq_false_iff.mp nan'
      rw [isLE_compare_iff_magnitude]
      cases left.isNegative <;> cases right.isNegative <;> simp <;> omega
    | true =>
      rw [isLE_compare_iff_magnitude]
      cases left.isNegative <;> cases right.isNegative <;>
        simp [payloadOrdered_iff nan nan', payloadOrdered_iff nan' nan]

end ChainedMultimap.Double
