import ChainedMultimap.BucketCount
import ChainedMultimap.Hash.Zobrist
import Mathlib.Algebra.Group.Nat.Defs
import Mathlib.Data.Nat.Log
import Mathlib.Order.Bounds.Basic
import Mathlib.Order.MinMax

/-!
# Rounding down to powers of two

Both roundings of a size raise two to the size's binary logarithm, brought within limits. All that is
asked of a rounding follows from this one law: it takes the largest power of two that is not above the
size, brings it within the limits, leaves a rounded size and, below the upper limit, its double as they
are, and masks by a rounded size take remainders.
-/

namespace ChainedMultimap

/-! ## The law of a rounding -/

/-- The powers of two that are not above a size. -/
def powersUpTo (size : Nat) : Set Nat := {power | (∃ exponent, power = 2 ^ exponent) ∧ power ≤ size}

/-- A way of rounding sizes down to powers of two between two limits. -/
structure RoundsDown (low high : Nat) (round : Nat → Nat) : Prop where
  /-- The largest power of two that is not above a size is brought within the limits. -/
  clamped : ∀ size, 0 < size →
    ∃ power, IsGreatest (powersUpTo size) power ∧ round size = max low (min power high)
  /-- Nothing is rounded to the lower limit. -/
  zero : round 0 = low
  /-- A rounded size stays. -/
  idempotent : ∀ size, round (round size) = round size
  /-- Larger sizes are not rounded to smaller ones. -/
  monotone : Monotone round
  /-- Up to the upper limit, less than half of a size is lost. -/
  lt_two_mul : ∀ size ≤ high, size < 2 * round size
  /-- Below the upper limit, the double of a rounded size stays. -/
  double : ∀ size, round size < high → round (2 * round size) = 2 * round size
  /-- Masking by a rounded size takes the remainder. -/
  masked : ∀ size number, number &&& (round size - 1) = number % round size ∧
    number % round size < round size

/-- The power of the binary logarithm is the largest one that is not above a size. -/
theorem isGreatest_powersUpTo {size : Nat} (positive : 0 < size) :
    IsGreatest (powersUpTo size) (2 ^ size.log2) := by
  have nonzero : size ≠ 0 := Nat.ne_of_gt positive
  refine ⟨⟨⟨_, rfl⟩, Nat.log2_self_le nonzero⟩, ?_⟩
  rintro power ⟨⟨exponent, rfl⟩, below⟩
  exact Nat.pow_le_pow_right (by decide) ((Nat.le_log2 nonzero).mpr below)

/-- The binary logarithm, rounded down, is monotone. -/
theorem monotone_log2 : Monotone Nat.log2 := by
  intro size larger le
  rw [Nat.log2_eq_log_two, Nat.log2_eq_log_two]
  exact Nat.log_mono_right le

/-- A rounding that brings the binary logarithm within limits rounds down. -/
theorem roundsDown_of_log2 {least most : Nat} (ordered : least ≤ most) {round : Nat → Nat}
    (law : ∀ size, round size = 2 ^ max least (min size.log2 most)) :
    RoundsDown (2 ^ least) (2 ^ most) round where
  clamped size positive := by
    refine ⟨2 ^ size.log2, isGreatest_powersUpTo positive, ?_⟩
    have rising : Monotone fun exponent : Nat => 2 ^ exponent := fun _ _ le =>
      Nat.pow_le_pow_right (by decide) le
    rw [law, rising.map_max, rising.map_min]
  zero := by
    rw [law, Nat.log2_zero, Nat.zero_min, Nat.max_zero]
  idempotent size := by
    rw [law, law, Nat.log2_two_pow]
    congr 1
    omega
  monotone size larger le := by
    have logs := monotone_log2 le
    rw [law, law]
    apply Nat.pow_le_pow_right (by decide)
    omega
  lt_two_mul size inside := by
    have small : size.log2 ≤ most := by
      have logs := monotone_log2 inside
      rwa [Nat.log2_two_pow] at logs
    rw [law, ← Nat.pow_succ']
    calc
      size < 2 ^ (size.log2 + 1) := Nat.lt_log2_self
      _ ≤ 2 ^ (max least (min size.log2 most)).succ := Nat.pow_le_pow_right (by decide) (by omega)
  double size below := by
    rw [law, Nat.pow_lt_pow_iff_right (by decide)] at below
    rw [law size, ← Nat.pow_succ', law, Nat.log2_two_pow]
    congr 1
    omega
  masked size number := by
    rw [law, Nat.and_two_pow_sub_one_eq_mod]
    exact ⟨rfl, Nat.mod_lt _ (Nat.two_pow_pos _)⟩

/-! ## The two roundings -/

/-- The logarithm of a bucket count is the one of the request, between 4 and 30. -/
theorem bucketCountFor_eq_two_pow (request : Nat) :
    bucketCountFor request = 2 ^ max 4 (min request.log2 30) := by
  have low : minBuckets = 2 ^ 4 := rfl
  have limit : maxBuckets = 2 ^ 30 := rfl
  rw [bucketCountFor]
  split
  · next small =>
    have least : request.log2 ≤ 4 := by
      have logs := monotone_log2 small
      rwa [low, Nat.log2_two_pow] at logs
    rw [low, max_eq_left ((Nat.min_le_left _ _).trans least)]
  · next above =>
    have positive : request ≠ 0 := by omega
    split
    · next large =>
      have most : 30 ≤ request.log2 := (Nat.le_log2 positive).mpr (limit ▸ large)
      rw [limit, min_eq_right most, max_eq_right (by decide)]
    · next below =>
      have least : 4 ≤ request.log2 := (Nat.le_log2 positive).mpr (by omega)
      have most : request.log2 < 30 := (Nat.log2_lt positive).mpr (by omega)
      rw [roundDownToPowerOfTwo, Nat.one_shiftLeft, min_eq_left (Nat.le_of_lt most),
        max_eq_right least]

/-- The logarithm of a row length is the one of the request, up to 30. -/
theorem Zobrist.lengthFor_eq_two_pow (request : Nat) :
    Zobrist.lengthFor request = 2 ^ max 0 (min request.log2 30) := by
  have limit : Zobrist.maxLength = 2 ^ 30 := rfl
  rw [Zobrist.lengthFor, roundDownToPowerOfTwo, Nat.one_shiftLeft, limit, monotone_log2.map_min,
    monotone_log2.map_max, Nat.log2_two_pow, max_comm]
  rfl

/-- Bucket counts round down to powers of two between 16 and `2 ^ 30`. -/
theorem roundsDown_bucketCountFor : RoundsDown 16 (2 ^ 30) bucketCountFor :=
  roundsDown_of_log2 (by decide : 4 ≤ 30) bucketCountFor_eq_two_pow

/-- Zobrist lengths round down to powers of two between 1 and `2 ^ 30`. -/
theorem Zobrist.roundsDown_lengthFor : RoundsDown 1 (2 ^ 30) Zobrist.lengthFor :=
  roundsDown_of_log2 (by decide : 0 ≤ 30) Zobrist.lengthFor_eq_two_pow

end ChainedMultimap
