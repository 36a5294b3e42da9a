/-!
# Sizes that are powers of two

A requested size is rounded down to a power of two between a lower and an upper limit. Bucket arrays
have between 16 and `2 ^ 30` slots. Doubling a bucket count below the upper limit is already a
rounded size.
-/

namespace ChainedMultimap

/-- The largest power of two that is not above a positive number. -/
def roundDownToPowerOfTwo (size : Nat) : Nat := 1 <<< Nat.log2 size

/-- The smallest bucket array. -/
def minBuckets : Nat := 16

/-- The largest bucket array a table grows to. -/
def maxBuckets : Nat := 1 <<< 30

/-- The bucket count for a requested size: rounded down to a power of two, within the limits. -/
def bucketCountFor (request : Nat) : Nat :=
  if request ≤ minBuckets then minBuckets
  else if maxBuckets ≤ request then maxBuckets
  else roundDownToPowerOfTwo request

/-- Rounding down to a power of two loses less than half. -/
theorem lt_two_mul_roundDownToPowerOfTwo (size : Nat) :
    size < 2 * roundDownToPowerOfTwo size := by
  rw [roundDownToPowerOfTwo, Nat.one_shiftLeft, ← Nat.pow_succ']
  exact Nat.lt_log2_self

/-- Growing from below the upper limit always gains buckets. -/
theorem lt_bucketCountFor_two_mul {count : Nat} (below : count < maxBuckets) :
    count < bucketCountFor (2 * count) := by
  have limit : maxBuckets = 1073741824 := rfl
  have low : minBuckets = 16 := rfl
  have rounded := lt_two_mul_roundDownToPowerOfTwo (2 * count)
  unfold bucketCountFor
  split
  · omega
  · split <;> omega

end ChainedMultimap
