import ChainedMultimap.BucketCount
import ChainedMultimap.TableError

/-!
# Table options

What a caller chooses when making a table. Only the occupancy ratio can be refused; a bucket hint is
rounded to a bucket count.
-/

namespace ChainedMultimap

/-- The choices made for a new table. -/
structure TableOptions where
  /-- Requested number of buckets. -/
  bucketHint : Nat
  /-- Entries per bucket at which an insertion grows the table. -/
  ratio : Ratio
  /-- Whether an insertion stores a copy of the key instead of a reference. -/
  copyKeys : Bool
  /-- Whether an insertion stores a copy of the yield instead of a reference. -/
  copyYields : Bool

namespace TableOptions

/-- Sixteen buckets, growth at one half, copies of everything. -/
def standard : TableOptions := ⟨minBuckets, .half, true, true⟩

/-- Refuses a ratio that is not finite and positive. -/
def validate (options : TableOptions) : Except TableError Unit :=
  if options.ratio.isAccepted then .ok () else .error (.invalidRatio options.ratio)

/-- The bucket count that the hint leads to. -/
def bucketCount (options : TableOptions) : Nat := bucketCountFor options.bucketHint

/-- Whether two choices agree, ratios being compared as numbers. -/
def same (left right : TableOptions) : Bool :=
  left.bucketHint = right.bucketHint && left.ratio.numericallyEqual right.ratio &&
    left.copyKeys = right.copyKeys && left.copyYields = right.copyYields

end TableOptions

end ChainedMultimap
