import ChainedMultimap.Hash.Kind
import ChainedMultimap.Ratio

/-!
# Causes of failure

Every way in which an operation fails, with the message shown to a user and the diagnostic text that
names the cause and its data.
-/

namespace ChainedMultimap

/-- Why an operation failed. -/
inductive TableError where
  /-- An array of this many slots could not be reserved. -/
  | allocationFailure (requested : Nat)
  /-- The pair of key and yield is already stored. -/
  | duplicateEntry
  /-- The operation makes sense only for another hash function. -/
  | unsupportedOperation (function : HashKind)
  /-- The occupancy ratio is not finite and positive. -/
  | invalidRatio (ratio : Ratio)
  deriving DecidableEq

namespace TableError

/-- The message shown to a user. -/
def message : TableError → String
  | allocationFailure requested => "allocating " ++ Nat.repr requested ++ " table slots failed"
  | duplicateEntry => "\x7bkey, yield\x7d pair already exists in the table"
  | unsupportedOperation function =>
    "operation not supported by the " ++ function.name ++ " hash function"
  | invalidRatio ratio => "invalid maximum bucket occupancy ratio: " ++ ratio.display

/-- The diagnostic text. -/
def diagnostic : TableError → String
  | allocationFailure requested =>
    "AllocationFailure \x7b requested: " ++ Nat.repr requested ++ " \x7d"
  | duplicateEntry => "DuplicateEntry"
  | unsupportedOperation function =>
    "InvalidStrategyOperation \x7b function: " ++ function.tag ++ " \x7d"
  | invalidRatio ratio => "InvalidOccupancyRatio \x7b ratio: " ++ ratio.diagnostic ++ " \x7d"

/-- Whether two errors have the same cause and equal data, ratios being compared as numbers. -/
def same : TableError → TableError → Bool
  | invalidRatio left, invalidRatio right => left.numericallyEqual right
  | left, right => left = right

end TableError

end ChainedMultimap
