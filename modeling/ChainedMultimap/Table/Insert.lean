import ChainedMultimap.Table.Rebuild
import ChainedMultimap.Table.Search

/-!
# Inserting pairs

An insertion refuses a pair that is already stored. Otherwise the table doubles its buckets as long as
its entries have reached the occupancy ratio, and the new item then goes to the front of its chain.
If a doubling fails the pair is not stored, and the doublings before it remain.
-/

namespace ChainedMultimap.Table

variable {K Y : Type} [Storable K]

/-- Whether the entries have reached the occupancy ratio. -/
def isCrowded (table : Table K Y) : Bool := table.ratio.isReached table.size table.bucketCount

/-- Doubles the buckets until the table is no longer crowded, has the largest bucket array, or cannot
reserve the next one. -/
def grow (table : Table K Y) (allows : Allocator) : Outcome (Table K Y) (Except TableError Unit) :=
  if table.isCrowded then
    if full : maxBuckets ≤ table.bucketCount then
      ⟨.ok (), table, [.tableAtMaximum table.bucketCount]⟩
    else
      let doubled := table.rebuild allows (2 * table.bucketCount)
      match succeeded : doubled.answer with
      | .error failure => ⟨.error failure, doubled.state, doubled.log⟩
      | .ok () =>
        have closer : maxBuckets - doubled.state.bucketCount < maxBuckets - table.bucketCount := by
          have more := lt_bucketCountFor_two_mul (Nat.lt_of_not_le full)
          have count : doubled.state.bucketCount = _ := bucketCount_rebuild succeeded
          omega
        let grown := doubled.state.grow allows
        { grown with log := doubled.log ++ grown.log }
  else ⟨.ok (), table, []⟩
termination_by maxBuckets - table.bucketCount

/-- Stores a pair under the fresh handle, in front of the chain of the key's bucket. -/
def link (table : Table K Y) (key : Held K) (yield : Held Y) : Table K Y :=
  let bucket := table.home key.value
  let handle := table.items.fresh
  let items := table.items.add ⟨key, yield, none, none, bucket⟩
  { table with items := items }.pushFront handle bucket

/-- Grows the table if need be and stores a pair, answering its handle. -/
def store (table : Table K Y) (allows : Allocator) (key : Held K) (yield : Held Y) :
    Outcome (Table K Y) (Except TableError Handle) :=
  match table.grow allows with
  | ⟨.error failure, table, log⟩ => ⟨.error failure, table, log⟩
  | ⟨.ok (), table, log⟩ => ⟨.ok table.items.fresh, table.link key yield, log⟩

variable [Storable Y]

/-- Stores a pair unless it is already stored. -/
def insertHeld (table : Table K Y) (allows : Allocator) (key : Held K) (yield : Held Y) :
    Outcome (Table K Y) (Except TableError Handle) :=
  if table.contains (some key.value) (some yield.value) then ⟨.error .duplicateEntry, table, []⟩
  else table.store allows key yield

/-- Stores copies of a key and a yield, or references to them, as the table was told to. -/
def insert (table : Table K Y) (allows : Allocator) (key : K) (yield : Y) :
    Outcome (Table K Y) (Except TableError Handle) :=
  table.insertHeld allows (.of table.copyKeys key) (.of table.copyYields yield)

/-- Moves a key and a yield into the table. -/
def insertOwned (table : Table K Y) (allows : Allocator) (key : K) (yield : Y) :
    Outcome (Table K Y) (Except TableError Handle) :=
  table.insertHeld allows (.owned key) (.owned yield)

end ChainedMultimap.Table
