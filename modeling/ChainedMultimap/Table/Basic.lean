import ChainedMultimap.Arena
import ChainedMultimap.Hash.Lcg
import ChainedMultimap.Held
import ChainedMultimap.Object.Storable
import ChainedMultimap.Options
import ChainedMultimap.Outcome

/-!
# Tables of chained items

A table stores pairs of a key and a yield. The pairs live in an arena and are threaded into one chain
for each bucket, in both directions. The bucket of an item is the hash of its key's bytes under the
mask of the bucket array. Chains are read by following links; the number of items bounds the walk.
-/

namespace ChainedMultimap

/-- A stored pair with its links. -/
structure Item (K Y : Type) where
  /-- The key. -/
  key : Held K
  /-- The yield. -/
  yield : Held Y
  /-- The item before this one in its chain. -/
  prev : Option Handle
  /-- The item after this one in its chain. -/
  next : Option Handle
  /-- The bucket whose chain holds the item. -/
  bucket : Nat

/-- A chained multimap from keys to yields. -/
structure Table (K Y : Type) where
  /-- The hash function on marshalled keys. -/
  strategy : Strategy
  /-- The first item of every bucket's chain. -/
  heads : Array (Option Handle)
  /-- Selects a bucket from a hash. -/
  mask : Nat
  /-- The stored pairs. -/
  items : Arena (Item K Y)
  /-- Whether an insertion copies the key. -/
  copyKeys : Bool
  /-- Whether an insertion copies the yield. -/
  copyYields : Bool
  /-- Entries per bucket at which an insertion grows the table. -/
  ratio : Ratio

namespace Table

variable {K Y : Type}

/-- An empty table with a given number of buckets. -/
def ofSize (strategy : Strategy) (options : TableOptions) (buckets : Nat) : Table K Y where
  strategy := strategy
  heads := Array.replicate buckets none
  mask := buckets - 1
  items := .empty
  copyKeys := options.copyKeys
  copyYields := options.copyYields
  ratio := options.ratio

/-- The number of stored pairs. -/
def size (table : Table K Y) : Nat := table.items.size

/-- Whether nothing is stored. -/
def isEmpty (table : Table K Y) : Bool := table.size = 0

/-- The number of buckets. -/
def bucketCount (table : Table K Y) : Nat := table.heads.size

/-- Items per bucket on average. -/
def load (table : Table K Y) : Double := .ofQuotient table.size table.bucketCount

/-- The first item of a bucket's chain. -/
def head? (table : Table K Y) (bucket : Nat) : Option Handle := (table.heads[bucket]?).join

/-- The handles reached from a start by following links forward, at most `count` of them. -/
def follow (items : Arena (Item K Y)) : Nat → Option Handle → List Handle
  | 0, _ => []
  | _ + 1, none => []
  | count + 1, some handle =>
    match items.get? handle with
    | none => []
    | some item => handle :: follow items count item.next

/-- The chain of a bucket, first item first. -/
def chain (table : Table K Y) (bucket : Nat) : List Handle :=
  follow table.items table.size (table.head? bucket)

/-- The number of items in a bucket's chain; zero past the last bucket. -/
def chainLength (table : Table K Y) (bucket : Nat) : Nat :=
  if bucket < table.bucketCount then (table.chain bucket).length else 0

/-- All handles, from the first bucket to the last and from first to last in every chain. -/
def handles (table : Table K Y) : List Handle :=
  (List.range table.bucketCount).flatMap table.chain

/-- The key and the yield under a handle. -/
def get? (table : Table K Y) (handle : Handle) : Option (K × Y) :=
  (table.items.get? handle).map fun item => (item.key.value, item.yield.value)

/-- The key under a handle. -/
def key? (table : Table K Y) (handle : Handle) : Option K := (table.get? handle).map Prod.fst

/-- The yield under a handle. -/
def yield? (table : Table K Y) (handle : Handle) : Option Y := (table.get? handle).map Prod.snd

/-- The bucket in which the item under a handle is chained. -/
def bucket? (table : Table K Y) (handle : Handle) : Option Nat :=
  (table.items.get? handle).map Item.bucket

/-- Puts an item in front of a bucket's chain: the item and the former first item are linked both
ways, and the bucket starts at the item. -/
def pushFront (table : Table K Y) (handle : Handle) (bucket : Nat) : Table K Y :=
  let head := table.head? bucket
  let placed := table.items.modify handle fun item =>
    { item with prev := none, next := head, bucket := bucket }
  let linked := match head with
    | none => placed
    | some former => placed.modify former fun item => { item with prev := some handle }
  { table with items := linked, heads := table.heads.setIfInBounds bucket (some handle) }

/-- Changes a yield in place; a referenced yield is copied first. Whether the pair stays unique is the
caller's business. Answers whether the handle names an item. -/
def updateYield (table : Table K Y) (handle : Handle) (change : Y → Y) : Bool × Table K Y :=
  ((table.items.get? handle).isSome,
    { table with items := table.items.modify handle fun item =>
        { item with yield := item.yield.update change } })

/-- Putting an item in front of a chain keeps the bucket count. -/
@[simp] theorem bucketCount_pushFront (table : Table K Y) (handle : Handle) (bucket : Nat) :
    (table.pushFront handle bucket).bucketCount = table.bucketCount := by
  simp [pushFront, bucketCount]

/-- A change of a yield is seen under its handle alone. -/
theorem get?_updateYield (table : Table K Y) (handle other : Handle) (change : Y → Y) :
    (table.updateYield handle change).2.get? other =
      if handle = other then (table.get? other).map fun pair => (pair.1, change pair.2)
      else table.get? other := by
  simp only [updateYield, get?, Arena.get?_modify]
  split <;> simp [Function.comp_def]

variable [Storable K]

/-- The bucket of a key: its hash under the mask. -/
def home (table : Table K Y) (key : K) : Nat :=
  (table.strategy (Storable.marshal key)).toNat &&& table.mask

variable [Storable Y]

/-- Makes an empty table. The options are checked first, then the bucket array is reserved. -/
def make (allows : Allocator) (strategy : Strategy) (options : TableOptions) :
    Except TableError (Table K Y) × List LogRecord :=
  match options.validate with
  | .error failure => (.error failure, [])
  | .ok () =>
    let buckets := options.bucketCount
    if allows buckets then
      (.ok (ofSize strategy options buckets),
        [.tableInitialized (Storable.kind K) (Storable.kind Y) buckets])
    else (.error (.allocationFailure buckets), [])

/-- The diagnostic text of a table. -/
def diagnostic (table : Table K Y) : String :=
  let flag (value : Bool) : String := if value then "true" else "false"
  "HashTable \x7b key_type: " ++ (Storable.kind K).tag ++
    ", yield_type: " ++ (Storable.kind Y).tag ++
    ", buckets: " ++ Nat.repr table.bucketCount ++
    ", entries: " ++ Nat.repr table.size ++
    ", copy_keys: " ++ flag table.copyKeys ++
    ", copy_yields: " ++ flag table.copyYields ++
    ", max_occupancy_ratio: " ++ table.ratio.diagnostic ++ " \x7d"

end Table

end ChainedMultimap
