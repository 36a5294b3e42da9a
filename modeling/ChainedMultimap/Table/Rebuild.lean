import ChainedMultimap.Table.Basic

/-!
# Rebuilding the chains

A rebuild replaces the bucket array by one of another size and threads every item into it anew, in
the order of the old chains. As each item goes to the front of its chain, items that meet in a new
chain end up in reverse order. Handles, keys and yields are untouched.
-/

namespace ChainedMultimap.Table

variable {K Y : Type} [Storable K]

/-- Puts an item in front of the chain of its key's bucket. -/
def pushHome (table : Table K Y) (handle : Handle) : Table K Y :=
  match table.key? handle with
  | none => table
  | some key => table.pushFront handle (table.home key)

/-- Replaces the bucket array by an empty one and threads the given items into it, one after
another. -/
def rethread (table : Table K Y) (buckets : Nat) (order : List Handle) : Table K Y :=
  order.foldl pushHome
    { table with heads := Array.replicate buckets none, mask := buckets - 1 }

/-- Rebuilds the chains for a requested number of buckets, rounded to a bucket count. If the bucket
array cannot be reserved nothing changes. -/
def rebuild (table : Table K Y) (allows : Allocator) (request : Nat) :
    Outcome (Table K Y) (Except TableError Unit) :=
  let buckets := bucketCountFor request
  let notice := [LogRecord.tableResizing table.bucketCount buckets]
  if allows buckets then ⟨.ok (), table.rethread buckets table.handles, notice⟩
  else ⟨.error (.allocationFailure buckets), table, notice⟩

/-- Threading an item into its home bucket keeps the bucket count. -/
@[simp] theorem bucketCount_pushHome (table : Table K Y) (handle : Handle) :
    (table.pushHome handle).bucketCount = table.bucketCount := by
  unfold pushHome
  split <;> simp

/-- Threading items into a bucket array does not change its size. -/
theorem bucketCount_foldl_pushHome (order : List Handle) (table : Table K Y) :
    (order.foldl pushHome table).bucketCount = table.bucketCount := by
  induction order generalizing table with
  | nil => rfl
  | cons handle rest ih => simp [ih]

/-- Threading anew gives the table the bucket count asked for. -/
@[simp] theorem bucketCount_rethread (table : Table K Y) (buckets : Nat) (order : List Handle) :
    (table.rethread buckets order).bucketCount = buckets := by
  rw [rethread, bucketCount_foldl_pushHome]
  simp [bucketCount]

/-- A rebuild that succeeds leaves as many buckets as the request is rounded to. -/
theorem bucketCount_rebuild {table : Table K Y} {allows : Allocator} {request : Nat}
    (succeeded : (table.rebuild allows request).answer = .ok ()) :
    (table.rebuild allows request).state.bucketCount = bucketCountFor request := by
  by_cases reserved : allows (bucketCountFor request)
  · simp [rebuild, reserved]
  · simp [rebuild, reserved] at succeeded

end ChainedMultimap.Table
