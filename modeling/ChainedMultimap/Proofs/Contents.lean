import ChainedMultimap.Table.Run

/-!
# What is stored under a handle

Threading items into chains changes links alone: rebuilding and growing keep the pair under every
handle. Linking adds one pair under the fresh handle, discarding empties one handle, and changing a
yield is seen under one handle. No operation touches what the table was made with.
-/

namespace ChainedMultimap.Table

variable {K Y : Type} {table : Table K Y} {handle : Handle}

/-- The key and the yield under a handle, as they are held. -/
def held? (table : Table K Y) (handle : Handle) : Option (Held K × Held Y) :=
  (table.items.get? handle).map fun item => (item.key, item.yield)

/-- What a handle finds is the key and the yield held under it. -/
theorem get?_eq_map_held? (table : Table K Y) (handle : Handle) :
    table.get? handle = (table.held? handle).map fun pair => (pair.1.value, pair.2.value) := by
  simp [get?, held?, Function.comp_def]

/-- The key under a handle is the key held under it. -/
theorem key?_eq_map_held? (table : Table K Y) (handle : Handle) :
    table.key? handle = (table.held? handle).map fun pair => pair.1.value := by
  simp [key?, get?_eq_map_held?, Function.comp_def]

/-- A handle finds a pair exactly if it finds an item. -/
theorem isSome_held? (table : Table K Y) (handle : Handle) :
    (table.held? handle).isSome = (table.items.get? handle).isSome := by
  simp [held?]

/-- The key under a handle is the key of the item found under it. -/
theorem key?_of_found {item : Item K Y} (found : table.items.get? handle = some item) :
    table.key? handle = some item.key.value := by
  simp [key?, get?, found]

/-- A handle that finds an item has a key. -/
theorem exists_key?_of_isSome (present : (table.items.get? handle).isSome) :
    ∃ key, table.key? handle = some key := by
  obtain ⟨item, found⟩ := Option.isSome_iff_exists.mp present
  exact ⟨item.key.value, key?_of_found found⟩

/-- Two tables that were made with the same strategy and options. -/
structure SameChoices (before after : Table K Y) : Prop where
  /-- The hash function is the same. -/
  strategy : after.strategy = before.strategy
  /-- The occupancy ratio is the same. -/
  ratio : after.ratio = before.ratio
  /-- Keys are copied or not alike. -/
  copyKeys : after.copyKeys = before.copyKeys
  /-- Yields are copied or not alike. -/
  copyYields : after.copyYields = before.copyYields

/-- Two such tables with bucket arrays of one size, in which every key has the same bucket. -/
structure SameBuckets (before after : Table K Y) : Prop extends SameChoices before after where
  /-- The mask is the same. -/
  mask : after.mask = before.mask
  /-- There are as many buckets. -/
  bucketCount : after.bucketCount = before.bucketCount

/-- Two tables that differ in their chains alone. -/
structure SameContents (before after : Table K Y) : Prop extends SameChoices before after where
  /-- The pairs under all handles are the same. -/
  held? : after.held? = before.held?
  /-- The same handles have been given out. -/
  fresh : after.items.fresh = before.items.fresh
  /-- There are as many pairs. -/
  size : after.size = before.size

/-- A table has its own choices. -/
theorem SameChoices.refl (table : Table K Y) : SameChoices table table := ⟨rfl, rfl, rfl, rfl⟩

/-- Choices that two steps keep are kept from the first table to the last. -/
theorem SameChoices.trans {before between after : Table K Y} (first : SameChoices before between)
    (second : SameChoices between after) : SameChoices before after :=
  ⟨second.strategy.trans first.strategy, second.ratio.trans first.ratio,
    second.copyKeys.trans first.copyKeys, second.copyYields.trans first.copyYields⟩

/-- A table has its own buckets. -/
theorem SameBuckets.refl (table : Table K Y) : SameBuckets table table := ⟨.refl table, rfl, rfl⟩

/-- Buckets that two steps keep are kept from the first table to the last. -/
theorem SameBuckets.trans {before between after : Table K Y} (first : SameBuckets before between)
    (second : SameBuckets between after) : SameBuckets before after :=
  ⟨first.toSameChoices.trans second.toSameChoices, second.mask.trans first.mask,
    second.bucketCount.trans first.bucketCount⟩

/-- With the same buckets every key has the same home. -/
theorem SameBuckets.home [Storable K] {before after : Table K Y} (same : SameBuckets before after) :
    after.home = before.home := by
  funext key
  rw [Table.home, Table.home, same.strategy, same.mask]

/-- A table has its own contents. -/
theorem SameContents.refl (table : Table K Y) : SameContents table table :=
  ⟨.refl table, rfl, rfl, rfl⟩

/-- Contents that two steps keep are kept from the first table to the last. -/
theorem SameContents.trans {before between after : Table K Y} (first : SameContents before between)
    (second : SameContents between after) : SameContents before after :=
  ⟨first.toSameChoices.trans second.toSameChoices, second.held?.trans first.held?,
    second.fresh.trans first.fresh, second.size.trans first.size⟩

/-- With the same contents every handle finds the same pair. -/
theorem SameContents.get? {before after : Table K Y} (same : SameContents before after)
    (handle : Handle) : after.get? handle = before.get? handle := by
  rw [get?_eq_map_held?, get?_eq_map_held?, same.held?]

/-- With the same contents every handle finds the same key. -/
theorem SameContents.key? {before after : Table K Y} (same : SameContents before after)
    (handle : Handle) : after.key? handle = before.key? handle := by
  rw [Table.key?, Table.key?, same.get?]

/-! ## Threading -/

/-- After putting an item in front of a chain, that item is linked to the former first item, the
former first item back to it, and every other item is as it was. -/
theorem items_pushFront (table : Table K Y) (handle : Handle) (bucket : Nat) (other : Handle) :
    (table.pushFront handle bucket).items.get? other =
      (table.items.get? other).map fun item =>
        { item with
          prev := if table.head? bucket = some other then some handle
            else if handle = other then none else item.prev
          next := if handle = other then table.head? bucket else item.next
          bucket := if handle = other then bucket else item.bucket } := by
  unfold pushFront
  cases table.head? bucket with
  | none =>
    by_cases here : handle = other <;> simp [Arena.get?_modify, here]
  | some former =>
    by_cases here : handle = other <;> by_cases first : former = other <;>
      simp [Arena.get?_modify, here, first, Function.comp_def]

/-- Putting an item in front of a chain changes links alone. -/
theorem sameContents_pushFront (table : Table K Y) (handle : Handle) (bucket : Nat) :
    SameContents table (table.pushFront handle bucket) := by
  refine ⟨⟨rfl, rfl, rfl, rfl⟩, ?_, ?_, ?_⟩
  · funext other
    simp [held?, items_pushFront, Function.comp_def]
  · unfold pushFront
    cases table.head? bucket <;> simp
  · unfold size pushFront
    cases table.head? bucket <;> rfl

/-- Putting an item in front of a chain makes no bucket and drops none. -/
theorem sameBuckets_pushFront (table : Table K Y) (handle : Handle) (bucket : Nat) :
    SameBuckets table (table.pushFront handle bucket) :=
  ⟨⟨rfl, rfl, rfl, rfl⟩, rfl, bucketCount_pushFront table handle bucket⟩

/-- The table with an empty bucket array of another size, as before threading its items anew. -/
def emptied (table : Table K Y) (buckets : Nat) : Table K Y :=
  { table with heads := Array.replicate buckets none, mask := buckets - 1 }

/-- A new bucket array gets the mask one below its count. -/
theorem mask_emptied (table : Table K Y) {buckets : Nat} (positive : 0 < buckets) :
    (table.emptied buckets).bucketCount = (table.emptied buckets).mask + 1 := by
  simp only [emptied, bucketCount, Array.size_replicate]
  omega

section Threading

variable [Storable K]

/-- Threading an item into its home bucket changes no pair. -/
theorem sameContents_pushHome (table : Table K Y) (handle : Handle) :
    SameContents table (table.pushHome handle) := by
  unfold pushHome
  split
  · exact .refl table
  · exact sameContents_pushFront table handle _

/-- Threading an item into its home bucket makes no bucket and drops none. -/
theorem sameBuckets_pushHome (table : Table K Y) (handle : Handle) :
    SameBuckets table (table.pushHome handle) := by
  unfold pushHome
  split
  · exact .refl table
  · exact sameBuckets_pushFront table handle _

/-- Threading any list of items changes no pair. -/
theorem sameContents_foldl_pushHome (order : List Handle) (table : Table K Y) :
    SameContents table (order.foldl pushHome table) := by
  induction order generalizing table with
  | nil => exact .refl table
  | cons handle rest ih => exact (sameContents_pushHome table handle).trans (ih _)

/-- Threading any list of items makes no bucket and drops none. -/
theorem sameBuckets_foldl_pushHome (order : List Handle) (table : Table K Y) :
    SameBuckets table (order.foldl pushHome table) := by
  induction order generalizing table with
  | nil => exact .refl table
  | cons handle rest ih => exact (sameBuckets_pushHome table handle).trans (ih _)

/-- Threading all items anew changes links alone. -/
theorem sameContents_rethread (table : Table K Y) (buckets : Nat) (order : List Handle) :
    SameContents table (table.rethread buckets order) := by
  have swap : SameContents table (table.emptied buckets) := ⟨⟨rfl, rfl, rfl, rfl⟩, rfl, rfl, rfl⟩
  exact swap.trans (sameContents_foldl_pushHome order (table.emptied buckets))

/-- After threading anew the mask is one below the new bucket count. -/
@[simp] theorem mask_rethread (table : Table K Y) (buckets : Nat) (order : List Handle) :
    (table.rethread buckets order).mask = buckets - 1 := by
  rw [rethread, (sameBuckets_foldl_pushHome order _).mask]

/-- A rebuild changes links alone, whether it succeeds or not. -/
theorem sameContents_rebuild (table : Table K Y) (allows : Allocator) (request : Nat) :
    SameContents table (table.rebuild allows request).state := by
  by_cases reserved : allows (bucketCountFor request)
  · simpa [rebuild, reserved] using sameContents_rethread table _ _
  · simpa [rebuild, reserved] using SameContents.refl table

/-! ## Linking, discarding and changing -/

/-- Linking adds the pair under the fresh handle. -/
theorem held?_link (table : Table K Y) (key : Held K) (yield : Held Y) (other : Handle) :
    (table.link key yield).held? other =
      if other = table.items.fresh then some (key, yield) else table.held? other := by
  rw [link, (sameContents_pushFront _ _ _).held?]
  simp only [held?, Arena.get?_add]
  split <;> rfl

/-- A linked pair is found under the fresh handle, and nothing else changes. -/
theorem get?_link (table : Table K Y) (key : Held K) (yield : Held Y) (other : Handle) :
    (table.link key yield).get? other =
      if other = table.items.fresh then some (key.value, yield.value) else table.get? other := by
  rw [get?_eq_map_held?, held?_link, get?_eq_map_held?]
  split <;> rfl

/-- Linking a pair gives out one handle. -/
@[simp] theorem fresh_link (table : Table K Y) (key : Held K) (yield : Held Y) :
    (table.link key yield).items.fresh = ⟨table.items.fresh.index + 1⟩ := by
  rw [link, (sameContents_pushFront _ _ _).fresh]
  exact table.items.fresh_add _

/-- Linking a pair makes no bucket and drops none. -/
theorem sameBuckets_link (table : Table K Y) (key : Held K) (yield : Held Y) :
    SameBuckets table (table.link key yield) :=
  ⟨⟨rfl, rfl, rfl, rfl⟩, rfl, bucketCount_pushFront _ _ _⟩

end Threading

/-- After linking the neighbours of an item to each other, the item before it has its forward link and
the item behind it has its backward link. -/
theorem items_unlink (table : Table K Y) (item : Item K Y) (other : Handle) :
    (table.unlink item).items.get? other =
      (table.items.get? other).map fun neighbour =>
        { neighbour with
          prev := if item.next = some other then item.prev else neighbour.prev
          next := if item.prev = some other then item.next else neighbour.next } := by
  unfold unlink
  cases item.prev with
  | none =>
    cases item.next with
    | none => simp
    | some behind => by_cases last : behind = other <;> simp [Arena.get?_modify, last]
  | some before =>
    cases item.next with
    | none => by_cases first : before = other <;> simp [Arena.get?_modify, first]
    | some behind =>
      by_cases first : before = other <;> by_cases last : behind = other <;>
        simp [Arena.get?_modify, first, last, Function.comp_def]

/-- Linking the neighbours of an item to each other changes links alone. -/
theorem sameContents_unlink (table : Table K Y) (item : Item K Y) :
    SameContents table (table.unlink item) := by
  have held : (table.unlink item).held? = table.held? := by
    funext other
    simp [held?, items_unlink, Function.comp_def]
  refine ⟨⟨?_, ?_, ?_, ?_⟩, held, ?_, ?_⟩ <;>
    (unfold unlink; cases item.prev <;> cases item.next <;> simp [size])

/-- Unlinking an item makes no bucket and drops none. -/
theorem sameBuckets_unlink (table : Table K Y) (item : Item K Y) :
    SameBuckets table (table.unlink item) := by
  refine ⟨(sameContents_unlink table item).toSameChoices, ?_, ?_⟩ <;>
    (unfold unlink; cases item.prev <;> cases item.next <;> simp [bucketCount])

/-- Removing an item hands back what was held under its handle. -/
theorem removeItem_answer (table : Table K Y) (handle : Handle) :
    (table.removeItem handle).1 = table.held? handle := by
  unfold removeItem held?
  cases table.items.get? handle <;> rfl

/-- A handle that holds nothing can be removed in vain. -/
theorem removeItem_of_held?_eq_none (missing : table.held? handle = none) :
    table.removeItem handle = (none, table) := by
  have absent : table.items.get? handle = none := by simpa [held?] using missing
  rw [removeItem, absent]

/-- Discarding empties the handle and no other. -/
theorem held?_discard (table : Table K Y) (handle other : Handle) :
    (table.discard handle).held? other = if handle = other then none else table.held? other := by
  unfold discard removeItem
  cases found : table.items.get? handle with
  | none =>
    by_cases here : handle = other
    · subst here
      simp [held?, found]
    · simp [here]
  | some item =>
    have unlinked := congrFun (sameContents_unlink table item).held? other
    simp only [held?] at unlinked ⊢
    rw [Arena.get?_erase]
    by_cases here : handle = other
    · simp [here]
    · simp [here, unlinked]

/-- Discarding an item makes no bucket and drops none. -/
theorem sameBuckets_discard (table : Table K Y) (handle : Handle) :
    SameBuckets table (table.discard handle) := by
  unfold discard removeItem
  cases table.items.get? handle with
  | none => exact .refl table
  | some item =>
    obtain ⟨⟨strategy, ratio, copyKeys, copyYields⟩, mask, bucketCount⟩ :=
      sameBuckets_unlink table item
    exact ⟨⟨strategy, ratio, copyKeys, copyYields⟩, mask, bucketCount⟩

/-- Discarding an item gives out no handle and takes none back. -/
@[simp] theorem fresh_discard (table : Table K Y) (handle : Handle) :
    (table.discard handle).items.fresh = table.items.fresh := by
  unfold discard removeItem
  cases table.items.get? handle with
  | none => rfl
  | some item => simpa using (sameContents_unlink table item).fresh

/-- Discarding several handles empties those and no other. -/
theorem held?_foldl_discard (order : List Handle) (table : Table K Y) (other : Handle) :
    (order.foldl discard table).held? other =
      if other ∈ order then none else table.held? other := by
  induction order generalizing table with
  | nil => simp
  | cons handle rest ih =>
    rw [List.foldl_cons, ih, held?_discard]
    by_cases later : other ∈ rest
    · simp [later]
    · by_cases here : handle = other
      · simp [here]
      · simp [later, here, Ne.symm here]

/-- Discarding a list of items empties exactly the handles on it. -/
theorem get?_foldl_discard (order : List Handle) (table : Table K Y) (other : Handle) :
    (order.foldl discard table).get? other = if other ∈ order then none else table.get? other := by
  rw [get?_eq_map_held?, held?_foldl_discard, get?_eq_map_held?]
  split <;> rfl

/-- Discarding a list of items makes no bucket and drops none. -/
theorem sameBuckets_foldl_discard (order : List Handle) (table : Table K Y) :
    SameBuckets table (order.foldl discard table) := by
  induction order generalizing table with
  | nil => exact .refl table
  | cons handle rest ih => exact (sameBuckets_discard table handle).trans (ih _)

/-- Discarding a list of items gives out no handle and takes none back. -/
@[simp] theorem fresh_foldl_discard (order : List Handle) (table : Table K Y) :
    (order.foldl discard table).items.fresh = table.items.fresh := by
  induction order generalizing table with
  | nil => rfl
  | cons handle rest ih => simp [ih]

/-- A change of a yield is seen under its handle alone, and what is held there is then a copy. -/
theorem held?_updateYield (table : Table K Y) (handle other : Handle) (change : Y → Y) :
    (table.updateYield handle change).2.held? other =
      if handle = other then (table.held? other).map fun pair => (pair.1, pair.2.update change)
      else table.held? other := by
  simp only [updateYield, held?, Arena.get?_modify]
  split <;> simp [Function.comp_def]

/-- Writing a yield makes no bucket and drops none. -/
theorem sameBuckets_updateYield (table : Table K Y) (handle : Handle) (change : Y → Y) :
    SameBuckets table (table.updateYield handle change).2 := ⟨⟨rfl, rfl, rfl, rfl⟩, rfl, rfl⟩

end ChainedMultimap.Table
