import ChainedMultimap.Proofs.Growth
import ChainedMultimap.Proofs.Rounding
import ChainedMultimap.Proofs.Threads
import Mathlib.Algebra.Group.Nat.Defs

/-!
# Well-formed tables

A table is well formed when its bucket array has an admissible size that its mask fits, its links
thread the items into chains, and every item is on the chain of its key's bucket. A new table is well
formed, and every operation keeps a table so, whether it succeeds or fails. With each operation stands
what it does to the chains.
-/

namespace ChainedMultimap

/-- A bucket count is a power of two from `2 ^ 4` to `2 ^ 30`. -/
def IsBucketCount (count : Nat) : Prop :=
  ∃ exponent, 4 ≤ exponent ∧ exponent ≤ 30 ∧ count = 2 ^ exponent

/-- Every request is rounded to a bucket count. -/
theorem isBucketCount_bucketCountFor (request : Nat) : IsBucketCount (bucketCountFor request) :=
  ⟨max 4 (min request.log2 30), by omega, by omega, bucketCountFor_eq_two_pow request⟩

/-- A bucket count is positive. -/
theorem IsBucketCount.pos {count : Nat} (admissible : IsBucketCount count) : 0 < count := by
  obtain ⟨exponent, _, _, rfl⟩ := admissible
  exact Nat.two_pow_pos exponent

/-- A bucket count is at least the lower limit. -/
theorem IsBucketCount.minBuckets_le {count : Nat} (admissible : IsBucketCount count) :
    minBuckets ≤ count := by
  obtain ⟨exponent, least, _, rfl⟩ := admissible
  exact Nat.pow_le_pow_right (by decide : 0 < 2) least

/-- A bucket count is at most the upper limit. -/
theorem IsBucketCount.le_maxBuckets {count : Nat} (admissible : IsBucketCount count) :
    count ≤ maxBuckets := by
  obtain ⟨exponent, _, most, rfl⟩ := admissible
  exact Nat.pow_le_pow_right (by decide : 0 < 2) most

/-- A bucket count is rounded to itself. -/
theorem IsBucketCount.bucketCountFor_eq {count : Nat} (admissible : IsBucketCount count) :
    bucketCountFor count = count := by
  obtain ⟨exponent, least, most, rfl⟩ := admissible
  rw [bucketCountFor_eq_two_pow, Nat.log2_two_pow, min_eq_left most, max_eq_right least]

/-- Below the largest bucket count, the double of a bucket count is one too. -/
theorem IsBucketCount.double {count : Nat} (admissible : IsBucketCount count)
    (below : count < maxBuckets) : IsBucketCount (2 * count) := by
  have limit : maxBuckets = 2 ^ 30 := rfl
  obtain ⟨exponent, least, _, rfl⟩ := admissible
  have more : exponent < 30 := (Nat.pow_lt_pow_iff_right (by decide : 1 < 2)).mp (limit ▸ below)
  exact ⟨exponent + 1, by omega, by omega, Nat.pow_succ'.symm⟩

namespace Table

variable {K Y : Type} [Storable K] {table : Table K Y} {handle : Handle} {bucket : Nat}

/-- The table's bucket array, links and items fit together. -/
structure WellFormed (table : Table K Y) : Prop where
  /-- The mask selects the buckets of the bucket array. -/
  mask : table.bucketCount = table.mask + 1
  /-- The bucket array has an admissible size. -/
  admissible : IsBucketCount table.bucketCount
  /-- Every chain starts at its bucket, is linked both ways and ends. -/
  threads : table.Threads table.chain
  /-- Every item is on the chain of its key's bucket. -/
  placed : ∀ {handle key}, table.key? handle = some key → handle ∈ table.chain (table.home key)

/-- A mask that fits the bucket array selects a bucket for every key. -/
theorem home_lt_of_mask (mask : table.bucketCount = table.mask + 1) (key : K) :
    table.home key < table.bucketCount := by
  rw [mask]
  exact Nat.lt_succ_of_le Nat.and_le_right

namespace WellFormed

/-- A table is well formed when its items are threaded as lists say on which each has its place. -/
theorem of_threads {chains : Nat → List Handle} (mask : table.bucketCount = table.mask + 1)
    (admissible : IsBucketCount table.bucketCount) (threads : table.Threads chains)
    (placed : ∀ {handle key}, table.key? handle = some key → handle ∈ chains (table.home key)) :
    table.WellFormed where
  mask := mask
  admissible := admissible
  threads := by rwa [threads.chain_eq]
  placed known := by
    rw [threads.chain_eq]
    exact placed known

/-- The home of every key is one of the buckets. -/
theorem home_lt (wellFormed : table.WellFormed) (key : K) :
    table.home key < table.bucketCount :=
  home_lt_of_mask wellFormed.mask key

/-- The bucket of a key is the remainder of its hash. -/
theorem home_eq_mod (wellFormed : table.WellFormed) (key : K) :
    table.home key = (table.strategy (Storable.marshal key)).toNat % table.bucketCount := by
  have mask := wellFormed.mask
  obtain ⟨exponent, _, _, count⟩ := wellFormed.admissible
  have ones : table.mask = 2 ^ exponent - 1 := by omega
  rw [home, ones, Nat.and_two_pow_sub_one_eq_mod, count]

/-- The items of a well-formed table belong to the buckets of their keys. -/
theorem bucket_eq (wellFormed : table.WellFormed) {item : Item K Y}
    (found : table.items.get? handle = some item) : item.bucket = table.home item.key.value :=
  wellFormed.threads.bucket_eq found (wellFormed.placed (key?_of_found found))

/-- An item is in the bucket of its key. -/
theorem bucket?_eq (wellFormed : table.WellFormed) (handle : Handle) :
    table.bucket? handle = (table.key? handle).map table.home := by
  cases found : table.items.get? handle with
  | none => simp [Table.bucket?, key?, get?, found]
  | some item => simp [Table.bucket?, found, key?_of_found found, wellFormed.bucket_eq found]

/-- An item is on the chain of its bucket. -/
theorem mem_chain_of_found (wellFormed : table.WellFormed) {item : Item K Y}
    (found : table.items.get? handle = some item) : handle ∈ table.chain item.bucket := by
  rw [wellFormed.bucket_eq found]
  exact wellFormed.placed (key?_of_found found)

/-- An item is on the chain of its key's bucket and on no other. -/
theorem mem_chain (wellFormed : table.WellFormed) :
    handle ∈ table.chain bucket ↔ (table.key? handle).map table.home = some bucket := by
  constructor
  · intro member
    obtain ⟨item, found, rfl⟩ := (wellFormed.threads.linked bucket).exists_item member
    rw [wellFormed.bucket_eq found, key?_of_found found, Option.map_some]
  · intro home
    obtain ⟨key, known, rfl⟩ := Option.map_eq_some_iff.mp home
    exact wellFormed.placed known

/-- A stored item stands on the chain of its bucket between the handles it is linked to. -/
theorem exists_split (wellFormed : table.WellFormed) {item : Item K Y}
    (found : table.items.get? handle = some item) :
    ∃ before behind, table.chain item.bucket = before ++ handle :: behind ∧
      item.prev = before.getLast? ∧ item.next = behind.head? :=
  wellFormed.threads.exists_split found (wellFormed.mem_chain_of_found found)

/-- The handles on the chains are those that find items. -/
theorem mem_handles (wellFormed : table.WellFormed) :
    handle ∈ table.handles ↔ (table.items.get? handle).isSome := by
  rw [wellFormed.threads.mem_handles]
  constructor
  · rintro ⟨bucket, member⟩
    exact wellFormed.threads.found member
  · intro present
    obtain ⟨item, found⟩ := Option.isSome_iff_exists.mp present
    exact ⟨item.bucket, wellFormed.mem_chain_of_found found⟩

/-- The handles on the chains are the live handles of the arena, in another order. -/
theorem perm_live (wellFormed : table.WellFormed) : table.handles.Perm table.items.live := by
  rw [List.perm_ext_iff_of_nodup wellFormed.threads.nodup_handles table.items.nodup_live]
  intro handle
  rw [wellFormed.mem_handles, Arena.mem_live]

/-- The chains hold as many handles as the table has items. -/
theorem length_handles (wellFormed : table.WellFormed) : table.handles.length = table.size := by
  rw [wellFormed.perm_live.length_eq, Arena.length_live, size]

/-! ## Threading anew -/

/-- With a new array of empty buckets all items are off the chains. -/
theorem unthreaded_emptied (wellFormed : table.WellFormed) (buckets : Nat) :
    (table.emptied buckets).Unthreaded (fun _ => []) table.handles :=
  ⟨fun _ member => wellFormed.mem_handles.mp member, fun _ _ _ => by simp,
    wellFormed.threads.nodup_handles⟩

/-- Threading all items into an empty bucket array gives every bucket its items in the reverse of
their former order. -/
theorem threads_rethread (wellFormed : table.WellFormed) {buckets : Nat} (positive : 0 < buckets) :
    (table.rethread buckets table.handles).Threads fun bucket =>
      (table.handles.filter fun handle =>
        (table.key? handle).map (table.rethread buckets table.handles).home = some bucket).reverse := by
  have threaded := (threads_emptied table buckets).foldl_pushHome
    (wellFormed.unthreaded_emptied buckets) (home_lt_of_mask (table.mask_emptied positive))
  have home : (table.rethread buckets table.handles).home = (table.emptied buckets).home :=
    (sameBuckets_foldl_pushHome table.handles (table.emptied buckets)).home
  simp only [List.append_nil] at threaded
  rw [home]
  exact threaded

/-- Threading all items into an array of an admissible count gives a well-formed table. -/
theorem rethread (wellFormed : table.WellFormed) {buckets : Nat}
    (admissible : IsBucketCount buckets) :
    (table.rethread buckets table.handles).WellFormed := by
  have positive := admissible.pos
  refine of_threads ?_ ?_ (wellFormed.threads_rethread positive) ?_
  · rw [bucketCount_rethread, mask_rethread]
    omega
  · rwa [bucketCount_rethread]
  · intro handle key known
    rw [(sameContents_rethread table _ _).key?] at known
    have member : handle ∈ table.handles :=
      wellFormed.threads.mem_handles.mpr ⟨_, wellFormed.placed known⟩
    simp [member, known]

/-- After a rebuild the chain of a bucket holds the items whose keys belong there, in the reverse of
their former order. -/
theorem chain_rethread (wellFormed : table.WellFormed) {buckets : Nat} (positive : 0 < buckets)
    (bucket : Nat) :
    (table.rethread buckets table.handles).chain bucket =
      (table.handles.filter fun handle => (table.key? handle).map
        (table.rethread buckets table.handles).home = some bucket).reverse := by
  rw [(wellFormed.threads_rethread positive).chain_eq]

/-- A rebuild, reserved or refused, leaves the table well formed. -/
theorem rebuild (wellFormed : table.WellFormed) (allows : Allocator) (request : Nat) :
    (table.rebuild allows request).state.WellFormed := by
  by_cases reserved : allows (bucketCountFor request)
  · simpa [Table.rebuild, reserved] using
      wellFormed.rethread (isBucketCount_bucketCountFor request)
  · simpa [Table.rebuild, reserved] using wellFormed

/-- Doubling the buckets keeps a table well formed. -/
theorem doubled (wellFormed : table.WellFormed) : table.doubled.WellFormed :=
  wellFormed.rethread (isBucketCount_bucketCountFor _)

/-- Growing, whether it succeeds or fails, leaves the table well formed. -/
theorem grow (wellFormed : table.WellFormed) (allows : Allocator) :
    (table.grow allows).state.WellFormed :=
  grow_kept allows (fun _ _ between => between.doubled) wellFormed

/-! ## Linking, discarding and changing -/

/-- A linked pair stands in front of the chain of its home bucket, and no other chain changes. -/
theorem threads_link (wellFormed : table.WellFormed) (key : Held K) (yield : Held Y) :
    (table.link key yield).Threads (Function.update table.chain (table.home key.value)
      (table.items.fresh :: table.chain (table.home key.value))) := by
  apply (wellFormed.threads.add ⟨key, yield, none, none, table.home key.value⟩).pushFront
  · simp [Arena.get?_add]
  · intro bucket member
    simpa using wellFormed.threads.found member
  · exact wellFormed.home_lt key.value

/-- Linking a pair keeps a table well formed. -/
theorem link (wellFormed : table.WellFormed) (key : Held K) (yield : Held Y) :
    (table.link key yield).WellFormed := by
  have kept := sameBuckets_link table key yield
  refine of_threads ?_ ?_ (wellFormed.threads_link key yield) ?_
  · rw [kept.bucketCount, kept.mask, wellFormed.mask]
  · rw [kept.bucketCount]
    exact wellFormed.admissible
  · intro handle stored known
    rw [key?_eq_map_held?, held?_link] at known
    rw [kept.home]
    by_cases new : handle = table.items.fresh
    · obtain rfl : key.value = stored := by simpa [new] using known
      simp [new]
    · rw [if_neg new, ← key?_eq_map_held?] at known
      have old := wellFormed.placed known
      by_cases here : table.home stored = table.home key.value
      · rw [here] at old ⊢
        simp [old]
      · simpa [here] using old

/-- Linking puts the fresh handle in front of the chain of the key's bucket. -/
theorem chain_link (wellFormed : table.WellFormed) (key : Held K) (yield : Held Y) (bucket : Nat) :
    (table.link key yield).chain bucket =
      if bucket = table.home key.value then table.items.fresh :: table.chain bucket
      else table.chain bucket := by
  rw [(wellFormed.threads_link key yield).chain_eq]
  by_cases here : bucket = table.home key.value
  · subst here
    simp
  · simp [here]

/-- Discarding some items takes exactly these out of every chain. -/
theorem threads_foldl_discard (wellFormed : table.WellFormed) {order : List Handle}
    (distinct : order.Nodup) (members : ∀ handle ∈ order, handle ∈ table.handles) :
    (order.foldl Table.discard table).Threads fun bucket =>
      (table.chain bucket).filter (· ∉ order) := by
  apply wellFormed.threads.foldl_discard distinct
  intro handle member
  exact wellFormed.threads.mem_handles.mp (members handle member)

/-- Discarding any items that are in the table keeps it well formed. -/
theorem foldl_discard (wellFormed : table.WellFormed) {order : List Handle}
    (distinct : order.Nodup) (members : ∀ handle ∈ order, handle ∈ table.handles) :
    (order.foldl Table.discard table).WellFormed := by
  have kept := sameBuckets_foldl_discard order table
  refine of_threads ?_ ?_ (wellFormed.threads_foldl_discard distinct members) ?_
  · rw [kept.bucketCount, kept.mask, wellFormed.mask]
  · rw [kept.bucketCount]
    exact wellFormed.admissible
  · intro handle key known
    rw [key?_eq_map_held?, held?_foldl_discard] at known
    by_cases gone : handle ∈ order
    · simp [gone] at known
    · rw [if_neg gone, ← key?_eq_map_held?] at known
      simp [kept.home, gone, wellFormed.placed known]

/-- Discarding leaves the other items on their chains in their order. -/
theorem chain_foldl_discard (wellFormed : table.WellFormed) {order : List Handle}
    (distinct : order.Nodup) (members : ∀ handle ∈ order, handle ∈ table.handles) (bucket : Nat) :
    (order.foldl Table.discard table).chain bucket =
      (table.chain bucket).filter (· ∉ order) := by
  rw [(wellFormed.threads_foldl_discard distinct members).chain_eq]

/-- Discarding an item of a chain leaves the parts before and behind it. -/
theorem chain_discard (wellFormed : table.WellFormed) {before behind : List Handle}
    (split : table.chain bucket = before ++ handle :: behind) :
    (table.discard handle).chain bucket = before ++ behind := by
  have distinct := wellFormed.threads.distinct bucket
  have member : handle ∈ table.chain bucket := by simp [split]
  have discarded := (wellFormed.threads.discard member).chain_eq
  rw [split] at distinct
  calc (table.discard handle).chain bucket
      = (table.chain bucket).filter (· ≠ handle) := congrFun discarded bucket
    _ = before ++ behind := by rw [split, filter_ne_split distinct]

/-- Discarding by handle discards one item of the table or none. -/
theorem exists_discard_eq (wellFormed : table.WellFormed) (handle : Handle) :
    ∃ order : List Handle, order.Nodup ∧ (∀ other ∈ order, other ∈ table.handles) ∧
      table.discard handle = order.foldl Table.discard table := by
  cases found : table.items.get? handle with
  | none =>
    refine ⟨[], List.nodup_nil, by simp, ?_⟩
    rw [Table.discard, removeItem, found]
    rfl
  | some item =>
    have member : handle ∈ table.handles := wellFormed.mem_handles.mpr (by rw [found]; rfl)
    exact ⟨[handle], List.nodup_singleton handle, by simpa using member, rfl⟩

/-- Discarding what a handle finds, if it finds anything, keeps a table well formed. -/
theorem discard (wellFormed : table.WellFormed) (handle : Handle) :
    (table.discard handle).WellFormed := by
  obtain ⟨order, distinct, members, discarded⟩ := wellFormed.exists_discard_eq handle
  rw [discarded]
  exact wellFormed.foldl_discard distinct members

/-- Writing a yield keeps a table well formed. -/
theorem updateYield (wellFormed : table.WellFormed) (handle : Handle) (change : Y → Y) :
    (table.updateYield handle change).2.WellFormed := by
  refine of_threads wellFormed.mask wellFormed.admissible
    (wellFormed.threads.updateYield handle change) ?_
  intro other key known
  apply wellFormed.placed
  rw [key?, get?_updateYield] at known
  rw [key?]
  split at known <;> simpa [Function.comp_def] using known

/-- Changing a yield leaves the chains as they are. -/
theorem chain_updateYield (wellFormed : table.WellFormed) (handle : Handle) (change : Y → Y) :
    (table.updateYield handle change).2.chain = table.chain :=
  (wellFormed.threads.updateYield handle change).chain_eq

end WellFormed

/-- A new table with an admissible number of buckets is well formed. -/
theorem wellFormed_ofSize (strategy : Strategy) (options : TableOptions) {buckets : Nat}
    (admissible : IsBucketCount buckets) :
    (ofSize strategy options buckets : Table K Y).WellFormed := by
  have positive := admissible.pos
  have count : (ofSize strategy options buckets : Table K Y).bucketCount = buckets := by
    simp [ofSize, bucketCount]
  refine WellFormed.of_threads ?_ ?_ (threads_ofSize strategy options buckets) ?_
  · rw [count]
    simp only [ofSize]
    omega
  · rwa [count]
  · intro handle key known
    simp [key?, get?, ofSize] at known

end Table

end ChainedMultimap
