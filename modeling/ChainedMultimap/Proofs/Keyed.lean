import ChainedMultimap.Proofs.Search
import ChainedMultimap.Proofs.Walk
import Mathlib.Data.List.TakeWhile

/-!
# The items of one key

The items of one key stand on one chain. Their order there does not depend on the hash: linking puts
an item with the key in front, discarding leaves items out, and every rebuild reverses the order.
Searches with a key filter read this order alone. A walk with a key starts at the first of them and
goes on as long as they stand next to each other.
-/

namespace ChainedMultimap.Table

variable {K Y : Type} [Storable K] {table : Table K Y} {handle : Handle}

/-- The items with a key, in the order of their chain. -/
def keyed (table : Table K Y) (key : K) : List Handle :=
  (table.chain (table.home key)).filter (table.hasKey key)

/-- The items with a key that stand together at the first of them. -/
def block (table : Table K Y) (key : K) : List Handle :=
  ((table.chain (table.home key)).dropWhile (!table.hasKey key ·)).takeWhile (table.hasKey key)

/-- An item has a key exactly if the key stored with it is the same. -/
theorem hasKey_iff {key : K} : table.hasKey key handle ↔
    ∃ stored, table.key? handle = some stored ∧ Storable.same key stored := by
  rw [hasKey]
  cases table.key? handle <;> simp

/-- Whether a handle has a key depends on what it holds alone. -/
theorem hasKey_congr {other : Table K Y} (held : other.held? handle = table.held? handle)
    (key : K) : other.hasKey key handle = table.hasKey key handle := by
  rw [hasKey, hasKey, key?_eq_map_held?, key?_eq_map_held?, held]

/-- A walk with a key starts at the first item with the key. -/
theorem first_some (table : Table K Y) (key : K) :
    table.first (some key) = (table.keyed key).head? := by
  rw [first, keyed, List.head?_filter]

/-- A key filter admits the items with the key. -/
theorem admits_some [Storable Y] (table : Table K Y) (key : K) (yield : Option Y) (handle : Handle) :
    table.admits (some key) yield handle =
      (table.admits none yield handle && table.hasKey key handle) := by
  rw [admits_eq_held?, admits_eq_held?, hasKey, key?_eq_map_held?]
  cases table.held? handle <;> simp [Storable.admits, Bool.and_comm]

/-- A search with a key filter reads the items with the key alone. -/
theorem matching_some [Storable Y] (table : Table K Y) (key : K) (yield : Option Y) :
    table.matching (some key) yield = (table.keyed key).filter (table.admits none yield) := by
  rw [matching, scope, List.flatMap_singleton, keyed, List.filter_filter]
  exact List.filter_congr fun handle _ => table.admits_some key yield handle

/-- From an item of a chain a walk with a key goes on through the items with the key that stand right
behind it. -/
theorem WellFormed.walkUpTo_some (wellFormed : table.WellFormed) {bucket : Nat} {key : K}
    {before behind : List Handle} (split : table.chain bucket = before ++ handle :: behind)
    (count : Nat) :
    table.walkUpTo (some key) count (some handle) =
      (behind.takeWhile (table.hasKey key)).take count := by
  induction count generalizing before handle behind with
  | zero => rfl
  | succ count ih =>
    obtain ⟨item, found, _, next, _⟩ := wellFormed.threads.linked bucket before handle behind split
    rw [walkUpTo, Table.next, after, found]
    dsimp only
    rw [next]
    cases behind with
    | nil => rfl
    | cons following rest =>
      have shifted : table.chain bucket = (before ++ [handle]) ++ following :: rest := by
        simpa using split
      cases matching : table.hasKey key following with
      | true => simp [matching, ih shifted]
      | false => simp [matching]

/-- A walk with a key visits the items with the key that stand together at the first of them, and ends
behind them. -/
theorem WellFormed.walkUpTo_some_none (wellFormed : table.WellFormed) (key : K) (count : Nat) :
    table.walkUpTo (some key) count none = (table.block key).take count := by
  cases count with
  | zero => rfl
  | succ count =>
    rw [walkUpTo, next, first, block]
    cases start : (table.chain (table.home key)).find? (table.hasKey key) with
    | none =>
      have foreign : (table.chain (table.home key)).dropWhile (!table.hasKey key ·) = [] := by
        simpa [List.dropWhile_eq_nil_iff] using start
      rw [foreign]
      rfl
    | some handle =>
      obtain ⟨matching, before, behind, split, foreign⟩ := List.find?_eq_some_iff_append.mp start
      have skipped : (table.chain (table.home key)).dropWhile (!table.hasKey key ·) =
          handle :: behind := by
        rw [split, List.dropWhile_append_of_pos foreign, List.dropWhile_cons_of_neg (by simpa)]
      rw [skipped, List.takeWhile_cons_of_pos matching, List.take_succ_cons]
      exact congrArg (handle :: ·) (wellFormed.walkUpTo_some split count)

/-- The block of a key is a part of the chain of its home bucket, in one piece. -/
theorem block_infix (table : Table K Y) (key : K) :
    table.block key <:+: table.chain (table.home key) :=
  (List.takeWhile_prefix _).isInfix.trans (List.dropWhile_suffix _).isInfix

/-- The number of items is enough for a walk with a key. -/
theorem WellFormed.walk_some (wellFormed : table.WellFormed) (key : K) :
    table.walk none (some key) = table.block key := by
  rw [walk, wellFormed.walkUpTo_some_none, List.take_of_length_le]
  exact (table.block_infix key).length_le.trans (wellFormed.threads.length_le_size _)

/-- Discarding leaves items out of those with a key. -/
theorem WellFormed.keyed_foldl_discard (wellFormed : table.WellFormed) {order : List Handle}
    (distinct : order.Nodup) (members : ∀ handle ∈ order, handle ∈ table.handles) (key : K) :
    (order.foldl Table.discard table).keyed key = (table.keyed key).filter (· ∉ order) := by
  rw [keyed, (sameBuckets_foldl_discard order table).home,
    wellFormed.chain_foldl_discard distinct members, keyed, List.filter_filter, List.filter_filter]
  apply List.filter_congr
  intro handle _
  by_cases gone : handle ∈ order
  · simp [gone]
  · have kept : (order.foldl Table.discard table).held? handle = table.held? handle := by
      rw [held?_foldl_discard, if_neg gone]
    simp [gone, hasKey_congr kept]

/-- Changing a yield leaves the items with a key as they are. -/
theorem WellFormed.keyed_updateYield (wellFormed : table.WellFormed) (handle : Handle) (change : Y → Y)
    (key : K) : (table.updateYield handle change).2.keyed key = table.keyed key := by
  rw [keyed, wellFormed.chain_updateYield]
  apply List.filter_congr
  intro other _
  rw [hasKey, hasKey, key?_eq_map_held?, key?_eq_map_held?, held?_updateYield]
  split <;> simp [Function.comp_def]

variable [LawfulStorable K]

namespace WellFormed

/-- A walk with a key visits nothing exactly if no item has the key. -/
theorem walk_some_eq_nil_iff (wellFormed : table.WellFormed) (key : K) :
    table.walk none (some key) = [] ↔ ∀ handle, table.hasKey key handle = false := by
  have reads : ∀ chain : List Handle,
      (chain.dropWhile (!table.hasKey key ·)).takeWhile (table.hasKey key) = [] ↔
        ∀ handle ∈ chain, table.hasKey key handle = false := by
    intro chain
    induction chain with
    | nil => simp
    | cons handle rest ih => cases matching : table.hasKey key handle <;> simp [matching, ih]
  rw [wellFormed.walk_some, block, reads]
  refine ⟨fun foreign handle => ?_, fun foreign handle _ => foreign handle⟩
  cases matching : table.hasKey key handle with
  | false => rfl
  | true =>
    obtain ⟨stored, known, same⟩ := hasKey_iff.mp matching
    have member := wellFormed.placed known
    rw [← table.home_congr same] at member
    exact matching.symm.trans (foreign handle member)

/-- The items with a key keep their order in the order of all chains. -/
theorem filter_hasKey_handles (wellFormed : table.WellFormed) (key : K) :
    table.handles.filter (table.hasKey key) = table.keyed key := by
  rw [keyed, ← wellFormed.filter_home_handles, List.filter_filter]
  apply List.filter_congr
  intro handle _
  cases keyed : table.hasKey key handle with
  | false => rfl
  | true =>
    obtain ⟨stored, known, same⟩ := hasKey_iff.mp keyed
    simp [known, table.home_congr same]

/-- As many items with a key stand on its chain as there are in the table. -/
theorem length_keyed (wellFormed : table.WellFormed) (key : K) :
    (table.keyed key).length = table.items.live.countP (table.hasKey key) := by
  rw [← wellFormed.filter_hasKey_handles, ← List.countP_eq_length_filter,
    wellFormed.perm_live.countP_eq]

/-- A search finds the matches in the order of all chains. -/
theorem matching_eq [Storable Y] (wellFormed : table.WellFormed) (key : Option K)
    (yield : Option Y) :
    table.matching key yield = table.handles.filter (table.admits key yield) := by
  cases key with
  | none => exact table.matching_none yield
  | some wanted =>
    rw [matching_some, ← wellFormed.filter_hasKey_handles, List.filter_filter]
    exact List.filter_congr fun handle _ => (table.admits_some wanted yield handle).symm

/-- A rebuild reverses the order of the items with a key. -/
theorem keyed_rethread (wellFormed : table.WellFormed) {buckets : Nat} (positive : 0 < buckets)
    (key : K) : (table.rethread buckets table.handles).keyed key = (table.keyed key).reverse := by
  have kept := sameContents_rethread table buckets table.handles
  rw [keyed, wellFormed.chain_rethread positive, List.filter_reverse, List.filter_filter,
    ← wellFormed.filter_hasKey_handles]
  congr 1
  apply List.filter_congr
  intro handle _
  rw [hasKey_congr (congrFun kept.held? handle)]
  cases keyed : table.hasKey key handle with
  | false => rfl
  | true =>
    obtain ⟨stored, known, same⟩ := hasKey_iff.mp keyed
    simp [known, home_congr _ same]

/-- Linking puts the fresh handle in front of the items with its key. -/
theorem keyed_link (wellFormed : table.WellFormed) (stored : Held K) (yield : Held Y) (key : K) :
    (table.link stored yield).keyed key =
      if Storable.same key stored.value then table.items.fresh :: table.keyed key
      else table.keyed key := by
  have fresh : (table.link stored yield).hasKey key table.items.fresh =
      Storable.same key stored.value := by
    simp [hasKey, key?_eq_map_held?, held?_link]
  have old : (table.chain (table.home key)).filter ((table.link stored yield).hasKey key) =
      table.keyed key := by
    apply List.filter_congr
    intro handle member
    apply hasKey_congr
    rw [held?_link, if_neg]
    rintro rfl
    simpa using wellFormed.threads.found member
  rw [keyed, (sameBuckets_link table stored yield).home, wellFormed.chain_link]
  split
  · next here =>
    rw [List.filter_cons, fresh, old]
  · next elsewhere =>
    rw [old, if_neg]
    intro same
    exact elsewhere (table.home_congr same)

end WellFormed

end ChainedMultimap.Table
