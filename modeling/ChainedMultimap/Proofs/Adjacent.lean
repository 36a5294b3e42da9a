import ChainedMultimap.Proofs.Failure
import Mathlib

/-!
# Items of one key next to each other

A walk with a key ends before the first item with another key, so it is complete only if the items with
its key stand next to each other on their chain. Rebuilds keep them so: the new chain is a selection
from the order of all old chains, in which a block of items stays a block when all of them are selected.
Removals leave items out, and a link puts one item in front of a chain. This separates a block only if
the item has the key of the block and another one stands between.
-/

namespace ChainedMultimap.Table

variable {K Y : Type} [Storable K] {table : Table K Y} {key : K}

/-- The items with a key stand next to each other on their chain. -/
def Adjacent (table : Table K Y) (key : K) : Prop :=
  table.keyed key <:+: table.chain (table.home key)

/-! ## Blocks -/

/-- The items with a key have it. -/
theorem hasKey_of_mem_keyed {handle : Handle} (member : handle ∈ table.keyed key) :
    table.hasKey key handle :=
  (List.mem_filter.mp member).2

/-- The block at the first item with a key has no item but those with the key. -/
theorem block_sublist (table : Table K Y) (key : K) :
    (table.block key).Sublist (table.keyed key) := by
  have own : (table.block key).filter (table.hasKey key) = table.block key := by
    rw [List.filter_eq_self]
    exact fun handle member => List.mem_takeWhile_imp member
  rw [← own]
  exact (table.block_infix key).sublist.filter _

/-- Items with a key between others that do not have it are the block of the key. -/
theorem block_of_split {before own behind : List Handle}
    (split : table.chain (table.home key) = before ++ own ++ behind)
    (earlier : ∀ handle ∈ before, table.hasKey key handle = false)
    (within : ∀ handle ∈ own, table.hasKey key handle)
    (later : ∀ handle ∈ behind, table.hasKey key handle = false) : table.block key = own := by
  have reached : table.block key =
      ((own ++ behind).dropWhile (!table.hasKey key ·)).takeWhile (table.hasKey key) := by
    rw [block, split, List.append_assoc, List.dropWhile_append_of_pos]
    simpa using earlier
  rw [reached]
  cases own with
  | nil =>
    have skipped : behind.dropWhile (!table.hasKey key ·) = [] := by
      simpa [List.dropWhile_eq_nil_iff] using later
    rw [List.nil_append, skipped]
    rfl
  | cons handle rest =>
    have ends : behind.takeWhile (table.hasKey key) = [] := by
      rw [List.takeWhile_eq_nil_iff]
      intro inside
      simp [later]
    have start := within handle List.mem_cons_self
    rw [List.cons_append, List.dropWhile_cons_of_neg (by simpa using start), ← List.cons_append,
      List.takeWhile_append_of_pos within, ends, List.append_nil]

/-- The block of a key has all items with the key exactly if they stand next to each other. -/
theorem length_block_eq_iff :
    (table.block key).length = (table.keyed key).length ↔ table.Adjacent key := by
  constructor
  · intro full
    rw [Adjacent, ← (table.block_sublist key).eq_of_length full]
    exact table.block_infix key
  · rintro ⟨before, behind, split⟩
    have within : ∀ handle ∈ table.keyed key, table.hasKey key handle :=
      fun handle => hasKey_of_mem_keyed
    -- The chain has no more items with the key than the part between has.
    have counted : ((before ++ table.keyed key ++ behind).filter (table.hasKey key)).length =
        (table.keyed key).length := by rw [split, keyed]
    rw [List.filter_append, List.filter_append, List.filter_eq_self.mpr within, List.length_append,
      List.length_append] at counted
    have earlier : before.filter (table.hasKey key) = [] := by
      rw [← List.length_eq_zero_iff]
      omega
    have later : behind.filter (table.hasKey key) = [] := by
      rw [← List.length_eq_zero_iff]
      omega
    rw [block_of_split split.symm (by simpa using earlier) within (by simpa using later)]

namespace WellFormed

/-! ## Removals and changes -/

/-- Discarding leaves a block together. -/
theorem adjacent_foldl_discard (wellFormed : table.WellFormed) (adjacent : table.Adjacent key)
    {order : List Handle} (distinct : order.Nodup)
    (members : ∀ handle ∈ order, handle ∈ table.handles) :
    (order.foldl Table.discard table).Adjacent key := by
  rw [Adjacent, wellFormed.keyed_foldl_discard distinct members,
    (sameBuckets_foldl_discard order table).home,
    wellFormed.chain_foldl_discard distinct members]
  exact adjacent.filter _

/-- Discarding an item leaves the items with a key next to each other. -/
theorem adjacent_discard (wellFormed : table.WellFormed) (adjacent : table.Adjacent key)
    (handle : Handle) : (table.discard handle).Adjacent key := by
  obtain ⟨order, distinct, members, discarded⟩ := wellFormed.exists_discard_eq handle
  rw [discarded]
  exact wellFormed.adjacent_foldl_discard adjacent distinct members

/-- Removing items by key and yield leaves the items with a key next to each other. -/
theorem adjacent_remove [Storable Y] (wellFormed : table.WellFormed) (adjacent : table.Adjacent key)
    (wanted : Option K) (yield : Option Y) : (table.remove wanted yield).2.Adjacent key :=
  wellFormed.adjacent_foldl_discard adjacent (wellFormed.nodup_matching wanted yield) fun _ found =>
    wellFormed.mem_handles_of_mem_matching found

/-- Writing a yield leaves the items with a key next to each other. -/
theorem adjacent_updateYield (wellFormed : table.WellFormed) (adjacent : table.Adjacent key)
    (handle : Handle) (change : Y → Y) : (table.updateYield handle change).2.Adjacent key := by
  rw [Adjacent, wellFormed.keyed_updateYield, wellFormed.chain_updateYield,
    (sameBuckets_updateYield table handle change).home]
  exact adjacent

variable [LawfulStorable K]

/-- A walk with a key never visits more items than have the key. -/
theorem walkLength_some_le (wellFormed : table.WellFormed) (key : K) :
    table.walkLength (some key) ≤ table.items.live.countP (table.hasKey key) := by
  rw [walkLength, wellFormed.walk_some, ← wellFormed.length_keyed]
  exact (table.block_sublist key).length_le

/-- A walk with a key visits all items with the key exactly if they stand next to each other. -/
theorem walkLength_some_eq_iff (wellFormed : table.WellFormed) (key : K) :
    table.walkLength (some key) = table.items.live.countP (table.hasKey key) ↔
      table.Adjacent key := by
  rw [walkLength, wellFormed.walk_some, ← wellFormed.length_keyed, length_block_eq_iff]

/-! ## Rebuilds -/

/-- Threading anew turns a block around and keeps it together. -/
theorem adjacent_rethread (wellFormed : table.WellFormed) (adjacent : table.Adjacent key)
    {buckets : Nat} (positive : 0 < buckets) :
    (table.rethread buckets table.handles).Adjacent key := by
  rw [Adjacent, wellFormed.keyed_rethread positive, wellFormed.chain_rethread positive,
    List.reverse_infix]
  let selected (handle : Handle) : Bool :=
    (table.key? handle).map (table.rethread buckets table.handles).home =
      some ((table.rethread buckets table.handles).home key)
  have together : table.keyed key <:+: table.handles :=
    adjacent.trans (chain_infix_handles (wellFormed.home_lt key))
  have whole : (table.keyed key).filter selected = table.keyed key := by
    rw [List.filter_eq_self]
    intro handle member
    obtain ⟨stored, known, same⟩ := hasKey_iff.mp (hasKey_of_mem_keyed member)
    simp [selected, known, home_congr _ same]
  rw [← whole]
  exact together.filter selected

/-- A rebuild turns chains around, which leaves the items with a key next to each other. -/
theorem adjacent_rebuild (wellFormed : table.WellFormed) (adjacent : table.Adjacent key)
    (allows : Allocator) (request : Nat) : (table.rebuild allows request).state.Adjacent key := by
  cases reserved : allows (bucketCountFor request) with
  | false => rwa [rebuild_of_refused reserved]
  | true =>
    rw [rebuild_of_reserved reserved]
    exact wellFormed.adjacent_rethread adjacent (isBucketCount_bucketCountFor request).pos

/-- Growing keeps a block together, whether it succeeds or not. -/
theorem adjacent_grow (wellFormed : table.WellFormed) (adjacent : table.Adjacent key)
    (allows : Allocator) : (table.grow allows).state.Adjacent key := by
  let together (between : Table K Y) : Prop := between.WellFormed ∧ between.Adjacent key
  have kept : ∀ between, between.bucketCount < maxBuckets → together between →
      together between.doubled := by
    rintro between - ⟨admissible, adjacent⟩
    have positive := (isBucketCount_bucketCountFor (2 * between.bucketCount)).pos
    exact ⟨admissible.doubled, admissible.adjacent_rethread adjacent positive⟩
  exact (grow_kept allows kept ⟨wellFormed, adjacent⟩).2

/-! ## Insertions -/

/-- Linking an item with another key keeps a block together. -/
theorem adjacent_link (wellFormed : table.WellFormed) (adjacent : table.Adjacent key)
    {stored : Held K} (yield : Held Y) (foreign : Storable.same key stored.value = false) :
    (table.link stored yield).Adjacent key := by
  rw [Adjacent, wellFormed.keyed_link, if_neg (by simp [foreign]),
    (sameBuckets_link table stored yield).home, wellFormed.chain_link]
  split
  · exact List.infix_cons adjacent
  · exact adjacent

/-- Linking an item with the key of a block leaves one block exactly if the block is in front of its
chain. -/
theorem adjacent_link_iff (wellFormed : table.WellFormed) {stored : Held K} (yield : Held Y)
    (same : Storable.same key stored.value) :
    (table.link stored yield).Adjacent key ↔
      table.keyed key <+: table.chain (table.home key) := by
  have absent : ¬(table.items.fresh :: table.keyed key) <:+: table.chain (table.home key) := by
    intro there
    simpa using wellFormed.threads.found (there.subset List.mem_cons_self)
  rw [Adjacent, wellFormed.keyed_link, if_pos same, (sameBuckets_link table stored yield).home,
    wellFormed.chain_link, if_pos (table.home_congr same), List.infix_cons_iff, or_iff_left absent,
    List.cons_prefix_cons, and_iff_right rfl]

variable [Storable Y]

/-- An insertion keeps a block together, unless it links another item with the key. -/
theorem adjacent_insertHeld (wellFormed : table.WellFormed) (adjacent : table.Adjacent key)
    (allows : Allocator) (stored : Held K) (yield : Held Y) :
    let done := table.insertHeld allows stored yield
    done.state.Adjacent key ∨
      Storable.same key stored.value ∧ ¬table.Stores stored.value yield.value ∧
        ∃ handle, done.answer = .ok handle := by
  have grown := wellFormed.adjacent_grow adjacent allows
  obtain ⟨_, outcome⟩ | ⟨_, failure, _, outcome⟩ | ⟨unfound, _, outcome⟩ :=
    table.insertHeld_cases allows stored yield
  · rw [outcome]
    exact .inl adjacent
  · rw [outcome]
    exact .inl grown
  · rw [outcome]
    cases same : Storable.same key stored.value with
    | false => exact .inl ((wellFormed.grow allows).adjacent_link grown yield same)
    | true =>
      refine .inr ⟨rfl, fun there => ?_, _, rfl⟩
      rw [(wellFormed.contains_iff_stores _ _).mpr there] at unfound
      cases unfound

/-- An insertion of another item with the key leaves one block exactly if the growth before it leaves
the block in front of its chain. -/
theorem adjacent_insertHeld_iff (wellFormed : table.WellFormed) {allows : Allocator} {stored : Held K}
    {yield : Held Y} {handle : Handle} (same : Storable.same key stored.value)
    (inserted : (table.insertHeld allows stored yield).answer = .ok handle) :
    let grown := (table.grow allows).state
    (table.insertHeld allows stored yield).state.Adjacent key ↔
      grown.keyed key <+: grown.chain (grown.home key) := by
  obtain ⟨_, outcome⟩ | ⟨_, failure, _, outcome⟩ | ⟨_, _, outcome⟩ :=
    table.insertHeld_cases allows stored yield
  · rw [outcome] at inserted
    cases inserted
  · rw [outcome] at inserted
    cases inserted
  · rw [outcome]
    exact (wellFormed.grow allows).adjacent_link_iff yield same

/-- Every command keeps a block together, unless it inserts another yield under the key. -/
theorem adjacent_perform (wellFormed : table.WellFormed) (adjacent : table.Adjacent key)
    (allows : Allocator) (command : Command K Y) :
    let done := table.perform allows command
    done.state.Adjacent key ∨
      ∃ stored yield handle, command.pair? = some (stored, yield) ∧ Storable.same key stored ∧
        ¬table.Stores stored yield ∧ done.answer = .inserted (.ok handle) := by
  cases asked : command.pair? with
  | some pair =>
    obtain ⟨stored, yield, keyed, yields, performed⟩ := perform_of_pair? asked table allows
    dsimp only
    rw [performed]
    obtain kept | ⟨same, new, handle, answer⟩ :=
      wellFormed.adjacent_insertHeld adjacent allows stored yield
    · exact .inl kept
    · rw [keyed] at same new
      rw [yields] at new
      exact .inr ⟨pair.1, pair.2, handle, rfl, same, new, congrArg Reply.inserted answer⟩
  | none =>
    refine .inl ?_
    cases command with
    | insert | insertOwned => cases asked
    | remove wanted yield => exact wellFormed.adjacent_remove adjacent wanted yield
    | removeItem handle => exact wellFormed.adjacent_discard adjacent handle
    | reset => exact wellFormed.adjacent_remove adjacent none none
    | rebuild request => exact wellFormed.adjacent_rebuild adjacent allows request
    | updateYield handle change => exact wellFormed.adjacent_updateYield adjacent handle change

/-- A run that inserts nothing under a key keeps its block together. -/
theorem adjacent_run (wellFormed : table.WellFormed) (adjacent : table.Adjacent key)
    {commands : List (Allocator × Command K Y)}
    (foreign : ∀ step ∈ commands, ∀ stored yield, step.2.pair? = some (stored, yield) →
      Storable.same key stored = false) : (table.run commands).state.Adjacent key := by
  induction commands generalizing table with
  | nil => exact adjacent
  | cons step rest ih =>
    obtain ⟨allows, command⟩ := step
    rw [List.forall_mem_cons] at foreign
    refine ih (wellFormed.perform allows command) ?_ foreign.2
    obtain kept | ⟨stored, yield, _, asked, same, _⟩ :=
      wellFormed.adjacent_perform adjacent allows command
    · exact kept
    · rw [foreign.1 stored yield asked] at same
      cases same

end WellFormed

/-- Walks with a key on a table reached by any commands under any allocators.

A walk visits the items with the key that stand together at the first of them, and ends behind them. It
has at most as many items as have the key, none exactly if no item has it, and all exactly if these stand
next to each other. From then on they stay so whatever is done, unless another yield is inserted under
the key. Such an insertion leaves them next to each other exactly if the others stand in front of their
chain when it links the new item. -/
theorem keyedWalks_of_run [Storable Y] [LawfulStorable K] {allows : Allocator} {strategy : Strategy}
    {options : TableOptions} (made : (make allows strategy options).1 = .ok table)
    (commands : List (Allocator × Command K Y)) (key : K) :
    let reached := (table.run commands).state
    let entries := reached.items.live.countP (reached.hasKey key)
    (∀ count, reached.walkUpTo (some key) count none = (reached.block key).take count) ∧
      reached.walkLength (some key) = (reached.block key).length ∧
      reached.walkLength (some key) ≤ entries ∧
      (reached.walkLength (some key) = 0 ↔ ∀ handle, reached.hasKey key handle = false) ∧
      (reached.walkLength (some key) = entries ↔ reached.Adjacent key) ∧
      (reached.Adjacent key →
        (∀ available, (reached.grow available).state.Adjacent key) ∧
        (∀ available command,
          let done := reached.perform available command
          done.state.Adjacent key ∨
            ∃ stored yield handle, command.pair? = some (stored, yield) ∧ Storable.same key stored ∧
              ¬reached.Stores stored yield ∧ done.answer = .inserted (.ok handle)) ∧
        ∀ later : List (Allocator × Command K Y),
          (∀ step ∈ later, ∀ stored yield, step.2.pair? = some (stored, yield) →
            Storable.same key stored = false) →
          (reached.run later).state.Adjacent key) ∧
      ∀ available command stored yield handle, command.pair? = some (stored, yield) →
        Storable.same key stored →
        let grown := (reached.grow available).state
        let done := reached.perform available command
        done.answer = .inserted (.ok handle) →
          (done.state.Adjacent key ↔ grown.keyed key <+: grown.chain (grown.home key)) := by
  intro reached entries
  have wellFormed : reached.WellFormed := (wellFormed_of_make made).run commands
  have visited : reached.walk none (some key) = reached.block key := wellFormed.walk_some key
  refine ⟨wellFormed.walkUpTo_some_none key, congrArg List.length visited,
    wellFormed.walkLength_some_le key, ?_, wellFormed.walkLength_some_eq_iff key, fun adjacent =>
      ⟨wellFormed.adjacent_grow adjacent, wellFormed.adjacent_perform adjacent, fun later =>
        wellFormed.adjacent_run adjacent⟩, ?_⟩
  · rw [walkLength, List.length_eq_zero_iff]
    exact wellFormed.walk_some_eq_nil_iff key
  · intro available command stored yield handle asked same grown done inserted
    obtain ⟨heldKey, heldYield, rfl, rfl, performed⟩ := perform_of_pair? asked reached available
    have outcome : done = _ := performed
    rw [outcome] at inserted ⊢
    exact wellFormed.adjacent_insertHeld_iff same (Reply.inserted.inj inserted)

/-- All keys on one chain: two items of a key that stand behind an item of another key are visited
both, and after a third insertion under their key the new item alone. -/
theorem keyedWalks_of_run_parted :
    let options : TableOptions := ⟨16, .half, true, true⟩
    let plentiful : Allocator := fun _ => true
    let commands : List (Allocator × Command UnsignedInt UnsignedInt) :=
      [(plentiful, .insert ⟨1⟩ ⟨10⟩), (plentiful, .insertOwned ⟨1⟩ ⟨20⟩),
        (plentiful, .insert ⟨2⟩ ⟨30⟩)]
    let start : Table UnsignedInt UnsignedInt := ofSize (fun _ => 7) options 16
    let reached := (start.run commands).state
    let parted := reached.perform plentiful (.insert ⟨1⟩ ⟨40⟩)
    (make plentiful (fun _ => 7) options).1 = .ok start ∧
      reached.chain 7 = [⟨2⟩, ⟨1⟩, ⟨0⟩] ∧ reached.walkLength (some ⟨1⟩) = 2 ∧
      reached.Adjacent ⟨1⟩ ∧
      (∀ request, (reached.perform plentiful (.rebuild request)).state.Adjacent ⟨1⟩) ∧
      parted.answer = .inserted (.ok ⟨3⟩) ∧ ¬parted.state.Adjacent ⟨1⟩ ∧
      parted.state.walkLength (some ⟨1⟩) = 1 := by
  intro options plentiful commands start reached parted
  have made : (make plentiful (fun _ => 7) options).1 = .ok start := by cbv
  have chain : (start.run commands).state.chain 7 = [⟨2⟩, ⟨1⟩, ⟨0⟩] := by cbv
  have visited : (start.run commands).state.walkLength (some ⟨1⟩) = 2 := by cbv
  have entries : (start.run commands).state.items.live.countP
      ((start.run commands).state.hasKey ⟨1⟩) = 2 := by cbv
  have answer : ((start.run commands).state.perform plentiful (.insert ⟨1⟩ ⟨40⟩)).answer =
      .inserted (.ok ⟨3⟩) := by cbv
  have fewer : ((start.run commands).state.perform plentiful
      (.insert ⟨1⟩ ⟨40⟩)).state.walkLength (some ⟨1⟩) = 1 := by cbv
  have calm : (start.run commands).state.isCrowded = false := by cbv
  obtain ⟨-, -, -, -, complete, kept, separated⟩ := keyedWalks_of_run made commands ⟨1⟩
  have adjacent : reached.Adjacent ⟨1⟩ := complete.mp (visited.trans entries.symm)
  refine ⟨made, chain, visited, adjacent, fun request => ?_, answer, ?_, fewer⟩
  · obtain there | ⟨_, _, _, asked, _⟩ := (kept adjacent).2.1 plentiful (.rebuild request)
    · exact there
    · cases asked
  · have home : (start.run commands).state.home ⟨1⟩ = 7 := by cbv
    have keyed : (start.run commands).state.keyed ⟨1⟩ = [⟨1⟩, ⟨0⟩] := by cbv
    rw [separated plentiful _ _ _ _ rfl rfl answer, grow_of_calm (Bool.eq_false_iff.mp calm)]
    dsimp only
    rw [keyed, home, chain]
    decide

end ChainedMultimap.Table
