import ChainedMultimap.Proofs.Checked
import ChainedMultimap.Proofs.Failure
import Mathlib

/-!
# Removal as filtering

A removal leaves items out of all chains and lets the others stand as they are: in their order, in
their buckets, and with what is held under their handles. Removing by handle leaves out one item,
removing by filter all that match. The matches can as well be removed one at a time, each found by a
search of its own: a search answers the first match, and without it the next search answers the
second.
-/

namespace ChainedMultimap.Table

variable {K Y : Type} {table : Table K Y} {handle : Handle}

/-- One table is another without the items that a test picks out. -/
structure Without (before after : Table K Y) (gone : Handle → Bool) : Prop
    extends SameBuckets before after where
  /-- The handles of these items hold nothing any more, every other one what it held. -/
  held? : ∀ handle, after.held? handle = if gone handle then none else before.held? handle
  /-- Every chain has its other items in their former order. -/
  chain : ∀ bucket, after.chain bucket = (before.chain bucket).filter (!gone ·)
  /-- Every other item is in its former bucket. -/
  bucket? : ∀ handle, after.bucket? handle = if gone handle then none else before.bucket? handle
  /-- No handle has been given out. -/
  fresh : after.items.fresh = before.items.fresh
  /-- There are fewer items by the number of those picked out. -/
  size : after.size + before.items.live.countP gone = before.size

/-- Which items are gone may be tested in any way that says the same. -/
theorem Without.congr {before after : Table K Y} {gone lost : Handle → Bool}
    (without : Without before after gone) (same : ∀ handle, gone handle = lost handle) :
    Without before after lost := by
  obtain rfl : gone = lost := funext same
  exact without

variable [Storable K]

namespace WellFormed

/-- Discarding items leaves the others in the order of all chains. -/
theorem handles_foldl_discard (wellFormed : table.WellFormed) {order : List Handle}
    (distinct : order.Nodup) (members : ∀ handle ∈ order, handle ∈ table.handles) :
    (order.foldl Table.discard table).handles = table.handles.filter (· ∉ order) := by
  rw [handles, (sameBuckets_foldl_discard order table).bucketCount, handles, List.filter_flatMap]
  congr 1
  funext bucket
  exact wellFormed.chain_foldl_discard distinct members bucket

/-- Discarding several items leaves the table without them. -/
theorem without_foldl_discard (wellFormed : table.WellFormed) {order : List Handle}
    (distinct : order.Nodup) (members : ∀ handle ∈ order, handle ∈ table.handles) :
    Without table (order.foldl Table.discard table) (· ∈ order) := by
  have left := wellFormed.foldl_discard distinct members
  have kept := sameBuckets_foldl_discard order table
  have held := held?_foldl_discard order table
  refine ⟨kept, fun handle => ?_, fun bucket => ?_, fun handle => ?_, fresh_foldl_discard order table,
    ?_⟩
  · rw [held]
    simp only [decide_eq_true_eq]
  · rw [wellFormed.chain_foldl_discard distinct members]
    simp only [decide_not]
  · rw [left.bucket?_eq, wellFormed.bucket?_eq, kept.home, key?_eq_map_held?, key?_eq_map_held?, held]
    by_cases gone : handle ∈ order <;> simp [gone]
  · have others := List.length_eq_countP_add_countP (· ∈ order) (l := table.handles)
    rw [← left.length_handles, wellFormed.handles_foldl_discard distinct members,
      ← List.countP_eq_length_filter, ← wellFormed.length_handles, others,
      ← wellFormed.perm_live.countP_eq]
    simp only [decide_not, decide_eq_true_eq]
    omega

/-- Removing by handle leaves the table without the one item. -/
theorem without_removeItem (wellFormed : table.WellFormed) {pair : Held K × Held Y}
    (stored : table.held? handle = some pair) :
    table.removeItem handle = (some pair, table.discard handle) ∧
      Without table (table.discard handle) (· = handle) := by
  have present : (table.items.get? handle).isSome := by rw [← isSome_held?, stored, Option.isSome_some]
  have member : ∀ other ∈ [handle], other ∈ table.handles := by
    simpa using wellFormed.mem_handles.mpr present
  have single := wellFormed.without_foldl_discard (List.nodup_singleton handle) member
  refine ⟨?_, single.congr fun other => by simp only [List.mem_singleton]⟩
  rw [← stored, ← removeItem_answer]
  rfl

variable [Storable Y]

/-- Discarding items leaves the others to be found by the same searches. -/
theorem matching_foldl_discard (wellFormed : table.WellFormed) {order : List Handle}
    (distinct : order.Nodup) (members : ∀ handle ∈ order, handle ∈ table.handles) (key : Option K)
    (yield : Option Y) : (order.foldl Table.discard table).matching key yield =
      (table.matching key yield).filter (· ∉ order) := by
  have kept := sameBuckets_foldl_discard order table
  have scope : (order.foldl Table.discard table).scope key = table.scope key := by
    cases key with
    | none => rw [Table.scope, kept.bucketCount, Table.scope]
    | some wanted => rw [Table.scope, kept.home, Table.scope]
  rw [matching, scope, matching, List.filter_flatMap]
  congr 1
  funext bucket
  rw [wellFormed.chain_foldl_discard distinct members, List.filter_filter, List.filter_filter]
  apply List.filter_congr
  intro handle _
  by_cases gone : handle ∈ order
  · simp [gone]
  · simp [gone, admits_foldl_discard gone]

/-- Without the first match a search finds the others. -/
theorem matching_discard (wellFormed : table.WellFormed) {key : Option K} {yield : Option Y}
    {rest : List Handle} (found : table.matching key yield = handle :: rest) :
    (table.discard handle).matching key yield = rest := by
  have distinct := wellFormed.nodup_matching key yield
  have member : ∀ other ∈ [handle], other ∈ table.handles := by
    have first : handle ∈ table.matching key yield := by simp [found]
    simpa using wellFormed.mem_handles_of_mem_matching first
  rw [found, List.nodup_cons] at distinct
  have others : (handle :: rest).filter (· ∉ [handle]) = rest := by
    simpa [List.filter_cons] using filter_ne_eq_self distinct.1
  rw [← others, ← found]
  exact wellFormed.matching_foldl_discard (List.nodup_singleton handle) member key yield

end WellFormed

variable [Storable Y]

/-- Removes the matches one at a time, each answered by a search of its own, until a search answers
none, which must come to pass within `count` removals. Answers what the removals hand back. -/
def removeEach? (key : Option K) (yield : Option Y) (count : Nat) (table : Table K Y) :
    Option (List (Held K × Held Y) × Table K Y) :=
  match table.lookup key yield with
  | none => some ([], table)
  | some handle =>
    match count with
    | 0 => none
    | count + 1 => do
      let (handedBack, left) := table.removeItem handle
      let pair ← handedBack
      let (others, left) ← removeEach? key yield count left
      return (pair :: others, left)

/-- Removing the matches one at a time hands back what is held under them, in the order in which one
search finds them, and leaves what discarding them leaves. -/
theorem WellFormed.removeEach?_eq (wellFormed : table.WellFormed) {key : Option K} {yield : Option Y}
    {order : List Handle} (found : table.matching key yield = order) {count : Nat}
    (enough : order.length ≤ count) :
    removeEach? key yield count table =
      some (order.filterMap table.held?, order.foldl Table.discard table) := by
  have first : table.lookup key yield = order.head? := by rw [lookup_eq_head?, found]
  induction order generalizing table count with
  | nil =>
    rw [removeEach?.eq_def, first]
    rfl
  | cons handle rest ih =>
    obtain ⟨fewer, rfl⟩ : ∃ fewer, count = fewer + 1 := Nat.exists_eq_add_one.mpr (by
      rw [List.length_cons] at enough
      omega)
    have member : handle ∈ table.matching key yield := by simp [found]
    have present := wellFormed.mem_handles.mp (wellFormed.mem_handles_of_mem_matching member)
    rw [← isSome_held?] at present
    obtain ⟨pair, held⟩ := Option.isSome_iff_exists.mp present
    have removed := (wellFormed.without_removeItem held).1
    have remaining := wellFormed.matching_discard found
    have later := ih (wellFormed.discard handle) remaining (Nat.le_of_succ_le_succ enough)
      (by rw [lookup_eq_head?, remaining])
    have unchanged : rest.filterMap (table.discard handle).held? = rest.filterMap table.held? := by
      have distinct := wellFormed.nodup_matching key yield
      rw [found, List.nodup_cons] at distinct
      apply List.filterMap_congr
      intro other behind
      rw [held?_discard, if_neg]
      rintro rfl
      exact distinct.1 behind
    rw [removeEach?.eq_def, first, List.head?_cons]
    simp only [removed, later, unchanged, Option.bind_eq_bind, Option.bind_some,
      List.filterMap_cons_some held, List.foldl_cons, Option.pure_def]

variable [LawfulStorable K]

/-- Removing by filter leaves the table without all items that match. -/
theorem WellFormed.without_remove (wellFormed : table.WellFormed) (key : Option K)
    (yield : Option Y) : Without table (table.remove key yield).2 (table.admits key yield) := by
  have members : ∀ handle ∈ table.matching key yield, handle ∈ table.handles := by
    intro handle found
    exact wellFormed.mem_handles_of_mem_matching found
  have without := wellFormed.without_foldl_discard (wellFormed.nodup_matching key yield) members
  refine without.congr fun handle => ?_
  rw [Bool.eq_iff_iff, decide_eq_true_iff]
  exact wellFormed.mem_matching_iff

/-- Removals from a table reached by any commands under any allocators.

A removal by filter answers how many items of the table match and leaves the table without them:
every chain has its other items in their former order, in their buckets and with what their handles
hold. This is what unlinking the matches comes to while their chain is walked, and also what
removing them one at a time comes to, each answered by a search of its own until a search answers
none; these removals hand back what the matches hold, in the order of all chains. A removal by
handle leaves out the one item and hands back its key and yield as they are held. -/
theorem removals_of_run {allows : Allocator} {strategy : Strategy} {options : TableOptions}
    (made : (make allows strategy options).1 = .ok table)
    (commands : List (Allocator × Command K Y)) (key : Option K) (yield : Option Y) :
    let reached := (table.run commands).state
    let admitted := reached.admits key yield
    let done := reached.remove key yield
    let handedBack := (reached.handles.filter admitted).filterMap reached.held?
    done.1 = reached.items.live.countP admitted ∧
      Without reached done.2 admitted ∧
      reached.remove? key yield = some done ∧
      handedBack.length = done.1 ∧
      (∀ count, done.1 ≤ count →
        removeEach? key yield count reached = some (handedBack, done.2)) ∧
      ∀ handle pair, reached.held? handle = some pair →
        (reached.removeItem handle).1 = some pair ∧
          Without reached (reached.removeItem handle).2 (· = handle) := by
  intro reached admitted done handedBack
  have wellFormed : reached.WellFormed := (wellFormed_of_make made).run commands
  have found : reached.matching key yield = reached.handles.filter admitted :=
    wellFormed.matching_eq key yield
  have number : done.1 = (reached.handles.filter admitted).length := congrArg List.length found
  have state : done.2 = (reached.handles.filter admitted).foldl Table.discard reached :=
    congrArg (List.foldl Table.discard reached) found
  refine ⟨wellFormed.length_matching key yield, wellFormed.without_remove key yield,
    wellFormed.remove?_eq key yield, ?_, fun count enough => ?_, fun handle pair stored => ?_⟩
  · rw [number, List.filterMap_length_eq_length]
    intro handle member
    rw [isSome_held?]
    exact wellFormed.mem_handles.mp (List.mem_of_mem_filter member)
  · rw [wellFormed.removeEach?_eq found (number ▸ enough), state]
  · obtain ⟨removed, without⟩ := wellFormed.without_removeItem stored
    rw [removed]
    exact ⟨rfl, without⟩

/-- All keys on one chain: the removal of a key takes out the first item and two that stand together
at the end. -/
theorem removals_of_run_scattered :
    let options : TableOptions := ⟨16, .half, false, true⟩
    let plentiful : Allocator := fun _ => true
    let commands : List (Allocator × Command UnsignedInt UnsignedInt) :=
      [(plentiful, .insert ⟨1⟩ ⟨10⟩), (plentiful, .insertOwned ⟨1⟩ ⟨20⟩),
        (plentiful, .insert ⟨2⟩ ⟨10⟩), (plentiful, .insert ⟨1⟩ ⟨30⟩)]
    let start : Table UnsignedInt UnsignedInt := ofSize (fun _ => 7) options 16
    let reached := (start.run commands).state
    let done := reached.remove (some ⟨1⟩) none
    let one := reached.removeItem ⟨2⟩
    (make plentiful (fun _ => 7) options).1 = .ok start ∧
      reached.chain 7 = [⟨3⟩, ⟨2⟩, ⟨1⟩, ⟨0⟩] ∧
      done.1 = 3 ∧ done.2.chain 7 = [⟨2⟩] ∧ done.2.bucketCount = reached.bucketCount ∧
      removeEach? (some ⟨1⟩) none 3 reached =
        some ([(.borrowed ⟨1⟩, .owned ⟨30⟩), (.owned ⟨1⟩, .owned ⟨20⟩), (.borrowed ⟨1⟩, .owned ⟨10⟩)],
          done.2) ∧
      reached.held? ⟨2⟩ = some (.borrowed ⟨2⟩, .owned ⟨10⟩) ∧
      one.1 = some (.borrowed ⟨2⟩, .owned ⟨10⟩) ∧ one.2.chain 7 = [⟨3⟩, ⟨1⟩, ⟨0⟩] := by
  intro options plentiful commands start reached done one
  have made : (make plentiful (fun _ => 7) options).1 = .ok start := by cbv
  have chain : (start.run commands).state.chain 7 = [⟨3⟩, ⟨2⟩, ⟨1⟩, ⟨0⟩] := by cbv
  have number : ((start.run commands).state.remove (some ⟨1⟩) none).1 = 3 := by cbv
  have left : ((start.run commands).state.chain 7).filter
      (!(start.run commands).state.admits (some ⟨1⟩) none ·) = [⟨2⟩] := by cbv
  have pairs : ((start.run commands).state.handles.filter
      ((start.run commands).state.admits (some ⟨1⟩) none)).filterMap
        (start.run commands).state.held? =
      [(.borrowed ⟨1⟩, .owned ⟨30⟩), (.owned ⟨1⟩, .owned ⟨20⟩), (.borrowed ⟨1⟩, .owned ⟨10⟩)] := by cbv
  have held : (start.run commands).state.held? ⟨2⟩ = some (.borrowed ⟨2⟩, .owned ⟨10⟩) := by cbv
  obtain ⟨-, without, -, -, each, single⟩ := removals_of_run made commands (some ⟨1⟩) none
  obtain ⟨handedBack, others⟩ := single ⟨2⟩ _ held
  refine ⟨made, chain, number, ?_, without.bucketCount, ?_, held, handedBack, ?_⟩
  · rw [without.chain, left]
  · rw [each 3 (Nat.le_of_eq number), pairs]
  · rw [others.chain, chain]
    rfl

end ChainedMultimap.Table
