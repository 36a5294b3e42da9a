import ChainedMultimap.Proofs.Keyed
import ChainedMultimap.Proofs.Runs
import Mathlib

/-!
# Walks and searches in the order of all chains

All items of a well-formed table stand in one order: bucket after bucket, and from first to last in
every chain. A cursor answers them in this order and nothing from then on, a walk can be taken up at any
of them, and a search finds the first of them that passes its filters, although with a key filter it
reads a single chain.
-/

namespace ChainedMultimap.Table

variable {K Y : Type} [Storable K] {table : Table K Y}

/-! ## Cursors -/

namespace Cursor

/-- A walk that has ended answers nothing from then on. -/
theorem advances_of_ended {cursor : Cursor} (ended : cursor.ended) (table : Table K Y) (count : Nat) :
    (advances table count cursor).1 = List.replicate count none := by
  induction count with
  | zero => rfl
  | succ count ih =>
    rw [advances, advance_of_ended ended, List.replicate_succ, ← ih]

/-- A cursor reads the items of a walk without a key. -/
theorem itemsUpTo_eq_walkUpTo (table : Table K Y) (count : Nat) (current : Option Handle) :
    itemsUpTo table count ⟨current, false⟩ = table.walkUpTo none count current := by
  induction count generalizing current with
  | zero => rfl
  | succ count ih =>
    rw [itemsUpTo, advance, if_neg Bool.false_ne_true, walkUpTo]
    dsimp only
    cases table.next current none with
    | none => rfl
    | some handle => exact congrArg (handle :: ·) (ih (some handle))

end Cursor

namespace WellFormed

/-- A cursor that has visited some handles answers the others in order, and nothing from then on. -/
theorem advances_eq (wellFormed : table.WellFormed) {before behind : List Handle}
    (split : table.handles = before ++ behind) (count : Nat) :
    (Cursor.advances table count ⟨before.getLast?, false⟩).1 =
      (List.range count).map (behind[·]?) := by
  induction count generalizing before behind with
  | zero => rfl
  | succ count ih =>
    have step := wellFormed.next_none split
    rw [List.range_succ_eq_map, List.map_cons, List.map_map]
    cases behind with
    | nil =>
      have ended : (⟨before.getLast?, false⟩ : Cursor).advance table =
          (none, ⟨before.getLast?, true⟩) := by
        rw [Cursor.advance, if_neg Bool.false_ne_true, step]
        rfl
      have nothing : (List.range count).map (fun _ => (none : Option Handle)) =
          List.replicate count none := by rw [List.map_const', List.length_range]
      rw [Cursor.advances, ended]
      dsimp only
      rw [Cursor.advances_of_ended rfl, ← nothing]
      rfl
    | cons handle rest =>
      have moved : (⟨before.getLast?, false⟩ : Cursor).advance table =
          (some handle, ⟨some handle, false⟩) := by
        rw [Cursor.advance, if_neg Bool.false_ne_true, step]
        rfl
      have shifted : table.handles = (before ++ [handle]) ++ rest := by simpa using split
      have later := ih shifted
      rw [List.getLast?_concat] at later
      rw [Cursor.advances, moved]
      dsimp only
      rw [later]
      rfl

/-- The entries that a cursor reads are the pairs under all handles in order. -/
theorem toList_eq (wellFormed : table.WellFormed) :
    table.toList = table.handles.filterMap fun handle =>
      (table.get? handle).map fun pair => (handle, pair) := by
  have visited : table.walkUpTo none table.size none = table.handles := wellFormed.walk_none
  rw [toList, Cursor.start, Cursor.itemsUpTo_eq_walkUpTo, visited]

/-- Every handle has its entry. -/
theorem map_fst_toList (wellFormed : table.WellFormed) :
    table.toList.map Prod.fst = table.handles := by
  have named : ∀ handle ∈ table.handles,
      ((table.get? handle).map fun pair => (handle, pair)).map Prod.fst = some handle := by
    intro handle member
    obtain ⟨item, found⟩ := Option.isSome_iff_exists.mp (wellFormed.mem_handles.mp member)
    rw [get?, found]
    rfl
  rw [wellFormed.toList_eq, List.map_filterMap, List.filterMap_congr named, List.filterMap_some]

/-- From the handle at a place of the order a walk goes on to the one at the next place. -/
theorem after_getElem? (wellFormed : table.WellFormed) {place : Nat} {handle : Handle}
    (here : table.handles[place]? = some handle) :
    table.after handle none = table.handles[place + 1]? := by
  obtain ⟨inside, rfl⟩ := List.getElem?_eq_some_iff.mp here
  have split : table.handles =
      table.handles.take place ++ table.handles[place] :: table.handles.drop (place + 1) := by
    rw [← List.drop_eq_getElem_cons inside, List.take_append_drop]
  rw [wellFormed.after_none split, List.head?_drop]

/-- The lengths of all chains add up to the size. -/
theorem sum_chainLength (wellFormed : table.WellFormed) :
    ((List.range table.bucketCount).map table.chainLength).sum = table.size := by
  rw [← wellFormed.length_handles, handles, List.length_flatMap]
  congr 1
  apply List.map_congr_left
  intro bucket member
  rw [chainLength, if_pos (List.mem_range.mp member)]

/-! ## Searches -/

variable [LawfulStorable K] [Storable Y]

/-- A search answers the first match in the order of all chains. -/
theorem lookup_eq (wellFormed : table.WellFormed) (key : Option K) (yield : Option Y) :
    table.lookup key yield = table.handles.find? (table.admits key yield) := by
  rw [lookup_eq_head?, wellFormed.matching_eq, List.head?_filter]

/-- Without filters a search answers the first of all items. -/
theorem lookup_none (wellFormed : table.WellFormed) :
    table.lookup none none = table.handles.head? := by
  have all : table.handles.filter (table.admits none none) = table.handles := by
    rw [List.filter_eq_self]
    intro handle member
    obtain ⟨item, found⟩ := Option.isSome_iff_exists.mp (wellFormed.mem_handles.mp member)
    rw [admits, found]
    rfl
  rw [lookup_eq_head?, wellFormed.matching_eq, all]

end WellFormed

variable [LawfulStorable K] [Storable Y]

/-- Walks and searches on a table reached by any commands under any allocators, told by the order of its
chains, bucket after bucket and from first to last.

This order has every item once. A cursor answers it item by item and nothing from then on, and reads
every handle with the pair under it. A walk starts at the first item, goes from any item to the one
behind it, and ends at the last. It has as many items as the table, which are as many as are on all
chains. A search answers the first item of the order that passes its filters. -/
theorem iteration_of_run {allows : Allocator} {strategy : Strategy} {options : TableOptions}
    (made : (make allows strategy options).1 = .ok table)
    (commands : List (Allocator × Command K Y)) :
    let reached := (table.run commands).state
    let order := (List.range reached.bucketCount).flatMap reached.chain
    order.Nodup ∧
      (∀ handle, handle ∈ order ↔ (reached.get? handle).isSome) ∧
      (∀ count, (Cursor.advances reached count .start).1 = (List.range count).map (order[·]?)) ∧
      reached.toList.map Prod.fst = order ∧
      (∀ entry ∈ reached.toList, reached.get? entry.1 = some entry.2) ∧
      reached.next none none = order.head? ∧
      reached.lookup none none = order.head? ∧
      (∀ place handle, order[place]? = some handle →
        reached.next (some handle) none = order[place + 1]?) ∧
      (∀ count, reached.walkUpTo none count none = order.take count) ∧
      reached.walkLength none = reached.size ∧
      ((List.range reached.bucketCount).map reached.chainLength).sum = reached.size ∧
      ∀ key yield, reached.lookup key yield = order.find? (reached.admits key yield) := by
  intro reached order
  have wellFormed : reached.WellFormed := (wellFormed_of_make made).run commands
  have whole : reached.handles = [] ++ order := rfl
  refine ⟨wellFormed.threads.nodup_handles, fun handle => ?_, wellFormed.advances_eq whole,
    wellFormed.map_fst_toList, fun entry member => ?_, wellFormed.next_none whole,
    wellFormed.lookup_none, fun place handle => wellFormed.after_getElem?,
    wellFormed.walkUpTo_none whole, wellFormed.walkLength_none, wellFormed.sum_chainLength,
    wellFormed.lookup_eq⟩
  · rw [get?, Option.isSome_map]
    exact wellFormed.mem_handles
  · rw [wellFormed.toList_eq, List.mem_filterMap] at member
    obtain ⟨handle, _, named⟩ := member
    obtain ⟨pair, found, rfl⟩ := Option.map_eq_some_iff.mp named
    exact found

/-- Four items on three chains, the last bucket among them: a cursor goes over the empty buckets between
them and answers nothing twice after the last item. -/
theorem iteration_of_run_sparse :
    let sum : Strategy := fun bytes => bytes.foldl (fun total byte => total + byte.toUInt32) 0
    let plentiful : Allocator := fun _ => true
    let commands : List (Allocator × Command UnsignedInt UnsignedInt) :=
      [(plentiful, .insert ⟨0⟩ ⟨10⟩), (plentiful, .insert ⟨15⟩ ⟨20⟩),
        (plentiful, .insertOwned ⟨3⟩ ⟨30⟩), (plentiful, .insertOwned ⟨19⟩ ⟨20⟩)]
    let start : Table UnsignedInt UnsignedInt := ofSize sum .standard 16
    let reached := (start.run commands).state
    (make plentiful sum .standard).1 = .ok start ∧
      (List.range reached.bucketCount).flatMap reached.chain = [⟨0⟩, ⟨3⟩, ⟨2⟩, ⟨1⟩] ∧
      (Cursor.advances reached 6 .start).1 =
        [some ⟨0⟩, some ⟨3⟩, some ⟨2⟩, some ⟨1⟩, none, none] ∧
      reached.next (some ⟨2⟩) none = some ⟨1⟩ ∧
      reached.next (some ⟨1⟩) none = none ∧
      reached.lookup none (some ⟨20⟩) = some ⟨3⟩ := by
  intro sum plentiful commands start reached
  have made : (make plentiful sum .standard).1 = .ok start := by cbv
  have order : (List.range (start.run commands).state.bucketCount).flatMap
      (start.run commands).state.chain = [⟨0⟩, ⟨3⟩, ⟨2⟩, ⟨1⟩] := by cbv
  have found : (start.run commands).state.lookup none (some ⟨20⟩) = some ⟨3⟩ := by cbv
  have holds := iteration_of_run made commands
  dsimp only at holds
  rw [order] at holds
  obtain ⟨-, -, answers, -, -, -, -, onwards, -⟩ := holds
  exact ⟨made, order, answers 6, onwards 2 ⟨2⟩ rfl, onwards 3 ⟨1⟩ rfl, found⟩

end ChainedMultimap.Table
