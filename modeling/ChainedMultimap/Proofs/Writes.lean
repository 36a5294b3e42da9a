import ChainedMultimap.Proofs.Removal
import Mathlib

/-!
# Writing through handles

A write through a handle changes the yield there, which the table then holds as its own, and nothing
else. As uniqueness is not checked, it can leave a pair in the table more than once. Nothing depends on
that: whatever is run afterwards, an insertion is refused exactly if its pair is stored, once or
several times, a search finds an item exactly if one matches, and a removal removes all copies of a
pair and answers how many there were.
-/

namespace ChainedMultimap.Table

variable {K Y : Type} {table : Table K Y} {handle : Handle}

/-! ## What a write leaves alone -/

/-- One table is another with the yield under one handle changed. -/
structure Rewritten (before after : Table K Y) (handle : Handle) (change : Y → Y) : Prop
    extends SameBuckets before after where
  /-- The item under the handle owns the changed yield; its key and its links are kept, as is every
  other item. -/
  items : ∀ other, after.items.get? other = (before.items.get? other).map fun item =>
    if handle = other then { item with yield := .owned (change item.yield.value) } else item
  /-- What is held under every other handle is held there still. -/
  held? : ∀ other, handle ≠ other → after.held? other = before.held? other
  /-- All keys are kept. -/
  key? : after.key? = before.key?
  /-- All chains start where they did. -/
  head? : after.head? = before.head?
  /-- All chains are kept. -/
  chain : after.chain = before.chain
  /-- All items are in their former buckets. -/
  bucket? : after.bucket? = before.bucket?
  /-- The handles are the same, in the same order. -/
  handles : after.handles = before.handles
  /-- No handle has been given out. -/
  fresh : after.items.fresh = before.items.fresh
  /-- There are as many items. -/
  size : after.size = before.size

/-- A change of a yield is seen in its item alone. -/
theorem items_updateYield (table : Table K Y) (handle other : Handle) (change : Y → Y) :
    (table.updateYield handle change).2.items.get? other =
      (table.items.get? other).map fun item =>
        if handle = other then { item with yield := .owned (change item.yield.value) } else item := by
  simp only [updateYield, Arena.get?_modify]
  split
  · rfl
  · exact Option.map_id'.symm

/-- Writing a yield changes the yield under its handle and nothing else. -/
theorem WellFormed.rewritten [Storable K] (wellFormed : table.WellFormed) (handle : Handle)
    (change : Y → Y) : Rewritten table (table.updateYield handle change).2 handle change := by
  have chain := wellFormed.chain_updateYield handle change
  have items := table.items_updateYield handle
  refine
    { toSameBuckets := sameBuckets_updateYield table handle change
      items := fun other => items other change
      held? := fun other away => ?_
      key? := funext fun other => ?_
      head? := rfl
      chain := chain
      bucket? := funext fun other => ?_
      handles := ?_
      fresh := Arena.fresh_modify _ _ _
      size := rfl }
  · rw [held?_updateYield, if_neg away]
  · rw [key?, get?_updateYield, key?]
    split
    · rw [Option.map_map]
      rfl
    · rfl
  · rw [bucket?, items, Option.map_map, bucket?]
    congr 1
    funext item
    simp only [Function.comp_apply]
    split <;> rfl
  · rw [handles, chain, (sameBuckets_updateYield table handle change).bucketCount, handles]

/-! ## Copies of a pair -/

variable [Storable K] [Storable Y]

/-- The handles of the items whose key and yield both equal the given ones. -/
def copies (table : Table K Y) (key : K) (yield : Y) : List Handle :=
  table.items.live.filter (table.admits (some key) (some yield))

/-- The copies of a pair are the handles that pass it as a filter. -/
theorem mem_copies {key : K} {yield : Y} :
    handle ∈ table.copies key yield ↔ table.admits (some key) (some yield) handle := by
  rw [copies, List.mem_filter, and_iff_right_iff_imp]
  intro admitted
  obtain ⟨pair, held, _⟩ := admits_iff.mp admitted
  rw [Arena.mem_live, ← isSome_held?, held, Option.isSome_some]

/-- A pair has copies exactly if it is stored. -/
theorem copies_ne_nil_iff {key : K} {yield : Y} :
    table.copies key yield ≠ [] ↔ table.Stores key yield := by
  rw [stores_iff_admits, ← List.length_pos_iff, List.length_pos_iff_exists_mem]
  exact exists_congr fun _ => mem_copies

/-- What operations answer about a pair is what its copies say, be there one, several or none. -/
structure CountsCopies (table : Table K Y) (key : K) (yield : Y) : Prop where
  /-- No copy is counted twice. -/
  nodup_copies : (table.copies key yield).Nodup
  /-- While there are copies, the insertion of the pair is refused and changes nothing. -/
  refused : table.copies key yield ≠ [] → ∀ allows command, command.pair? = some (key, yield) →
    table.perform allows command = ⟨.inserted (.error .duplicateEntry), table, []⟩
  /-- Otherwise it is not refused for being stored. -/
  accepted : table.copies key yield = [] → ∀ allows command, command.pair? = some (key, yield) →
    (table.perform allows command).answer ≠ .inserted (.error .duplicateEntry)
  /-- A search finds an item exactly if there are copies. -/
  isSome_lookup : (table.lookup (some key) (some yield)).isSome ↔ table.copies key yield ≠ []
  /-- What it finds is a copy. -/
  mem_of_lookup : ∀ handle, table.lookup (some key) (some yield) = some handle →
    handle ∈ table.copies key yield
  /-- A removal answers the number of copies. -/
  count : (table.remove (some key) (some yield)).1 = (table.copies key yield).length
  /-- It leaves the table without them. -/
  without : Without table (table.remove (some key) (some yield)).2 (· ∈ table.copies key yield)
  /-- Then there is none. -/
  gone : (table.remove (some key) (some yield)).2.copies key yield = []

variable [LawfulStorable K]

/-- A removal leaves no copy of its pair. -/
theorem WellFormed.copies_remove (wellFormed : table.WellFormed) (key : K) (yield : Y) :
    (table.remove (some key) (some yield)).2.copies key yield = [] := by
  have without := wellFormed.without_remove (some key) (some yield)
  rw [List.eq_nil_iff_forall_not_mem]
  intro handle copy
  obtain ⟨pair, held, keyAdmitted, yieldAdmitted⟩ := admits_iff.mp (mem_copies.mp copy)
  rw [without.held?] at held
  split at held
  · cases held
  · next stays => exact stays (admits_iff.mpr ⟨pair, held, keyAdmitted, yieldAdmitted⟩)

/-- In a well-formed table every answer about a pair is what its copies say. -/
theorem WellFormed.countsCopies (wellFormed : table.WellFormed) (key : K) (yield : Y) :
    table.CountsCopies key yield where
  nodup_copies := table.items.nodup_live.filter _
  refused copies allows command asked := by
    obtain ⟨heldKey, heldYield, rfl, rfl, performed⟩ := perform_of_pair? asked table allows
    rw [performed, wellFormed.insertHeld_of_stores (copies_ne_nil_iff.mp copies)]
  accepted none allows command asked := by
    obtain ⟨heldKey, heldYield, rfl, rfl, performed⟩ := perform_of_pair? asked table allows
    have new : ¬table.Stores heldKey.value heldYield.value := fun stored =>
      copies_ne_nil_iff.mpr stored none
    rw [performed]
    obtain ⟨⟨handle, answer⟩, _⟩ | ⟨⟨requested, answer⟩, _⟩ :=
      wellFormed.insertHeld_of_new allows new <;> rw [answer] <;> nofun
  isSome_lookup := by rw [wellFormed.isSome_lookup, copies_ne_nil_iff, stores_iff_admits]
  mem_of_lookup _ found := mem_copies.mpr (admits_of_lookup found)
  count := by
    rw [copies, ← List.countP_eq_length_filter]
    exact wellFormed.length_matching _ _
  without := by
    refine (wellFormed.without_remove (some key) (some yield)).congr fun handle => ?_
    rw [Bool.eq_iff_iff, decide_eq_true_iff, mem_copies]
  gone := wellFormed.copies_remove key yield

/-- A write through a handle of a table that was reached by any commands under any allocators.

It is local: the item under the handle owns the changed yield from then on, and every key, every other
item, all links, chains and bucket indices, all handles and the numbers of items and buckets are as
before. And it does no harm, even if the pair is then in the table more than once: whatever is run
afterwards, searches, walks and removals are right, and insertions, searches and removals of any pair
go by the copies of it that are stored. -/
theorem writes_of_run {allows : Allocator} {strategy : Strategy} {options : TableOptions}
    (made : (make allows strategy options).1 = .ok table)
    (commands : List (Allocator × Command K Y)) {key : Held K} {yield : Held Y}
    (stored : (table.run commands).state.held? handle = some (key, yield)) (change : Y → Y) :
    let reached := (table.run commands).state
    let written := reached.updateYield handle change
    written.1 = true ∧
      written.2.held? handle = some (key, .owned (change yield.value)) ∧
      Rewritten reached written.2 handle change ∧
      ∀ later, let final := (written.2.run later).state
        final.Truthful ∧ ∀ wanted value, final.CountsCopies wanted value := by
  intro reached written
  have wellFormed : reached.WellFormed := (wellFormed_of_make made).run commands
  refine ⟨?_, ?_, wellFormed.rewritten handle change, fun later => ?_⟩
  · have present : (reached.items.get? handle).isSome := by
      rw [← isSome_held?, stored, Option.isSome_some]
    exact present
  · have changed := reached.held?_updateYield handle handle change
    rw [if_pos rfl, stored] at changed
    exact changed
  · -- Being well formed says nothing about pairs being distinct, so it survives the write.
    have final := (wellFormed.updateYield handle change).run later
    exact ⟨final.truthful, final.countsCopies⟩

/-- Two items with references to one yield: the first is written and then has the pair of the third. The
second still has its reference, the pair cannot be inserted after a rebuild, and its removal removes two
items. -/
theorem writes_of_run_duplicate :
    let options : TableOptions := ⟨16, .half, true, false⟩
    let plentiful : Allocator := fun _ => true
    let commands : List (Allocator × Command UnsignedInt UnsignedInt) :=
      [(plentiful, .insert ⟨1⟩ ⟨10⟩), (plentiful, .insert ⟨2⟩ ⟨10⟩), (plentiful, .insert ⟨1⟩ ⟨20⟩)]
    let start : Table UnsignedInt UnsignedInt := ofSize (fun _ => 7) options 16
    let reached := (start.run commands).state
    let written := (reached.updateYield ⟨0⟩ fun _ => ⟨20⟩).2
    let final := (written.run [(plentiful, .rebuild 20)]).state
    (make plentiful (fun _ => 7) options).1 = .ok start ∧
      reached.held? ⟨0⟩ = some (.owned ⟨1⟩, .borrowed ⟨10⟩) ∧
      written.held? ⟨0⟩ = some (.owned ⟨1⟩, .owned ⟨20⟩) ∧
      written.held? ⟨1⟩ = some (.owned ⟨2⟩, .borrowed ⟨10⟩) ∧
      final.copies ⟨1⟩ ⟨20⟩ = [⟨0⟩, ⟨2⟩] ∧
      final.perform plentiful (.insert ⟨1⟩ ⟨20⟩) =
        ⟨.inserted (.error .duplicateEntry), final, []⟩ ∧
      (final.remove (some ⟨1⟩) (some ⟨20⟩)).1 = 2 := by
  intro options plentiful commands start reached written final
  have made : (make plentiful (fun _ => 7) options).1 = .ok start := by cbv
  have first : (start.run commands).state.held? ⟨0⟩ = some (.owned ⟨1⟩, .borrowed ⟨10⟩) := by cbv
  have second : (start.run commands).state.held? ⟨1⟩ = some (.owned ⟨2⟩, .borrowed ⟨10⟩) := by cbv
  have copies : ((((start.run commands).state.updateYield ⟨0⟩ fun _ => ⟨20⟩).2.run
      [(plentiful, .rebuild 20)]).state.copies ⟨1⟩ ⟨20⟩) = [⟨0⟩, ⟨2⟩] := by cbv
  obtain ⟨-, owned, rewritten, later⟩ := writes_of_run made commands first fun _ => ⟨20⟩
  have counts := (later [(plentiful, .rebuild 20)]).2 ⟨1⟩ ⟨20⟩
  have stored : final.copies ⟨1⟩ ⟨20⟩ ≠ [] := by
    rw [show final.copies ⟨1⟩ ⟨20⟩ = [⟨0⟩, ⟨2⟩] from copies]
    exact List.cons_ne_nil _ _
  refine ⟨made, first, owned, (rewritten.held? ⟨1⟩ (by decide)).trans second, copies,
    counts.refused stored plentiful _ rfl, ?_⟩
  rw [counts.count, copies]
  rfl

end ChainedMultimap.Table
