import ChainedMultimap.Proofs.Checked
import Mathlib

/-!
# The invariant of all runs

Whatever commands are run on a table that could be made, and whatever arrays can be reserved on the
way, the table reached is well formed: its chains partition the stored items, backward links undo
forward links, and every item is on the chain of its key's bucket. So no access to an item or a bucket
ever fails, and no loop over a chain runs forever.
-/

namespace ChainedMultimap.Table

variable {K Y : Type} [Storable K] {table : Table K Y} {handle : Handle}

namespace WellFormed

/-- One item's forward link leads to another exactly if the other's backward link leads to it. -/
theorem next_iff_prev (wellFormed : table.WellFormed) {first second : Handle} {one other : Item K Y}
    (here : table.items.get? first = some one) (there : table.items.get? second = some other) :
    one.next = some second ↔ other.prev = some first := by
  constructor
  · intro forward
    obtain ⟨before, behind, split, _, next⟩ := wellFormed.exists_split here
    rw [next] at forward
    obtain ⟨rest, rfl⟩ := List.head?_eq_some_iff.mp forward
    obtain ⟨same, found, prev, _, _⟩ := wellFormed.threads.linked one.bucket (before ++ [first])
      second rest (by simp [split])
    obtain rfl : other = same := by simpa [there] using found
    simp [prev]
  · intro backward
    obtain ⟨before, behind, split, prev, _⟩ := wellFormed.exists_split there
    rw [prev] at backward
    obtain ⟨rest, rfl⟩ := List.getLast?_eq_some_iff.mp backward
    obtain ⟨same, found, _, next, _⟩ := wellFormed.threads.linked other.bucket rest
      first (second :: behind) (by simp [split])
    obtain rfl : one = same := by simpa [here] using found
    simp [next]

/-- The first item of a bucket exists and has no item before it. -/
theorem prev_of_head? (wellFormed : table.WellFormed) {bucket : Nat}
    (first : table.head? bucket = some handle) :
    ∃ item, table.items.get? handle = some item ∧ item.prev = none := by
  rw [wellFormed.threads.starts] at first
  obtain ⟨rest, split⟩ := List.head?_eq_some_iff.mp first
  obtain ⟨item, found, prev, _, _⟩ := wellFormed.threads.linked bucket [] handle rest split
  exact ⟨item, found, prev⟩

end WellFormed

variable [Storable Y]

/-- No operation on chains meets an item or a bucket that does not exist, and all its loops end. -/
structure Unfailing (table : Table K Y) : Prop where
  /-- The bucket of a key is a bucket of the bucket array. -/
  home : ∀ key, table.home key < table.bucketCount
  /-- Reading a chain. -/
  chain : ∀ bucket < table.bucketCount, table.chain? bucket = some (table.chain bucket)
  /-- Linking a new item. -/
  link : ∀ key yield, table.link? key yield = some (table.link key yield)
  /-- Unlinking a stored item. -/
  unlink : ∀ handle item, table.items.get? handle = some item →
    table.unlink? item = some (table.unlink item)
  /-- Rebuilding, which moves the items while it walks the old chains. -/
  rethread : ∀ request, table.rethread? (bucketCountFor request) =
    some (table.rethread (bucketCountFor request) table.handles)
  /-- Removing, which unlinks items while it walks their chain. -/
  remove : ∀ key yield, table.remove? key yield = some (table.remove key yield)
  /-- Going on to the next item of a walk, from any handle. -/
  next : ∀ current key, table.next? current key = some (table.next current key)
  /-- Moving a cursor, from any position. -/
  advance : ∀ cursor : Cursor, cursor.advance? table = some (cursor.advance table)

/-- In a well-formed table every access that an operation makes is inside. -/
theorem WellFormed.unfailing (wellFormed : table.WellFormed) : table.Unfailing where
  home := wellFormed.home_lt
  chain _ inside := wellFormed.threads.chain?_eq inside
  link := wellFormed.link?_eq
  unlink handle item found := by
    exact wellFormed.threads.unlink?_eq found (wellFormed.mem_chain_of_found found)
  rethread request := wellFormed.rethread?_eq (isBucketCount_bucketCountFor request).pos
  remove := wellFormed.remove?_eq
  next := wellFormed.next?_eq
  advance := wellFormed.advance?_eq

/-- Whatever is run on a table that could be made leaves a well-formed table: every stored item is on
exactly one chain, once, links lead back and forth, and no operation fails to reach what it looks for,
also while the table grows. -/
theorem wellFormed_of_run {allows : Allocator} {strategy : Strategy} {options : TableOptions}
    (made : (make allows strategy options).1 = .ok table)
    (commands : List (Allocator × Command K Y)) :
    let reached := (table.run commands).state
    reached.WellFormed ∧
      reached.handles.Nodup ∧
      (∀ handle, handle ∈ reached.handles ↔ (reached.items.get? handle).isSome) ∧
      (∀ {first second one other}, reached.items.get? first = some one →
        reached.items.get? second = some other →
          (one.next = some second ↔ other.prev = some first)) ∧
      (∀ {bucket head}, reached.head? bucket = some head →
        ∃ item, reached.items.get? head = some item ∧ item.prev = none) ∧
      (∀ {bucket handle}, handle ∈ reached.chain bucket →
        ∃ item, reached.items.get? handle = some item ∧ item.bucket = bucket ∧
          bucket = (strategy (Storable.marshal item.key.value)).toNat &&& reached.mask) ∧
      reached.Unfailing ∧
      ∀ allows, (reached.grow allows).state.Unfailing := by
  intro reached
  have wellFormed : reached.WellFormed := (wellFormed_of_make made).run commands
  have strategies : reached.strategy = strategy := by
    rw [(sameChoices_run commands table).strategy, eq_ofSize_of_make made]
    rfl
  refine ⟨wellFormed, wellFormed.threads.nodup_handles, fun _ => wellFormed.mem_handles,
    wellFormed.next_iff_prev, wellFormed.prev_of_head?, ?_, wellFormed.unfailing,
    fun allows => (wellFormed.grow allows).unfailing⟩
  intro bucket handle member
  obtain ⟨item, found, home⟩ := (wellFormed.threads.linked bucket).exists_item member
  refine ⟨item, found, home, ?_⟩
  rw [← home, wellFormed.bucket_eq found, Table.home, strategies]

/-- Three items collide under a constant hash, a rebuild fails and another succeeds, and the middle
item is removed. -/
theorem wellFormed_of_run_constant :
    let commands : List (Allocator × Command UnsignedInt UnsignedInt) :=
      [(fun _ => true, .insertOwned ⟨1⟩ ⟨10⟩), (fun _ => true, .insert ⟨2⟩ ⟨20⟩),
        (fun _ => true, .insertOwned ⟨1⟩ ⟨30⟩), (fun _ => false, .rebuild 64),
        (fun _ => true, .rebuild 40), (fun _ => false, .removeItem ⟨1⟩)]
    let start : Table UnsignedInt UnsignedInt := ofSize (fun _ => 7) .standard 16
    (make (fun _ => true) (fun _ => 7) .standard).1 = .ok start ∧
      (start.run commands).state.chain 7 = [⟨0⟩, ⟨2⟩] ∧
      (start.run commands).state.WellFormed ∧
      (start.run commands).state.Unfailing := by
  intro commands start
  have made : (make (fun _ => true) (fun _ => 7) .standard).1 = .ok start := rfl
  have holds := wellFormed_of_run made commands
  exact ⟨made, by cbv, holds.1, holds.2.2.2.2.2.2.1⟩

end ChainedMultimap.Table
