import ChainedMultimap.Arena
import Mathlib.Data.List.Nodup
import Mathlib.Data.List.Perm.Subperm

/-!
# The size of an arena

The size counts the handles that find a value. Hence a list of distinct handles that all find values
is at most as long as the size, and a list of exactly those handles is as long as the size.
-/

namespace ChainedMultimap.Arena

variable {α : Type}

/-- The handles that find a value, in the order in which they were given out. -/
def live (arena : Arena α) : List Handle :=
  ((List.range arena.slots.size).map Handle.mk).filter fun handle => (arena.get? handle).isSome

/-- A handle is live exactly if it finds a value. -/
theorem mem_live {arena : Arena α} {handle : Handle} :
    handle ∈ arena.live ↔ (arena.get? handle).isSome := by
  obtain ⟨place⟩ := handle
  simp only [live, List.mem_filter, List.mem_map, List.mem_range, Handle.mk.injEq,
    exists_eq_right, and_iff_right_iff_imp]
  intro found
  by_contra outside
  simp [get?, Array.getElem?_eq_none (Nat.le_of_not_lt outside)] at found

/-- No live handle is listed twice. -/
theorem nodup_live (arena : Arena α) : arena.live.Nodup := by
  refine (List.nodup_range.map ?_).filter _
  intro left right same
  exact congrArg Handle.index same

/-- There are as many live handles as the arena has values. -/
theorem length_live (arena : Arena α) : arena.live.length = arena.size := by
  rw [handleStore.size_eq_countP, live, ← List.countP_eq_length_filter, List.countP_map]
  rfl

/-- Distinct handles that all find values are no more than the arena's values. -/
theorem length_le_size {arena : Arena α} {handles : List Handle} (distinct : handles.Nodup)
    (found : ∀ handle ∈ handles, (arena.get? handle).isSome) : handles.length ≤ arena.size := by
  rw [← length_live]
  apply (List.subperm_of_subset distinct _).length_le
  intro handle member
  exact mem_live.mpr (found handle member)

/-- Changing the value under a handle that finds none changes nothing. -/
theorem modify_of_get?_eq_none {arena : Arena α} {handle : Handle}
    (missing : arena.get? handle = none) (change : α → α) :
    arena.modify handle change = arena := by
  obtain ⟨slots, size, size_eq⟩ := arena
  simp only [modify, mk.injEq, and_true]
  apply Array.ext_getElem?
  intro place
  rw [Array.getElem?_modify]
  split
  · next here =>
    subst here
    rw [get?, Option.join_eq_none_iff] at missing
    rcases missing with absent | empty
    · simp [absent]
    · simp [empty]
  · rfl

end ChainedMultimap.Arena
