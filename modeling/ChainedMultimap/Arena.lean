/-!
# Arenas

An arena keeps values under handles. A handle is the number of the insertion that made it; a value
that is erased leaves its place empty, so no handle is ever given out twice. All that is taken of an
arena as a store of values is the contract `HandleStore`, which an arena meets; the laws that follow it
are read off the contract.
-/

namespace ChainedMultimap

/-- The name of a value in an arena. -/
structure Handle where
  /-- How many values were added to the arena before this one. -/
  index : Nat
  deriving DecidableEq

/-- The contract of a store of values under handles, given by what it finds under a handle, the handle
that the next value gets, the number of its values, and the ways to change it. A value is found under
the handle it was added under, and nowhere else, until it is erased; and a handle that has been given
out is never given out again. -/
structure HandleStore {α Store : Type} (get? : Store → Handle → Option α)
    (fresh : Store → Handle) (size : Store → Nat) (add : Store → α → Store)
    (modify : Store → Handle → (α → α) → Store) (erase : Store → Handle → Store) : Prop where
  /-- A handle that has not been given out finds nothing. -/
  get?_of_fresh_le : ∀ store handle, (fresh store).index ≤ handle.index → get? store handle = none
  /-- An added value is found under the fresh handle, and nothing else changes. -/
  get?_add : ∀ store value handle, get? (add store value) handle =
    if handle = fresh store then some value else get? store handle
  /-- A change is seen under its handle alone. -/
  get?_modify : ∀ store handle other change, get? (modify store handle change) other =
    if handle = other then (get? store other).map change else get? store other
  /-- An erased handle finds nothing, and nothing else changes. -/
  get?_erase : ∀ store handle other, get? (erase store handle) other =
    if handle = other then none else get? store other
  /-- Adding a value gives out the fresh handle, and the next one is fresh. -/
  fresh_add : ∀ store value, fresh (add store value) = ⟨(fresh store).index + 1⟩
  /-- A change gives out no handle and takes none back. -/
  fresh_modify : ∀ store handle change, fresh (modify store handle change) = fresh store
  /-- Neither does an erasure. -/
  fresh_erase : ∀ store handle, fresh (erase store handle) = fresh store
  /-- There are as many values as handles, among those given out, that find one. -/
  size_eq_countP : ∀ store, size store =
    (List.range (fresh store).index).countP fun place => (get? store ⟨place⟩).isSome

/-- Values under handles. -/
structure Arena (α : Type) where
  /-- The place of every handle given out; empty once the value is erased. -/
  slots : Array (Option α)
  /-- The number of values. -/
  size : Nat
  /-- The number of values is the number of places that are not empty. -/
  size_eq : size = slots.countP Option.isSome

namespace Arena

variable {α : Type}

/-- An arena that never held a value. -/
def empty : Arena α := ⟨#[], 0, rfl⟩

/-- The value under a handle, unless it was erased or never added. -/
def get? (arena : Arena α) (handle : Handle) : Option α := (arena.slots[handle.index]?).join

/-- The handle that the next added value gets. -/
def fresh (arena : Arena α) : Handle := ⟨arena.slots.size⟩

/-- Adds a value under the fresh handle. -/
def add (arena : Arena α) (value : α) : Arena α where
  slots := arena.slots.push (some value)
  size := arena.size + 1
  size_eq := by simp [arena.size_eq]

/-- Changing the values in place changes no place from empty to taken or back. -/
theorem countP_modify (slots : Array (Option α)) (place : Nat) (change : α → α) :
    (slots.modify place (Option.map change)).countP Option.isSome =
      slots.countP Option.isSome := by
  rw [← Array.countP_toList, ← Array.countP_toList, Array.toList_modify]
  generalize slots.toList = places
  induction places generalizing place with
  | nil => simp
  | cons head tail ih =>
    cases place with
    | zero => simp [List.countP_cons]
    | succ place => simp [List.countP_cons, ih]

/-- Changes the value under a handle, if there is one. -/
def modify (arena : Arena α) (handle : Handle) (change : α → α) : Arena α where
  slots := arena.slots.modify handle.index (Option.map change)
  size := arena.size
  size_eq := by rw [countP_modify, arena.size_eq]

/-- Emptying a taken place lowers the number of taken places by one. -/
theorem countP_vacate (slots : Array (Option α)) (place : Nat)
    (present : (slots[place]?).join.isSome) :
    (slots.setIfInBounds place none).countP Option.isSome = slots.countP Option.isSome - 1 := by
  have inside : place < slots.size := by
    false_or_by_contra
    rename_i outside
    simp [Array.getElem?_eq_none (Nat.le_of_not_lt outside)] at present
  rw [Array.getElem?_eq_getElem inside, Option.join_some] at present
  rw [Array.setIfInBounds, dif_pos inside, Array.countP_set]
  simp [present]

/-- Erases the value under a handle, if there is one. -/
def erase (arena : Arena α) (handle : Handle) : Arena α :=
  if present : (arena.get? handle).isSome then
    { slots := arena.slots.setIfInBounds handle.index none
      size := arena.size - 1
      size_eq := by rw [countP_vacate _ _ present, arena.size_eq] }
  else arena

/-- An arena meets the contract. -/
theorem handleStore : HandleStore (@get? α) fresh size add modify erase where
  get?_of_fresh_le arena handle unissued := by
    have outside : arena.slots[handle.index]? = none := Array.getElem?_eq_none unissued
    rw [get?, outside]
    rfl
  get?_add arena value handle := by
    obtain ⟨place⟩ := handle
    simp only [get?, add, fresh, Handle.mk.injEq, Array.getElem?_push]
    split <;> rfl
  get?_modify arena handle other change := by
    obtain ⟨place⟩ := handle
    obtain ⟨elsewhere⟩ := other
    simp only [get?, modify, Array.getElem?_modify, Handle.mk.injEq]
    split
    · cases arena.slots[elsewhere]? <;> simp
    · rfl
  get?_erase arena handle other := by
    unfold erase
    split
    · obtain ⟨place⟩ := handle
      obtain ⟨elsewhere⟩ := other
      simp only [get?, Array.getElem?_setIfInBounds, Handle.mk.injEq]
      split
      · split <;> rfl
      · rfl
    · next absent =>
      split
      · next same =>
        subst same
        simpa using absent
      · rfl
  fresh_add arena value := by rw [fresh, add, Array.size_push, fresh]
  fresh_modify arena handle change := by rw [fresh, modify, Array.size_modify, fresh]
  fresh_erase arena handle := by
    unfold erase
    split <;> simp [fresh]
  size_eq_countP arena := by
    have places : arena.slots.toList =
        (List.range arena.slots.size).map fun place => (arena.slots[place]?).join := by
      apply List.ext_getElem
      · simp
      · intro place inside _
        have bound : place < arena.slots.size := by simpa using inside
        simp [bound]
    rw [arena.size_eq, ← Array.countP_toList, places, List.countP_map]
    rfl

/-! ## The laws of the contract -/

/-- A handle that was not given out finds nothing. -/
theorem get?_of_fresh_le {arena : Arena α} {handle : Handle}
    (unissued : arena.fresh.index ≤ handle.index) : arena.get? handle = none :=
  handleStore.get?_of_fresh_le arena handle unissued

/-- The fresh handle finds nothing yet. -/
@[simp] theorem get?_fresh (arena : Arena α) : arena.get? arena.fresh = none :=
  get?_of_fresh_le (Nat.le_refl _)

/-- An added value is found under the fresh handle, and nothing else changes. -/
theorem get?_add (arena : Arena α) (value : α) (handle : Handle) :
    (arena.add value).get? handle =
      if handle = arena.fresh then some value else arena.get? handle :=
  handleStore.get?_add arena value handle

/-- A change is seen under its handle alone. -/
theorem get?_modify (arena : Arena α) (handle other : Handle) (change : α → α) :
    (arena.modify handle change).get? other =
      if handle = other then (arena.get? other).map change else arena.get? other :=
  handleStore.get?_modify arena handle other change

/-- An erased handle finds nothing, and nothing else changes. -/
theorem get?_erase (arena : Arena α) (handle other : Handle) :
    (arena.erase handle).get? other = if handle = other then none else arena.get? other :=
  handleStore.get?_erase arena handle other

/-- Adding a value gives out the fresh handle, and the next one is fresh. -/
@[simp] theorem fresh_add (arena : Arena α) (value : α) :
    (arena.add value).fresh = ⟨arena.fresh.index + 1⟩ :=
  handleStore.fresh_add arena value

/-- A change gives out no handle and takes none back. -/
@[simp] theorem fresh_modify (arena : Arena α) (handle : Handle) (change : α → α) :
    (arena.modify handle change).fresh = arena.fresh :=
  handleStore.fresh_modify arena handle change

/-- An erasure gives out no handle and takes none back. -/
@[simp] theorem fresh_erase (arena : Arena α) (handle : Handle) :
    (arena.erase handle).fresh = arena.fresh :=
  handleStore.fresh_erase arena handle

/-- A change adds no value and erases none. -/
@[simp] theorem size_modify (arena : Arena α) (handle : Handle) (change : α → α) :
    (arena.modify handle change).size = arena.size := by rw [modify]

/-- A new arena finds nothing. -/
@[simp] theorem get?_empty (handle : Handle) : (empty : Arena α).get? handle = none :=
  get?_of_fresh_le (Nat.zero_le _)

end Arena

end ChainedMultimap
