/-!
# Held values

A table holds a value either as its own copy or as a reference to a value that the caller keeps. Both
read the same; a write through a reference first makes a copy.
-/

namespace ChainedMultimap

/-- A value together with the way it is held. -/
inductive Held (α : Type) where
  /-- The table's own copy. -/
  | owned (value : α)
  /-- A reference to the caller's value. -/
  | borrowed (value : α)

namespace Held

variable {α : Type}

/-- The value, however it is held. -/
def value : Held α → α
  | owned value | borrowed value => value

/-- Whether the table has its own copy. -/
def isOwned : Held α → Bool
  | owned _ => true
  | borrowed _ => false

/-- Holds a copy or a reference. -/
def of (copy : Bool) (value : α) : Held α := if copy then owned value else borrowed value

/-- Changes the value; what is held afterwards is a copy. -/
def update (held : Held α) (change : α → α) : Held α := owned (change held.value)

/-- A value reads the same however it is held. -/
@[simp] theorem value_of (copy : Bool) (value : α) : (of copy value).value = value := by
  cases copy <;> rfl

/-- A value is the table's own exactly if it was copied. -/
@[simp] theorem isOwned_of (copy : Bool) (value : α) : (of copy value).isOwned = copy := by
  cases copy <;> rfl

/-- A write changes the value that is read. -/
@[simp] theorem value_update (held : Held α) (change : α → α) :
    (held.update change).value = change held.value := by rw [update, value]

/-- A write leaves the table with a copy of its own. -/
@[simp] theorem isOwned_update (held : Held α) (change : α → α) :
    (held.update change).isOwned = true := rfl

end Held

end ChainedMultimap
