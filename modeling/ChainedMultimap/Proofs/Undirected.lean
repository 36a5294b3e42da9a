import ChainedMultimap.Proofs.Lawful

/-!
# Connections without direction

The canonical form of a connection puts the lower endpoint first, so it is the same from both sides.
As keys, two connections are the same exactly if one is the other or the other seen from the far side.
-/

namespace ChainedMultimap

/-- Endpoints that are neither lower nor higher than each other are one endpoint. -/
theorem Endpoint.compare_eq_iff {left right : Endpoint} :
    compare left right = .eq ↔ left = right := by
  obtain ⟨leftAddress, leftPort⟩ := left
  obtain ⟨rightAddress, rightPort⟩ := right
  change compareLex _ _ _ _ = _ ↔ _
  simp only [compareLex_eq_eq, compareOn, Std.compare_eq_iff_eq, Endpoint.mk.injEq]

/-- Which of two endpoints is the higher one does not depend on the side they are seen from. -/
theorem Endpoint.compare_swap (left right : Endpoint) :
    compare right left = (compare left right).swap := by
  have oriented : Std.OrientedCmp (compareLex (compareOn address) (compareOn port)) := inferInstance
  exact oriented.eq_swap

namespace Connection

variable {left right : Connection}

/-- Turning a connection around twice gives it back. -/
theorem reversed_reversed (connection : Connection) : connection.reversed.reversed = connection :=
  rfl

/-- A connection and the one seen from the far side have one canonical form. -/
theorem canonical_reversed (connection : Connection) :
    connection.reversed.canonical = connection.canonical := by
  have swapped := Endpoint.compare_swap connection.source connection.destination
  have here : connection.isDescending = (compare connection.source connection.destination).isGT :=
    rfl
  have there : connection.reversed.isDescending =
      (compare connection.source connection.destination).swap.isGT :=
    congrArg Ordering.isGT swapped
  cases order : compare connection.source connection.destination with
  | lt =>
    rw [canonical, canonical, here, there, order]
    exact connection.reversed_reversed
  | gt => simp [canonical, here, there, order]
  | eq =>
    obtain ⟨source, destination, protocol⟩ := connection
    obtain rfl : source = destination := Endpoint.compare_eq_iff.mp order
    rfl

/-- The canonical form is the connection itself or the one seen from the far side. -/
theorem canonical_eq_or (connection : Connection) :
    connection.canonical = connection ∨ connection.canonical = connection.reversed := by
  cases descending : connection.isDescending <;> simp [canonical, descending]

/-- The field by field comparison finds equal only a connection and itself. -/
theorem compareFields_eq_iff_eq : compareFields left right = .eq ↔ left = right := by
  obtain ⟨⟨_, _⟩, ⟨_, _⟩, _⟩ := left
  obtain ⟨⟨_, _⟩, ⟨_, _⟩, _⟩ := right
  simp only [compareFields, compareLex_eq_eq, compareOn, Std.compare_eq_iff_eq,
    Connection.mk.injEq, Endpoint.mk.injEq]
  constructor
  · rintro ⟨sourceAddress, destinationAddress, sourcePort, destinationPort, protocol⟩
    exact ⟨⟨sourceAddress, sourcePort⟩, ⟨destinationAddress, destinationPort⟩, protocol⟩
  · rintro ⟨⟨sourceAddress, sourcePort⟩, ⟨destinationAddress, destinationPort⟩, protocol⟩
    exact ⟨sourceAddress, destinationAddress, sourcePort, destinationPort, protocol⟩

/-- Two connections have one canonical form exactly if they are the same flow, from the same or from
opposite sides. -/
theorem canonical_eq_iff :
    left.canonical = right.canonical ↔ left = right ∨ left = right.reversed := by
  constructor
  · intro same
    rcases left.canonical_eq_or with one | one <;> rcases right.canonical_eq_or with other | other <;>
      rw [one, other] at same
    · exact .inl same
    · exact .inr same
    · exact .inr (congrArg reversed same)
    · exact .inl (congrArg reversed same)
  · rintro (rfl | rfl)
    · rfl
    · exact canonical_reversed right

/-- As keys, connections are the same exactly if their canonical forms are. -/
theorem same_iff_canonical : Storable.same left right ↔ left.canonical = right.canonical := by
  rw [Storable.same_iff_compare]
  exact compareFields_eq_iff_eq

end Connection

end ChainedMultimap
