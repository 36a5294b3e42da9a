import ChainedMultimap.Proofs.Undirected
import Mathlib.Data.UInt
import Mathlib.Tactic.TFAE

/-!
# The order of connections and of their bytes

Words are written with their highest byte first, fields in the order in which they are compared, and
the two ports as one word with the source port in its high half. The order of two connections is
therefore the lexicographic order of the bytes that they are written in. All that identifies a
connection, its order, its bytes and what a hasher is fed, goes through the canonical form, so all
of it forgets the direction and nothing else.
-/

namespace ChainedMultimap

/-! ## Lexicographic comparison -/

/-- Numbers of two digits compare by the high digit, then by the low one. -/
theorem compare_mul_add {base high high' low low' : Nat} (small : low < base)
    (small' : low' < base) : compare (high * base + low) (high' * base + low') =
      (compare high high').then (compare low low') := by
  cases order : compare high high' with
  | lt =>
    have below : high + 1 ≤ high' := Nat.compare_eq_lt.mp order
    have scaled := Nat.mul_le_mul_right base below
    rw [Nat.add_mul] at scaled
    exact Nat.compare_eq_lt.mpr (by omega)
  | eq =>
    obtain rfl : high = high' := Nat.compare_eq_eq.mp order
    rw [Ordering.eq_then]
    cases rest : compare low low' with
    | lt => exact Nat.compare_eq_lt.mpr (Nat.add_lt_add_left (Nat.compare_eq_lt.mp rest) _)
    | eq => rw [Nat.compare_eq_eq.mp rest, Nat.compare_eq_eq]
    | gt => exact Nat.compare_eq_gt.mpr (Nat.add_lt_add_left (Nat.compare_eq_gt.mp rest) _)
  | gt =>
    have above : high' + 1 ≤ high := Nat.compare_eq_gt.mp order
    have scaled := Nat.mul_le_mul_right base above
    rw [Nat.add_mul] at scaled
    exact Nat.compare_eq_gt.mpr (by omega)

/-- Sequences with front parts of one length compare by these, then by the rest. -/
theorem compare_append {α : Type} [Ord α] {front front' rest rest' : List α}
    (length : front.length = front'.length) :
    compare (front ++ rest) (front' ++ rest') =
      (compare front front').then (compare rest rest') := by
  induction front generalizing front' with
  | nil =>
    obtain rfl : front' = [] := List.length_eq_zero_iff.mp length.symm
    rw [List.nil_append, List.nil_append, List.compare_nil_nil, Ordering.eq_then]
  | cons first front ih =>
    cases front' with
    | nil => cases length
    | cons first' front' =>
      have shorter : front.length = front'.length := Nat.succ.inj length
      rw [List.cons_append, List.cons_append, List.compare_cons_cons, List.compare_cons_cons,
        ih shorter, Ordering.then_assoc]

namespace Bytes

/-- Bytes written highest first compare as the words do. -/
theorem compare_ofWord32High (left right : UInt32) :
    compare (ofWord32High left) (ofWord32High right) = compare left right := by
  have digits : ∀ word : UInt32, word.toNat =
      ((word.toNat / 2 ^ 24 % 256 * 256 + word.toNat / 2 ^ 16 % 256) * 256 +
        word.toNat / 2 ^ 8 % 256) * 256 + word.toNat % 256 := by
    intro word
    have small := word.toNat_lt
    omega
  have small : ∀ number, number % 256 < 256 := fun number => Nat.mod_lt number (by decide)
  rw [UInt32.compare_eq_toNat_compare_toNat left right, digits left, digits right,
    compare_mul_add (small _) (small _), compare_mul_add (small _) (small _),
    compare_mul_add (small _) (small _)]
  simp only [ofWord32High, List.compare_cons_cons, List.compare_nil_nil, Ordering.then_eq,
    Ordering.then_assoc, UInt8.compare_eq_toNat_compare_toNat, UInt32.toNat_toUInt8,
    UInt32.toNat_shiftRight, Nat.shiftRight_eq_div_pow, UInt32.reduceToNat, Nat.reduceMod,
    Nat.reducePow]

/-- Different words of 16 bits have different bytes. -/
theorem ofWord16_inj {left right : UInt16} : ofWord16 left = ofWord16 right ↔ left = right := by
  refine ⟨fun equal => ?_, congrArg ofWord16⟩
  simp only [ofWord16, List.cons.injEq, and_true, ← UInt8.toNat_inj, UInt16.toNat_toUInt8,
    UInt16.toNat_shiftRight, Nat.shiftRight_eq_div_pow, UInt16.reduceToNat, Nat.reduceMod,
    Nat.reducePow] at equal
  have small := left.toNat_lt
  have small' := right.toNat_lt
  apply UInt16.toNat_inj.mp
  omega

end Bytes

/-- An endpoint is not above another if its address is lower, or the same and its port is not
higher. -/
theorem Endpoint.isLE_compare_iff {left right : Endpoint} : (compare left right).isLE ↔
    left.address < right.address ∨ left.address = right.address ∧ left.port ≤ right.port := by
  change ((compare left.address right.address).then (compare left.port right.port)).isLE ↔ _
  rw [Ordering.isLE_then_iff_or, Std.compare_eq_lt, Std.compare_eq_iff_eq, Std.isLE_compare]

namespace Connection

variable {left right : Connection}

/-! ## The order of the written bytes -/

/-- The word of both ports compares by the source port, then by the destination port. -/
theorem compare_ports (left right : Connection) : compare left.ports right.ports =
    (compare left.source.port right.source.port).then
      (compare left.destination.port right.destination.port) := by
  rw [UInt32.compare_eq_toNat_compare_toNat, ports_toNat, ports_toNat,
    compare_mul_add left.destination.port.toNat_lt right.destination.port.toNat_lt,
    UInt16.compare_eq_toNat_compare_toNat, UInt16.compare_eq_toNat_compare_toNat]

/-- Connections compare field by field as the bytes of their fields do. -/
theorem compareFields_eq_compare_bytes (left right : Connection) : compareFields left right =
    compare (left.fields.flatMap Field.bytes) (right.fields.flatMap Field.bytes) := by
  simp only [fields, List.flatMap_cons, List.flatMap_nil, List.append_nil]
  rw [compare_append (by simp), compare_append (by simp), compare_append (by simp),
    Bytes.compare_ofWord32High, Bytes.compare_ofWord32High, Bytes.compare_ofWord32High, compare_ports, List.compare_cons_cons,
    List.compare_nil_nil, Ordering.then_eq, Ordering.then_assoc]
  rfl

/-! ## What identifies a connection -/

/-- Connections agree field by field exactly if they are one. -/
theorem sameFields_iff_eq : left.sameFields right ↔ left = right := by
  obtain ⟨_, _, _⟩ := left
  obtain ⟨_, _, _⟩ := right
  simp [sameFields, and_assoc]

/-- Connections are equal exactly if they have one canonical form. -/
theorem beq_iff_canonical : (left == right) = true ↔ left.canonical = right.canonical :=
  sameFields_iff_eq

/-- A hasher is fed the same bytes exactly for the same canonical form. -/
theorem identityBytes_eq_iff :
    left.identityBytes = right.identityBytes ↔ left.canonical = right.canonical := by
  refine ⟨fun equal => ?_, fun same => by rw [identityBytes, identityBytes, same]⟩
  simp only [identityBytes, List.append_assoc] at equal
  obtain ⟨source, equal⟩ := List.append_inj equal rfl
  obtain ⟨destination, equal⟩ := List.append_inj equal rfl
  obtain ⟨sourcePort, equal⟩ := List.append_inj equal rfl
  obtain ⟨destinationPort, protocol⟩ := List.append_inj equal rfl
  apply compareFields_eq_iff_eq.mp
  simp only [compareFields, compareLex_eq_eq, compareOn, Std.compare_eq_iff_eq]
  exact ⟨Bytes.ofWord32_inj.mp source, Bytes.ofWord32_inj.mp destination,
    Bytes.ofWord16_inj.mp sourcePort, Bytes.ofWord16_inj.mp destinationPort,
    List.head_eq_of_cons_eq protocol⟩

/-! ## The lower endpoint -/

/-- Seen from the other side, the source is the higher endpoint if it is the lower one from this
side. -/
theorem isDescending_reversed (connection : Connection) : connection.reversed.isDescending =
    (compare connection.source connection.destination).isLT := by
  have swapped := Endpoint.compare_swap connection.source connection.destination
  rw [← Ordering.isGT_swap, ← swapped]
  rfl

/-- The source of the canonical form is not above its destination. -/
theorem isLE_canonical (connection : Connection) :
    (compare connection.canonical.source connection.canonical.destination).isLE := by
  have swapped := Endpoint.compare_swap connection.source connection.destination
  cases order : compare connection.source connection.destination <;>
    simp [canonical, isDescending, order, reversed, swapped]

/-- Connections as keys. They compare equal, are equal, have one canonical form, are written in the
same bytes and feed a hasher the same bytes in exactly the same cases: if they have the same fields,
seen from the same side or from opposite sides. The canonical form has the endpoint that is not
above the other one first, by address and then by port. From at most one side the source is the
higher endpoint, and from neither only if both endpoints are one. The order is that of the written
bytes. So is the order of connections whose direction counts; these compare equal only if all five
fields agree. -/
theorem identity_and_order :
    (∀ left right : Connection,
      [compare left right = .eq, left == right, left.canonical = right.canonical,
        Storable.marshal left = Storable.marshal right, left.identityBytes = right.identityBytes,
        right = left ∨ right = left.reversed].TFAE ∧
      compare left right = compare (Storable.marshal left) (Storable.marshal right)) ∧
    (∀ connection : Connection,
      let form := connection.canonical
      (form = connection ∨ form = connection.reversed) ∧
      (form.source.address < form.destination.address ∨
        form.source.address = form.destination.address ∧ form.source.port ≤ form.destination.port) ∧
      ¬(connection.isDescending ∧ connection.reversed.isDescending) ∧
      (¬connection.isDescending ∧ ¬connection.reversed.isDescending ↔
        connection.source = connection.destination)) ∧
    ∀ left right : DirectedConnection,
      (compare left right = .eq ↔
        left.connection.source.address = right.connection.source.address ∧
        left.connection.destination.address = right.connection.destination.address ∧
        left.connection.source.port = right.connection.source.port ∧
        left.connection.destination.port = right.connection.destination.port ∧
        left.connection.protocol = right.connection.protocol) ∧
      compare left right = compare (Storable.marshal left) (Storable.marshal right) := by
  refine ⟨fun left right => ⟨?_, ?_⟩, fun connection => ?_, fun left right => ⟨?_, ?_⟩⟩
  · tfae_have 1 ↔ 3 := compareFields_eq_iff_eq
    tfae_have 2 ↔ 3 := beq_iff_canonical
    tfae_have 1 ↔ 4 := Storable.same_iff_compare.symm.trans Storable.same_iff_marshal
    tfae_have 5 ↔ 3 := identityBytes_eq_iff
    tfae_have 6 ↔ 3 := canonical_eq_iff.symm.trans eq_comm
    tfae_finish
  · exact compareFields_eq_compare_bytes left.canonical right.canonical
  · intro form
    have lower := Endpoint.isLE_compare_iff.mp connection.isLE_canonical
    refine ⟨connection.canonical_eq_or, lower, ?_, ?_⟩
    · rw [isDescending_reversed, isDescending]
      cases compare connection.source connection.destination <;> decide
    · rw [isDescending_reversed, isDescending, ← Endpoint.compare_eq_iff]
      cases compare connection.source connection.destination <;> decide
  · change compareLex _ (compareLex _ (compareLex _ (compareLex _ _))) _ _ = _ ↔ _
    simp only [compareLex_eq_eq, compareOn, Std.compare_eq_iff_eq]
  · exact compareFields_eq_compare_bytes left.connection right.connection

end Connection

end ChainedMultimap
