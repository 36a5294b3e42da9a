import ChainedMultimap.Object.Connection
import ChainedMultimap.Object.FlowCounters
import Mathlib.Algebra.Group.Nat.Defs

/-!
# Sameness and written bytes

A type of storable objects is lawful when two values are the same exactly if they are written in the
same bytes. All five kinds of object are lawful. Sameness is then an equivalence, and values that are
the same have the same hash under every strategy.
-/

namespace ChainedMultimap

/-- Two values are the same exactly if they are written in the same bytes. -/
class LawfulStorable (α : Type) [Storable α] : Prop where
  /-- Sameness is equality of the written bytes. -/
  same_iff : ∀ left right : α,
    Storable.same left right ↔ Storable.marshal left = Storable.marshal right

namespace Storable

variable {α : Type} [Storable α]

/-- Sameness is the comparison finding equal. -/
theorem same_iff_compare {left right : α} : same left right ↔ compare left right = .eq := by
  rw [same]
  cases compare left right <;> decide

variable [LawfulStorable α] {left middle right : α}

/-- Sameness is being written as the same bytes. -/
theorem same_iff_marshal : same left right ↔ marshal left = marshal right :=
  LawfulStorable.same_iff left right

/-- Every value is the same as itself. -/
@[simp] theorem same_refl (value : α) : same value value := same_iff_marshal.mpr rfl

/-- Sameness holds from both sides. -/
theorem same_symm (equal : same left right) : same right left :=
  same_iff_marshal.mpr (same_iff_marshal.mp equal).symm

/-- Sameness passes on through a value in the middle. -/
theorem same_trans (first : same left middle) (second : same middle right) : same left right :=
  same_iff_marshal.mpr ((same_iff_marshal.mp first).trans (same_iff_marshal.mp second))

end Storable

/-! ## Words -/

namespace Bytes

/-- Different words have different bytes, lowest first. -/
theorem ofWord32_inj {left right : UInt32} : ofWord32 left = ofWord32 right ↔ left = right := by
  refine ⟨fun equal => ?_, congrArg ofWord32⟩
  simp only [ofWord32, List.cons.injEq, and_true, ← UInt8.toNat_inj, UInt32.toNat_toUInt8,
    UInt32.toNat_shiftRight, Nat.shiftRight_eq_div_pow] at equal
  have small := left.toNat_lt
  have small' := right.toNat_lt
  apply UInt32.toNat_inj.mp
  simp only [UInt32.reduceToNat, Nat.reduceMod, Nat.reducePow] at equal
  omega

/-- Different words have different bytes, highest first. -/
theorem ofWord32High_inj {left right : UInt32} :
    ofWord32High left = ofWord32High right ↔ left = right := by
  rw [← reverse_ofWord32, ← reverse_ofWord32, List.reverse_inj, ofWord32_inj]

/-- Different words of 64 bits have different bytes. -/
theorem ofWord64_inj {left right : UInt64} : ofWord64 left = ofWord64 right ↔ left = right := by
  refine ⟨fun equal => ?_, congrArg ofWord64⟩
  obtain ⟨low, high⟩ := List.append_inj equal rfl
  rw [ofWord32_inj, ← UInt32.toNat_inj] at low high
  simp only [UInt64.toNat_toUInt32, UInt64.toNat_shiftRight, Nat.shiftRight_eq_div_pow,
    UInt64.reduceToNat, Nat.reduceMod, Nat.reducePow] at low high
  have small := left.toNat_lt
  have small' := right.toNat_lt
  apply UInt64.toNat_inj.mp
  omega

end Bytes

instance : LawfulStorable UnsignedInt where
  same_iff left right := by
    obtain ⟨left⟩ := left
    obtain ⟨right⟩ := right
    rw [Storable.same_iff_compare]
    change compare left right = .eq ↔ Bytes.ofWord32 left ++ [] = Bytes.ofWord32 right ++ []
    rw [Std.compare_eq_iff_eq, List.append_nil, List.append_nil, Bytes.ofWord32_inj]

/-! ## Doubles -/

namespace Double

/-- The sign is the highest of the 64 bits. -/
theorem isNegative_iff {value : Double} : value.isNegative ↔ 2 ^ 63 ≤ value.bits.toNat := by
  simp [isNegative, UInt64.le_iff_toNat_le]

/-- Negative encodings have the keys below `2 ^ 63` and the others those from there on. -/
theorem orderKey_toNat (value : Double) : value.orderKey.toNat =
    if 2 ^ 63 ≤ value.bits.toNat then 2 ^ 64 - 1 - value.bits.toNat
    else value.bits.toNat + 2 ^ 63 := by
  by_cases sign : value.isNegative
  · rw [orderKey, if_pos sign, if_pos (isNegative_iff.mp sign)]
    exact UInt64.toNat_not value.bits
  · have below : value.bits.toNat < 2 ^ 63 := Nat.lt_of_not_le (sign ∘ isNegative_iff.mpr)
    rw [orderKey, if_neg sign, if_neg (Nat.not_le_of_lt below), UInt64.toNat_or, Nat.or_comm]
    have disjoint := Nat.two_pow_add_eq_or_of_lt below 1
    rw [Nat.mul_one] at disjoint
    rw [Nat.add_comm, disjoint]
    rfl

/-- Different doubles have different places in the order. -/
theorem orderKey_inj {left right : Double} : left.orderKey = right.orderKey ↔ left = right := by
  refine ⟨fun equal => ?_, congrArg orderKey⟩
  obtain ⟨left⟩ := left
  obtain ⟨right⟩ := right
  rw [← UInt64.toNat_inj, orderKey_toNat, orderKey_toNat] at equal
  have small := left.toNat_lt
  have small' := right.toNat_lt
  have same : left.toNat = right.toNat := by
    dsimp only at equal
    split at equal <;> split at equal <;> omega
  rw [UInt64.toNat_inj.mp same]

/-- The comparison of doubles finds equal only a double and itself. -/
theorem compare_eq_iff {left right : Double} : compare left right = .eq ↔ left = right := by
  rw [← orderKey_inj]
  exact Std.compare_eq_iff_eq (a := left.orderKey) (b := right.orderKey)

end Double

instance : LawfulStorable Double where
  same_iff left right := by
    rw [Storable.same_iff_compare, Double.compare_eq_iff]
    change left = right ↔ Bytes.ofWord64 left.bits ++ [] = Bytes.ofWord64 right.bits ++ []
    rw [List.append_nil, List.append_nil, Bytes.ofWord64_inj]
    exact Double.mk.injEq left.bits right.bits ▸ Iff.rfl

/-! ## Records of words -/

/-- Flow counters are written field after field, each in a fixed number of bytes. -/
theorem FlowCounters.marshal_inj {left right : FlowCounters} :
    Storable.marshal left = Storable.marshal right ↔ left = right := by
  refine ⟨fun equal => ?_, congrArg Storable.marshal⟩
  obtain ⟨packets, rest⟩ := List.append_inj equal rfl
  obtain ⟨forwardPackets, rest⟩ := List.append_inj rest rfl
  obtain ⟨backwardPackets, rest⟩ := List.append_inj rest rfl
  obtain ⟨bytes, rest⟩ := List.append_inj rest rfl
  obtain ⟨forwardBytes, rest⟩ := List.append_inj rest rfl
  obtain ⟨backwardBytes, -⟩ := List.append_inj rest rfl
  rw [Bytes.ofWord32_inj] at packets forwardPackets backwardPackets
  rw [Bytes.ofWord64_inj] at bytes forwardBytes backwardBytes
  obtain ⟨_, _, _, ⟨_⟩, ⟨_⟩, ⟨_⟩⟩ := left
  obtain ⟨_, _, _, ⟨_⟩, ⟨_⟩, ⟨_⟩⟩ := right
  simp_all

/-- The comparison of counters finds equal only counters and themselves. -/
theorem FlowCounters.compare_eq_iff {left right : FlowCounters} :
    compare left right = .eq ↔ left = right := by
  obtain ⟨_, _, _, _, _, _⟩ := left
  obtain ⟨_, _, _, _, _, _⟩ := right
  simp only [FlowCounters.mk.injEq, ← Double.compare_eq_iff, ← Std.compare_eq_iff_eq (α := UInt32)]
  change compareLex _ (compareLex _ (compareLex _ (compareLex _ (compareLex _ _)))) _ _ = _ ↔ _
  simp only [compareLex_eq_eq, compareOn]

instance : LawfulStorable FlowCounters where
  same_iff left right := by
    rw [Storable.same_iff_compare, FlowCounters.compare_eq_iff, FlowCounters.marshal_inj]

namespace Connection

/-- Both ports in one word are the two digits of a number to the base `2 ^ 16`, the source first. -/
theorem ports_toNat (connection : Connection) : connection.ports.toNat =
    connection.source.port.toNat * 2 ^ 16 + connection.destination.port.toNat := by
  have source := connection.source.port.toNat_lt
  have destination := connection.destination.port.toNat_lt
  have disjoint := Nat.two_pow_add_eq_or_of_lt destination connection.source.port.toNat
  simp only [ports, UInt32.toNat_or, UInt32.toNat_shiftLeft, UInt16.toNat_toUInt32,
    UInt32.reduceToNat, Nat.reduceMod, Nat.shiftLeft_eq]
  rw [Nat.mod_eq_of_lt (by omega), Nat.mul_comm, disjoint]

/-- The word of both ports determines each of them. -/
theorem ports_inj {left right : Connection} : left.ports = right.ports ↔
    left.source.port = right.source.port ∧ left.destination.port = right.destination.port := by
  rw [← UInt32.toNat_inj, ← UInt16.toNat_inj, ← UInt16.toNat_inj, ports_toNat, ports_toNat]
  have left' := left.destination.port.toNat_lt
  have right' := right.destination.port.toNat_lt
  omega

/-- Two connections are written alike exactly if they agree field by field. -/
theorem compareFields_eq_iff {left right : Connection} : compareFields left right = .eq ↔
    left.fields.flatMap Field.bytes = right.fields.flatMap Field.bytes := by
  simp only [compareFields, compareLex_eq_eq, compareOn, Std.compare_eq_iff_eq]
  constructor
  · rintro ⟨source, destination, sourcePort, destinationPort, protocol⟩
    rw [fields, fields, source, destination, ports_inj.mpr ⟨sourcePort, destinationPort⟩, protocol]
  · intro equal
    simp only [fields, List.flatMap_cons, List.flatMap_nil] at equal
    obtain ⟨source, rest⟩ := List.append_inj equal rfl
    obtain ⟨destination, rest⟩ := List.append_inj rest rfl
    obtain ⟨both, protocol⟩ := List.append_inj rest (by simp)
    obtain ⟨sourcePort, destinationPort⟩ := ports_inj.mp (Bytes.ofWord32High_inj.mp both)
    exact ⟨Bytes.ofWord32High_inj.mp source, Bytes.ofWord32High_inj.mp destination, sourcePort,
      destinationPort, List.head_eq_of_cons_eq protocol⟩

end Connection

instance : LawfulStorable Connection where
  same_iff left right := by
    have fields : left.canonical.compareFields right.canonical = .eq ↔ _ :=
      Connection.compareFields_eq_iff
    rw [Storable.same_iff_compare]
    exact fields

instance : LawfulStorable DirectedConnection where
  same_iff left right := by
    have fields : left.connection.compareFields right.connection = .eq ↔ _ :=
      Connection.compareFields_eq_iff
    rw [Storable.same_iff_compare]
    exact fields

end ChainedMultimap
