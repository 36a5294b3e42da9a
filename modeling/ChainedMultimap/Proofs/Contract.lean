import ChainedMultimap.Proofs.Search

/-!
# What every kind of object keeps

A table relies on its objects for two things: a value fills a frame of its kind's length with bytes
that depend on nothing but the value, and two values compare equal exactly if these bytes are the
same. The first follows from slices that stand side by side, the second is lawfulness. Every kind of
object keeps both, so equal keys have one hash and one bucket, and different keys are written in
different bytes.
-/

namespace ChainedMultimap

/-- Slices that stand side by side between two places of a frame, each with one place for every byte
of its field. -/
def Abut : List Field → Nat → Nat → Prop
  | [], start, stop => start = stop
  | field :: rest, start, stop =>
    field.start = start ∧ field.stop = start + field.bytes.length ∧ Abut rest field.stop stop

namespace Abut

variable {fields : List Field} {start stop : Nat}

/-- Slices that stand side by side have as many places as their fields have bytes. -/
theorem add_length (abut : Abut fields start stop) :
    start + (fields.flatMap Field.bytes).length = stop := by
  induction fields generalizing start with
  | nil => exact abut
  | cons field rest ih =>
    obtain ⟨_, ends, others⟩ := abut
    have later := ih others
    rw [List.flatMap_cons, List.length_append]
    omega

/-- Writing such fields succeeds in every frame that reaches far enough, replaces all bytes between
the two places and keeps those outside. -/
theorem foldlM_write? (abut : Abut fields start stop) {frame : Bytes}
    (inside : stop ≤ frame.length) :
    fields.foldlM (fun written field => field.write? written) frame =
      some (frame.take start ++ fields.flatMap Field.bytes ++ frame.drop stop) := by
  induction fields generalizing start frame with
  | nil =>
    obtain rfl : start = stop := abut
    simp
  | cons field rest ih =>
    obtain ⟨rfl, ends, others⟩ := abut
    have reach := others.add_length
    have places : field.start ≤ field.stop ∧ field.stop ≤ frame.length ∧
        field.bytes.length = field.stop - field.start := by omega
    have written : (frame.take field.start ++ field.bytes).length = field.stop := by
      rw [List.length_append, List.length_take]
      omega
    have front : (frame.take field.start ++ field.bytes ++ frame.drop field.stop).take field.stop =
        frame.take field.start ++ field.bytes := List.take_left' written
    have back : (frame.take field.start ++ field.bytes ++ frame.drop field.stop).drop stop =
        frame.drop stop := by
      rw [List.drop_append, written, List.drop_eq_nil_of_le (by omega), List.nil_append,
        List.drop_drop, Nat.add_sub_cancel' (by omega)]
    have enough : stop ≤
        (frame.take field.start ++ field.bytes ++ frame.drop field.stop).length := by
      rw [List.length_append, written, List.length_drop]
      omega
    rw [List.foldlM_cons, Field.write?, if_pos places, Option.bind_eq_bind, Option.bind_some,
      ih others enough, front, back, List.flatMap_cons, List.append_assoc (frame.take field.start)]

end Abut

/-- Objects whose fields fill a frame of their kind's length. -/
class FixedLayout (α : Type) [Storable α] : Prop where
  /-- The slices stand side by side from the first place of the frame to the last. -/
  abut : ∀ value : α, Abut (Storable.layout value) 0 (Storable.kind α).fixedLength

instance : FixedLayout UnsignedInt := ⟨fun _ => ⟨rfl, rfl, rfl⟩⟩

instance : FixedLayout Double := ⟨fun _ => ⟨rfl, rfl, rfl⟩⟩

instance : FixedLayout FlowCounters :=
  ⟨fun _ => ⟨rfl, rfl, rfl, rfl, rfl, rfl, rfl, rfl, rfl, rfl, rfl, rfl, rfl⟩⟩

/-- The fields of a connection fill its 13 bytes without a gap. -/
theorem Connection.abut_fields (connection : Connection) : Abut connection.fields 0 13 :=
  ⟨rfl, rfl, rfl, rfl, rfl, rfl, rfl, rfl, rfl⟩

instance : FixedLayout Connection := ⟨fun connection => connection.canonical.abut_fields⟩

instance : FixedLayout DirectedConnection := ⟨fun directed => directed.connection.abut_fields⟩

namespace Storable

variable {α : Type} [Storable α]

/-- Every value of a kind with a fixed layout takes the same number of bytes. -/
theorem length_marshal [FixedLayout α] (value : α) :
    (marshal value).length = (kind α).fixedLength := by
  have places := (FixedLayout.abut value).add_length
  rwa [Nat.zero_add] at places

/-- Whatever a frame of the kind's length holds, writing a value leaves the marshalled value there. -/
theorem fill?_eq_marshal [FixedLayout α] (value : α) {frame : Bytes}
    (fits : frame.length = (kind α).fixedLength) : fill? value frame = some (marshal value) := by
  have filled := (FixedLayout.abut value).foldlM_write? (Nat.le_of_eq fits.symm)
  rwa [List.take_zero, List.nil_append, List.drop_of_length_le (Nat.le_of_eq fits),
    List.append_nil] at filled

/-- The comparison finds equal exactly the values that are written as the same bytes. -/
theorem compare_eq_iff_marshal [LawfulStorable α] {left right : α} :
    compare left right = .eq ↔ marshal left = marshal right :=
  same_iff_compare.symm.trans same_iff_marshal

end Storable

/-- What a table relies on in the values of a type. -/
structure Contract (α : Type) [Storable α] : Prop where
  /-- The frame that a value is written into is part of the largest frame. -/
  fixedLength_le : (Storable.kind α).fixedLength ≤ maxMarshalledLength
  /-- A marshalled value has the length of its kind. -/
  length_marshal : ∀ value : α, (Storable.marshal value).length = (Storable.kind α).fixedLength
  /-- Every field of a value can be written into a frame of that length, whatever the frame holds,
  and nothing of what it held is left. -/
  fill? : ∀ (value : α) (frame : Bytes), frame.length = (Storable.kind α).fixedLength →
    Storable.fill? value frame = some (Storable.marshal value)
  /-- Two values compare equal exactly if they are written in the same bytes. -/
  compare_eq_iff : ∀ left right : α,
    compare left right = .eq ↔ Storable.marshal left = Storable.marshal right
  /-- Values that compare equal have the same hash under every strategy. -/
  hash : ∀ (strategy : Strategy) (left right : α), compare left right = .eq →
    strategy (Storable.marshal left) = strategy (Storable.marshal right)
  /-- Keys that compare equal have the same bucket in every table. -/
  home : ∀ {Y : Type} (table : Table α Y) (left right : α), compare left right = .eq →
    table.home left = table.home right

/-- Lawful objects with a fixed layout keep the contract. -/
theorem Contract.of_lawful (α : Type) [Storable α] [FixedLayout α] [LawfulStorable α] :
    Contract α where
  fixedLength_le := (Storable.kind α).fixedLength_le
  length_marshal := Storable.length_marshal
  fill? value _ fits := Storable.fill?_eq_marshal value fits
  compare_eq_iff _ _ := Storable.compare_eq_iff_marshal
  hash strategy _ _ equal := congrArg strategy (Storable.compare_eq_iff_marshal.mp equal)
  home table _ _ equal := table.home_congr (Storable.same_iff_compare.mpr equal)

namespace ObjectKind

/-- The type of the objects of a kind. -/
def Value : ObjectKind → Type
  | connection => Connection
  | directedConnection => DirectedConnection
  | unsignedInt => UnsignedInt
  | double => Double
  | flowCounters => FlowCounters

instance : (kind : ObjectKind) → Storable kind.Value
  | connection => inferInstanceAs (Storable Connection)
  | directedConnection => inferInstanceAs (Storable DirectedConnection)
  | unsignedInt => inferInstanceAs (Storable UnsignedInt)
  | double => inferInstanceAs (Storable Double)
  | flowCounters => inferInstanceAs (Storable FlowCounters)

/-- The objects of every kind carry its tag and keep the contract. -/
theorem contract_value (kind : ObjectKind) :
    Storable.kind kind.Value = kind ∧ Contract kind.Value := by
  cases kind with
  | connection => exact ⟨rfl, Contract.of_lawful Connection⟩
  | directedConnection => exact ⟨rfl, Contract.of_lawful DirectedConnection⟩
  | unsignedInt => exact ⟨rfl, Contract.of_lawful UnsignedInt⟩
  | double => exact ⟨rfl, Contract.of_lawful Double⟩
  | flowCounters => exact ⟨rfl, Contract.of_lawful FlowCounters⟩

end ObjectKind

end ChainedMultimap
