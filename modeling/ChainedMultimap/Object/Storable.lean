import ChainedMultimap.Bytes
import ChainedMultimap.Double
import ChainedMultimap.Object.Kind

/-!
# Storable objects

What a table needs from a key or a yield: its kind, a three-way order, and a layout, the bytes it
writes and where. The marshalled form is the concatenation of the layout's fields. The same layout
can be written into a frame of the kind's fixed length, field by field; a slice that does not lie
inside the frame, or that has not as many places as there are bytes for it, is refused.
-/

namespace ChainedMultimap

/-- Bytes together with the slice of a frame where they go. -/
structure Field where
  /-- Index of the first place of the slice. -/
  start : Nat
  /-- Index behind the last place of the slice. -/
  stop : Nat
  /-- The bytes to write. -/
  bytes : Bytes

/-- The field whose slice is a whole frame of a kind. -/
def Field.whole (kind : ObjectKind) (bytes : Bytes) : Field := ⟨0, kind.fixedLength, bytes⟩

/-- Replaces the bytes in the field's slice of a frame. The slice has to lie inside the frame, and to
have one place for each byte. -/
def Field.write? (field : Field) (frame : Bytes) : Option Bytes :=
  if field.start ≤ field.stop ∧ field.stop ≤ frame.length ∧
      field.bytes.length = field.stop - field.start then
    some (frame.take field.start ++ field.bytes ++ frame.drop field.stop)
  else none

/-- Objects with a kind, a three-way order and a byte layout. -/
class Storable (α : Type) extends Ord α where
  /-- The kind of every value of the type. -/
  kind : ObjectKind
  /-- The fields that a value writes, in order of their place. -/
  layout : α → List Field

namespace Storable

variable {α : Type} [Storable α]

/-- The bytes of a value, which feed the hash. -/
def marshal (value : α) : Bytes := (layout value).flatMap Field.bytes

/-- Writes every field of a value into a frame. -/
def fill? (value : α) (frame : Bytes) : Option Bytes :=
  (layout value).foldlM (fun written field => field.write? written) frame

/-- Two values are the same when neither comes before the other. -/
def same (left right : α) : Bool := (compare left right).isEq

/-- An absent filter admits every value, a present one the values that are the same. -/
def admits (filter : Option α) (value : α) : Bool :=
  match filter with
  | none => true
  | some wanted => same wanted value

/-- A list in ascending order; values that compare equal keep their relative order. -/
def sort (values : List α) : List α :=
  values.mergeSort fun left right => (compare left right).isLE

/-- A list without the values that are the same as the one before. -/
def dropRepeats (values : List α) : List α := values.eraseRepsBy same

end Storable

/-- A 32-bit number: an address or a counter. -/
structure UnsignedInt where
  /-- The number. -/
  value : UInt32
  deriving DecidableEq

instance : Ord UnsignedInt := ⟨compareOn UnsignedInt.value⟩

instance : Storable UnsignedInt where
  kind := .unsignedInt
  layout number := [.whole .unsignedInt (Bytes.ofWord32 number.value)]

instance : Storable Double where
  kind := .double
  layout number := [.whole .double (Bytes.ofWord64 number.bits)]

end ChainedMultimap
