/-!
# Kinds of storable objects

A closed list of kinds in a fixed order. Each has a display name, a tag for diagnostic text, and the
exact number of bytes that its values are written in.
-/

namespace ChainedMultimap

/-- The kinds of object a table stores as key or as yield. -/
inductive ObjectKind where
  | connection
  | directedConnection
  | unsignedInt
  | double
  | flowCounters
  deriving DecidableEq

/-- What the registry records about one kind. -/
structure RegistryEntry where
  /-- The kind described. -/
  kind : ObjectKind
  /-- Its display name. -/
  name : String
  /-- The number of bytes its values are written in. -/
  fixedLength : Nat
  deriving DecidableEq

/-- No kind writes more bytes than this. -/
def maxMarshalledLength : Nat := 64

namespace ObjectKind

/-- Every kind, in the order of declaration. -/
def all : List ObjectKind :=
  [connection, directedConnection, unsignedInt, double, flowCounters]

/-- The place of a kind in `all`. -/
def position : ObjectKind → Nat
  | connection => 0
  | directedConnection => 1
  | unsignedInt => 2
  | double => 3
  | flowCounters => 4

instance : Ord ObjectKind := ⟨compareOn position⟩

/-- The number of bytes that a value of the kind is written in. -/
def fixedLength : ObjectKind → Nat
  | connection | directedConnection => 13
  | unsignedInt => 4
  | double => 8
  | flowCounters => 36

/-- The display name. -/
def name : ObjectKind → String
  | connection => "connection"
  | directedConnection => "one-sided connection"
  | unsignedInt => "unsigned int"
  | double => "double"
  | flowCounters => "connection info"

/-- The tag written in diagnostic text. -/
def tag : ObjectKind → String
  | connection => "Connection"
  | directedConnection => "OneSidedConnection"
  | unsignedInt => "UnsignedInt"
  | double => "Double"
  | flowCounters => "ConnectionInfo"

/-- The registry entry of a kind. -/
def registryEntry (kind : ObjectKind) : RegistryEntry where
  kind := kind
  name := kind.name
  fixedLength := kind.fixedLength

/-- Every fixed length fits the largest frame. -/
theorem fixedLength_le (kind : ObjectKind) : kind.fixedLength ≤ maxMarshalledLength := by
  cases kind <;> decide

end ObjectKind

end ChainedMultimap
