import ChainedMultimap.Object.Storable

/-!
# Connections

A connection is a pair of endpoints and a protocol number. As a key it has no direction: it is
compared, hashed and written in its canonical form, with the lower endpoint first. A directed
connection is compared and written as it stands. Both orders are by the two addresses, then the two
ports, then the protocol, which is the order of the written bytes.
-/

namespace ChainedMultimap

/-- An address and a port. -/
structure Endpoint where
  /-- IPv4 address. -/
  address : UInt32
  /-- Port number. -/
  port : UInt16
  deriving DecidableEq

namespace Endpoint

/-- By address, then by port. -/
instance : Ord Endpoint := ⟨compareLex (compareOn address) (compareOn port)⟩

/-- The address as four decimal numbers, highest byte first. -/
def dottedQuad (address : UInt32) : String :=
  String.intercalate "." ((Bytes.ofWord32High address).map fun byte => Nat.repr byte.toNat)

/-- The address, a colon and the port. -/
def display (endpoint : Endpoint) : String :=
  dottedQuad endpoint.address ++ ":" ++ Nat.repr endpoint.port.toNat

end Endpoint

/-- Two endpoints and a protocol number. -/
structure Connection where
  /-- Where the observed packet came from. -/
  source : Endpoint
  /-- Where the observed packet went. -/
  destination : Endpoint
  /-- IP protocol number. -/
  protocol : UInt8
  deriving DecidableEq

namespace Connection

/-- The same flow seen from the other side. -/
def reversed (connection : Connection) : Connection :=
  ⟨connection.destination, connection.source, connection.protocol⟩

/-- Whether the source is the higher endpoint. -/
def isDescending (connection : Connection) : Bool :=
  (compare connection.source connection.destination).isGT

/-- The connection with its lower endpoint as the source. -/
def canonical (connection : Connection) : Connection :=
  if connection.isDescending then connection.reversed else connection

/-- Order by source address, destination address, source port, destination port and protocol. -/
def compareFields : Connection → Connection → Ordering :=
  compareLex (compareOn (·.source.address)) <|
  compareLex (compareOn (·.destination.address)) <|
  compareLex (compareOn (·.source.port)) <|
  compareLex (compareOn (·.destination.port)) (compareOn (·.protocol))

/-- The two ports in one word, the source port in the high half. -/
def ports (connection : Connection) : UInt32 :=
  (connection.source.port.toUInt32 <<< 16) ||| connection.destination.port.toUInt32

/-- Both addresses, both ports and the protocol, high bytes first. -/
def fields (connection : Connection) : List Field :=
  [⟨0, 4, Bytes.ofWord32High connection.source.address⟩,
   ⟨4, 8, Bytes.ofWord32High connection.destination.address⟩,
   ⟨8, 12, Bytes.ofWord32High connection.ports⟩,
   ⟨12, 13, [connection.protocol]⟩]

/-- Direction does not count. -/
instance : Ord Connection :=
  ⟨fun left right => compareFields left.canonical right.canonical⟩

instance : Storable Connection where
  kind := .connection
  layout connection := connection.canonical.fields

/-- Whether two connections agree field by field, direction included. -/
def sameFields (left right : Connection) : Bool :=
  left.source = right.source && left.destination = right.destination &&
    left.protocol = right.protocol

/-- Two connections are equal when their canonical forms agree. -/
instance : BEq Connection :=
  ⟨fun left right => left.canonical.sameFields right.canonical⟩

/-- The larger of two connections, the second if they are equal. -/
def max (left right : Connection) : Connection :=
  if (compare left right).isGT then left else right

/-- The bytes that identify a connection to a hasher: the fields of the canonical form, low bytes
first. -/
def identityBytes (connection : Connection) : Bytes :=
  let form := connection.canonical
  Bytes.ofWord32 form.source.address ++ Bytes.ofWord32 form.destination.address ++
    Bytes.ofWord16 form.source.port ++ Bytes.ofWord16 form.destination.port ++ [form.protocol]

/-- Source, arrow, destination and protocol, in the direction observed. -/
def display (connection : Connection) : String :=
  connection.source.display ++ " -> " ++ connection.destination.display ++
    " (" ++ Nat.repr connection.protocol.toNat ++ ")"

end Connection

/-- A connection whose direction counts. -/
structure DirectedConnection where
  /-- The connection as observed. -/
  connection : Connection

namespace DirectedConnection

/-- Field by field, in the direction observed. -/
instance : Ord DirectedConnection :=
  ⟨fun left right => left.connection.compareFields right.connection⟩

instance : Storable DirectedConnection where
  kind := .directedConnection
  layout directed := directed.connection.fields

/-- Direction counts. -/
instance : BEq DirectedConnection :=
  ⟨fun left right => left.connection.sameFields right.connection⟩

/-- A directed connection is displayed as its connection. -/
def display (directed : DirectedConnection) : String := directed.connection.display

end DirectedConnection

end ChainedMultimap
