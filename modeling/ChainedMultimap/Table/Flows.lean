import ChainedMultimap.Object.Connection
import ChainedMultimap.Object.FlowCounters
import ChainedMultimap.Table.Run

/-!
# Counting packets by flow

A flow table keeps the counters of every connection that packets were seen on. Each packet is looked
up by its connection; a stored item has the packet merged into its counters in place, and the first
packet of a flow is inserted. Both directions of a connection are one flow.
-/

namespace ChainedMultimap

/-- A packet as it is counted. -/
structure Packet where
  /-- The connection, in the direction in which the packet was observed. -/
  connection : Connection
  /-- How many bytes the packet has. -/
  size : Double
  /-- Whether the packet is counted as forward. -/
  forward : Bool

namespace Packet

/-- The counters of the packet alone. -/
def counters (packet : Packet) : FlowCounters := .packet packet.size packet.forward

/-- Whether the packet was seen on a connection, from either side. -/
def isOf (packet : Packet) (connection : Connection) : Bool :=
  packet.connection = connection || packet.connection = connection.reversed

end Packet

namespace Table

/-- What is done with a packet: its counters are merged into those of its flow, or inserted as the
first of it. -/
def countingCommand (table : Table Connection FlowCounters) (packet : Packet) :
    Command Connection FlowCounters :=
  match table.lookup (some packet.connection) none with
  | some handle => .updateYield handle (·.merge packet.counters)
  | none => .insertOwned packet.connection packet.counters

/-- Counts packets one after another. -/
def countPackets (table : Table Connection FlowCounters) (allows : Allocator) :
    List Packet → Outcome (Table Connection FlowCounters) (List (Reply Connection FlowCounters))
  | [] => ⟨[], table, []⟩
  | packet :: rest =>
    let done := table.perform allows (table.countingCommand packet)
    let others := done.state.countPackets allows rest
    ⟨done.answer :: others.answer, others.state, done.log ++ others.log⟩

/-- The counters of a connection's flow. -/
def countersOf? (table : Table Connection FlowCounters) (connection : Connection) :
    Option FlowCounters :=
  (table.lookup (some connection) none).bind table.yield?

end Table

end ChainedMultimap
