import ChainedMultimap.Object.Storable

/-!
# Flow counters

Packet and byte totals of one flow, overall and by direction. Packet counters wrap at `2^32`; byte
counters are binary64 sums. Merging is field by field.
-/

namespace ChainedMultimap

/-- Packet and byte totals, overall, forward and backward. -/
structure FlowCounters where
  /-- All packets. -/
  packets : UInt32
  /-- Packets in the forward direction. -/
  forwardPackets : UInt32
  /-- Packets in the backward direction. -/
  backwardPackets : UInt32
  /-- All bytes. -/
  bytes : Double
  /-- Bytes in the forward direction. -/
  forwardBytes : Double
  /-- Bytes in the backward direction. -/
  backwardBytes : Double
  deriving DecidableEq

namespace FlowCounters

/-- Nothing counted yet. -/
def zero : FlowCounters := ⟨0, 0, 0, .zero, .zero, .zero⟩

/-- The counters of a single packet in one direction. -/
def packet (size : Double) (forward : Bool) : FlowCounters :=
  if forward then ⟨1, 1, 0, size, size, .zero⟩ else ⟨1, 0, 1, size, .zero, size⟩

/-- Sums field by field. -/
def merge (left right : FlowCounters) : FlowCounters where
  packets := left.packets + right.packets
  forwardPackets := left.forwardPackets + right.forwardPackets
  backwardPackets := left.backwardPackets + right.backwardPackets
  bytes := left.bytes.add right.bytes
  forwardBytes := left.forwardBytes.add right.forwardBytes
  backwardBytes := left.backwardBytes.add right.backwardBytes

/-- Lexicographic in the order of the fields. -/
instance : Ord FlowCounters :=
  ⟨compareLex (compareOn packets) <|
   compareLex (compareOn forwardPackets) <|
   compareLex (compareOn backwardPackets) <|
   compareLex (compareOn bytes) <|
   compareLex (compareOn forwardBytes) (compareOn backwardBytes)⟩

instance : Storable FlowCounters where
  kind := .flowCounters
  layout counters :=
    [⟨0, 4, Bytes.ofWord32 counters.packets⟩,
     ⟨4, 8, Bytes.ofWord32 counters.forwardPackets⟩,
     ⟨8, 12, Bytes.ofWord32 counters.backwardPackets⟩,
     ⟨12, 20, Bytes.ofWord64 counters.bytes.bits⟩,
     ⟨20, 28, Bytes.ofWord64 counters.forwardBytes.bits⟩,
     ⟨28, 36, Bytes.ofWord64 counters.backwardBytes.bits⟩]

end FlowCounters

end ChainedMultimap
