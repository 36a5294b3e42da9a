import ChainedMultimap.Proofs.Runs
import ChainedMultimap.Proofs.Undirected
import ChainedMultimap.Table.Flows
import Mathlib.Data.Finset.Card
import Mathlib.Data.Finset.Dedup
import Mathlib.Data.List.Induction

/-!
# Exact counters for every flow

A table that counts packets has one item for each flow that was seen, whichever side its packets came
from, and the item's counters are those of the flow's packets merged in their order. What is counted
therefore depends neither on the hash nor on how the packets of different flows are mixed.
-/

namespace ChainedMultimap

/-! ## Counters of packets -/

namespace FlowCounters

/-- Counters of packets, merged in their order. There are none without a packet. -/
def total? : List Packet → Option FlowCounters
  | [] => none
  | first :: rest =>
    some (rest.foldl (fun total packet => total.merge packet.counters) first.counters)

/-- The counters of one more packet are merged into the total; without one they are the total. -/
theorem total?_append_singleton (packets : List Packet) (packet : Packet) :
    total? (packets ++ [packet]) = some (((total? packets).map (·.merge packet.counters)).getD
      packet.counters) := by
  cases packets <;> simp [total?]

/-- Counters have the numbers of the packets seen, up to a multiple of `2 ^ 32`. -/
structure Counts (counters : FlowCounters) (seen : List Packet) : Prop where
  /-- All packets are counted. -/
  packets : counters.packets.toNat = seen.length % 2 ^ 32
  /-- So are the forward ones. -/
  forwardPackets : counters.forwardPackets.toNat = seen.countP (·.forward) % 2 ^ 32
  /-- So are the backward ones. -/
  backwardPackets : counters.backwardPackets.toNat = seen.countP (!·.forward) % 2 ^ 32

/-- The counters of a packet count it. -/
theorem counts_counters (packet : Packet) : packet.counters.Counts [packet] := by
  cases forward : packet.forward <;> constructor <;>
    simp [Packet.counters, FlowCounters.packet, forward]

/-- Counters with those of one more packet merged in count it too. -/
theorem Counts.merge {counters : FlowCounters} {packets : List Packet}
    (counts : counters.Counts packets) (packet : Packet) :
    (counters.merge packet.counters).Counts (packets ++ [packet]) := by
  have one := counts_counters packet
  constructor
  · rw [FlowCounters.merge, UInt32.toNat_add, counts.packets, one.packets, List.length_append,
      ← Nat.add_mod]
  · rw [FlowCounters.merge, UInt32.toNat_add, counts.forwardPackets, one.forwardPackets,
      List.countP_append, ← Nat.add_mod]
  · rw [FlowCounters.merge, UInt32.toNat_add, counts.backwardPackets, one.backwardPackets,
      List.countP_append, ← Nat.add_mod]

/-- Merged counters have the numbers of the packets. -/
theorem counts_of_total? {packets : List Packet} {counters : FlowCounters}
    (total : total? packets = some counters) : counters.Counts packets := by
  induction packets using List.reverseRecOn generalizing counters with
  | nil => cases total
  | append_singleton packets packet ih =>
    rw [total?_append_singleton] at total
    obtain rfl := Option.some.inj total
    cases before : total? packets with
    | none =>
      cases packets with
      | nil => exact counts_counters packet
      | cons => cases before
    | some counters => exact (ih before).merge packet

/-- The numbers of packets, overall, forward and backward. -/
def packetCounts (counters : FlowCounters) : UInt32 × UInt32 × UInt32 :=
  (counters.packets, counters.forwardPackets, counters.backwardPackets)

/-- The numbers of packets do not depend on their order. -/
theorem packetCounts_total?_perm {packets others : List Packet} (perm : packets.Perm others) :
    (total? packets).map packetCounts = (total? others).map packetCounts := by
  cases one : total? packets with
  | none =>
    cases packets with
    | nil => rw [← perm.nil_eq, total?]
    | cons => cases one
  | some counters =>
    cases other : total? others with
    | none =>
      cases others with
      | nil =>
        rw [perm.eq_nil] at one
        cases one
      | cons => cases other
    | some counters' =>
      have left := counts_of_total? one
      have right := counts_of_total? other
      simp only [Option.map_some, packetCounts, Option.some.injEq, Prod.mk.injEq,
        ← UInt32.toNat_inj, left.packets, left.forwardPackets, left.backwardPackets, right.packets,
        right.forwardPackets, right.backwardPackets, perm.length_eq, perm.countP_eq, and_self]

end FlowCounters

/-- A packet is of a connection exactly if both have one canonical form. -/
theorem Packet.isOf_iff {packet : Packet} {connection : Connection} :
    packet.isOf connection ↔ packet.connection.canonical = connection.canonical := by
  rw [Connection.canonical_eq_iff, isOf, Bool.or_eq_true, decide_eq_true_iff, decide_eq_true_iff]

namespace Table

variable {table : Table Connection FlowCounters} {handle : Handle} {packets : List Packet}
  {packet : Packet}

/-! ## The flow of an item -/

/-- The canonical form of the connection under a handle. -/
def flow? (table : Table Connection FlowCounters) (handle : Handle) : Option Connection :=
  (table.key? handle).map Connection.canonical

/-- The flow of an item is the canonical form of its key. -/
theorem flow?_of_get? {key : Connection} {counters : FlowCounters}
    (stored : table.get? handle = some (key, counters)) :
    table.flow? handle = some key.canonical := by
  rw [flow?, key?, stored]
  rfl

/-- An item of a flow has a key whose canonical form is the flow. -/
theorem exists_get?_of_flow? {flow : Connection} (found : table.flow? handle = some flow) :
    ∃ key counters, table.get? handle = some (key, counters) ∧ key.canonical = flow := by
  obtain ⟨key, known, same⟩ := Option.map_eq_some_iff.mp found
  obtain ⟨⟨_, counters⟩, stored, rfl⟩ := Option.map_eq_some_iff.mp known
  exact ⟨_, counters, stored, same⟩

/-- A handle has a flow exactly if it finds an item. -/
theorem isSome_flow? (table : Table Connection FlowCounters) (handle : Handle) :
    (table.flow? handle).isSome = (table.items.get? handle).isSome := by
  simp [flow?, key?, get?]

/-- A search by connection admits the items of its flow. -/
theorem admits_iff_flow? {connection : Connection} :
    table.admits (some connection) none handle ↔
      table.flow? handle = some connection.canonical := by
  rw [admits_eq_get?, flow?, key?]
  cases table.get? handle with
  | none => simp
  | some stored =>
    simp only [Option.map_some, Option.getD_some, Storable.admits, Bool.and_true, Option.some_inj]
    rw [Connection.same_iff_canonical, eq_comm]

/-! ## One packet -/

/-- A table has counted packets: it has one item for each of their flows and no other, with the
counters of the flow's packets. -/
structure Tallies (table : Table Connection FlowCounters) (packets : List Packet) : Prop where
  /-- Every packet's flow has an item. -/
  covered : ∀ packet ∈ packets, ∃ handle, table.flow? handle = some packet.connection.canonical
  /-- No flow has two items. -/
  single : ∀ first second flow, table.flow? first = some flow → table.flow? second = some flow →
    first = second
  /-- An item has the counters of its flow's packets. -/
  counted : ∀ handle key counters, table.get? handle = some (key, counters) →
    FlowCounters.total? (packets.filter (·.isOf key)) = some counters

/-- A search by connection finds the item of its flow. -/
theorem Tallies.lookup_eq_some_iff (tallies : table.Tallies packets) (wellFormed : table.WellFormed)
    {connection : Connection} : table.lookup (some connection) none = some handle ↔
      table.flow? handle = some connection.canonical := by
  refine ⟨fun found => admits_iff_flow?.mp (admits_of_lookup found), fun flow => ?_⟩
  obtain ⟨other, found⟩ := Option.isSome_iff_exists.mp
    (wellFormed.isSome_lookup.mpr ⟨handle, admits_iff_flow?.mpr flow⟩)
  rw [found, tallies.single other handle _ (admits_iff_flow?.mp (admits_of_lookup found)) flow]

/-- A packet is counted when its flow's only item comes to have the counters with the packet, and
other items stay as they are. -/
theorem Tallies.append {after : Table Connection FlowCounters} (tallies : table.Tallies packets)
    {key : Connection} {counters : FlowCounters} (own : packet.isOf key)
    (now : after.get? handle = some (key, counters))
    (kept : ∀ other, other ≠ handle → after.get? other = table.get? other)
    (before : ∀ flow, table.flow? handle = some flow → flow = packet.connection.canonical)
    (alone : ∀ other, table.flow? other = some packet.connection.canonical → other = handle)
    (counted : FlowCounters.total? (packets.filter (·.isOf key) ++ [packet]) = some counters) :
    after.Tallies (packets ++ [packet]) := by
  have here : after.flow? handle = some packet.connection.canonical := by
    rw [flow?_of_get? now, Packet.isOf_iff.mp own]
  have elsewhere : ∀ other, other ≠ handle → after.flow? other = table.flow? other := by
    intro other away
    rw [flow?, flow?, key?, key?, kept other away]
  -- Afterwards too no other item is of the packet's flow, which settles both sides of every split.
  have only : ∀ other, after.flow? other = some packet.connection.canonical → other = handle := by
    intro other same
    by_contra away
    exact away (alone other (elsewhere other away ▸ same))
  constructor
  · intro member listed
    rcases List.mem_append.mp listed with old | new
    · obtain ⟨place, found⟩ := tallies.covered member old
      by_cases moved : place = handle
      · subst moved
        exact ⟨place, by rw [here, before _ found]⟩
      · exact ⟨place, by rw [elsewhere place moved, found]⟩
    · obtain rfl := List.mem_singleton.mp new
      exact ⟨handle, here⟩
  · intro first second flow one other
    by_cases mine : flow = packet.connection.canonical
    · subst mine
      rw [only first one, only second other]
    · have stays : ∀ place, after.flow? place = some flow → table.flow? place = some flow := by
        intro place found
        rw [← elsewhere place, found]
        rintro rfl
        exact mine (Option.some.inj (found.symm.trans here))
      exact tallies.single first second flow (stays first one) (stays second other)
  · intro place stored total found
    by_cases changed : place = handle
    · subst changed
      obtain ⟨rfl, rfl⟩ := Prod.mk.inj (Option.some.inj (found.symm.trans now))
      rw [List.filter_append, List.filter_singleton, own, cond_true, counted]
    · have foreign : packet.isOf stored = false := by
        rw [Bool.eq_false_iff]
        intro mine
        have same := Packet.isOf_iff.mp mine
        exact changed (only place (by rw [flow?_of_get? found, same]))
      rw [kept place changed] at found
      rw [List.filter_append, List.filter_singleton, foreign, cond_false, List.append_nil,
        tallies.counted place stored total found]

/-- Merging a packet into the counters of its flow's item counts it. -/
theorem Tallies.merge (tallies : table.Tallies packets) {key : Connection} {counters : FlowCounters}
    (stored : table.get? handle = some (key, counters)) (own : packet.isOf key) :
    (table.updateYield handle (·.merge packet.counters)).2.Tallies (packets ++ [packet]) := by
  have flow : table.flow? handle = some packet.connection.canonical := by
    rw [flow?_of_get? stored, Packet.isOf_iff.mp own]
  have now : (table.updateYield handle (·.merge packet.counters)).2.get? handle =
      some (key, counters.merge packet.counters) := by
    rw [get?_updateYield, if_pos rfl, stored]
    rfl
  refine tallies.append own now ?_ ?_ ?_ ?_
  · intro other away
    rw [get?_updateYield, if_neg (Ne.symm away)]
  · intro same found
    exact Option.some.inj (found.symm.trans flow)
  · intro other found
    exact tallies.single other handle _ found flow
  · rw [FlowCounters.total?_append_singleton, tallies.counted handle key counters stored]
    rfl

/-- Inserting the first packet of a flow counts it. -/
theorem Tallies.insert (tallies : table.Tallies packets) {after : Table Connection FlowCounters}
    (new : ∀ handle, table.flow? handle ≠ some packet.connection.canonical)
    (stored : ∀ other, after.get? other = if other = table.items.fresh then
      some (packet.connection, packet.counters) else table.get? other) :
    after.Tallies (packets ++ [packet]) := by
  have unseen : packets.filter (·.isOf packet.connection) = [] := by
    rw [List.filter_eq_nil_iff]
    intro member listed mine
    obtain ⟨handle, found⟩ := tallies.covered member listed
    exact new handle (Packet.isOf_iff.mp mine ▸ found)
  refine tallies.append (Packet.isOf_iff.mpr rfl) (by rw [stored, if_pos rfl]) ?_ ?_ ?_ ?_
  · intro other away
    rw [stored, if_neg away]
  · intro flow found
    simp [flow?, key?, get?] at found
  · intro other found
    exact absurd found (new other)
  · rw [unseen]
    rfl

variable {allows : Allocator}

/-- Counting one more packet updates an item or inserts one. -/
theorem Tallies.countPacket (tallies : table.Tallies packets) (wellFormed : table.WellFormed)
    (packet : Packet)
    (granted : (table.perform allows (table.countingCommand packet)).answer.isRefused = false) :
    let done := table.perform allows (table.countingCommand packet)
    (done.answer = .updated true ∨ ∃ handle, done.answer = .inserted (.ok handle)) ∧
      done.state.Tallies (packets ++ [packet]) := by
  cases found : table.lookup (some packet.connection) none with
  | some handle =>
    have flow := (tallies.lookup_eq_some_iff wellFormed).mp found
    obtain ⟨key, counters, stored, same⟩ := exists_get?_of_flow? flow
    have present : (table.items.get? handle).isSome := by
      rw [← isSome_flow?, flow, Option.isSome_some]
    rw [countingCommand, found]
    exact ⟨.inl (congrArg Reply.updated present),
      tallies.merge stored (Packet.isOf_iff.mpr same.symm)⟩
  | none =>
    -- The flow has no item, hence no pair with this connection can be a duplicate.
    have new : ∀ handle, table.flow? handle ≠ some packet.connection.canonical := by
      intro handle flow
      rw [← tallies.lookup_eq_some_iff wellFormed, found] at flow
      cases flow
    have unfound : table.contains (some packet.connection) (some packet.counters) = false := by
      rw [Bool.eq_false_iff, contains, Ne, wellFormed.isSome_lookup]
      rintro ⟨handle, admitted⟩
      obtain ⟨pair, held, same, _⟩ := admits_iff.mp admitted
      exact new handle (admits_iff_flow?.mp (admits_iff.mpr ⟨pair, held, same, rfl⟩))
    have growth := sameContents_grow table allows
    have asked : table.countingCommand packet =
        .insertOwned packet.connection packet.counters := by
      rw [countingCommand, found]
    rw [asked] at granted ⊢
    have inserted : table.insertOwned allows packet.connection packet.counters = _ :=
      insertHeld_of_granted unfound granted
    rw [perform, inserted]
    refine ⟨.inr ⟨_, rfl⟩, tallies.insert new fun other => ?_⟩
    rw [get?_link, growth.fresh, growth.get?]
    rfl

/-! ## Streams of packets -/

/-- Counting packets one after another counts them all. -/
theorem Tallies.countPackets (tallies : table.Tallies packets) (wellFormed : table.WellFormed)
    (later : List Packet)
    (granted : ∀ reply ∈ (table.countPackets allows later).answer, reply.isRefused = false) :
    let done := table.countPackets allows later
    done.answer.length = later.length ∧
      (∀ reply ∈ done.answer,
        reply = .updated true ∨ ∃ handle, reply = .inserted (.ok handle)) ∧
      done.state.WellFormed ∧ done.state.Tallies (packets ++ later) := by
  induction later generalizing table packets with
  | nil => exact ⟨rfl, nofun, wellFormed, packets.append_nil.symm ▸ tallies⟩
  | cons packet rest ih =>
    simp only [Table.countPackets, List.forall_mem_cons] at granted
    obtain ⟨answer, next⟩ := tallies.countPacket wellFormed packet granted.1
    obtain ⟨length, answers, fits, all⟩ := ih next (wellFormed.perform allows _) granted.2
    refine ⟨congrArg (· + 1) length, List.forall_mem_cons.mpr ⟨answer, answers⟩, fits, ?_⟩
    rwa [List.append_assoc, List.singleton_append] at all

/-- A new table has counted no packet. -/
theorem tallies_of_make {strategy : Strategy} {options : TableOptions}
    (made : (make allows strategy options).1 = .ok table) : table.Tallies [] := by
  have empty : ∀ handle, table.get? handle = none := by
    intro handle
    rw [eq_ofSize_of_make made]
    simp [get?, ofSize]
  constructor
  · intro packet listed
    cases listed
  · intro first second flow found
    simp [flow?, key?, empty] at found
  · intro handle key counters found
    simp [empty] at found

namespace Tallies

/-- Every item is of a flow that was seen. -/
theorem exists_isOf (tallies : table.Tallies packets) {key : Connection} {counters : FlowCounters}
    (stored : table.get? handle = some (key, counters)) : ∃ packet ∈ packets, packet.isOf key := by
  have total := tallies.counted handle key counters stored
  cases seen : packets.filter (·.isOf key) with
  | nil =>
    rw [seen] at total
    cases total
  | cons packet rest =>
    have member : packet ∈ packets.filter (·.isOf key) := seen ▸ List.mem_cons_self
    exact ⟨packet, List.mem_filter.mp member⟩

/-- There are as many items as different connections without direction. -/
theorem size_eq (tallies : table.Tallies packets) :
    table.size = (packets.map (·.connection.canonical)).toFinset.card := by
  have once : (table.items.live.filterMap table.flow?).Nodup :=
    table.items.nodup_live.filterMap fun first second flow here there =>
      tallies.single first second flow here there
  have all : (table.items.live.filterMap table.flow?).toFinset =
      (packets.map (·.connection.canonical)).toFinset := by
    ext flow
    simp only [List.mem_toFinset, List.mem_filterMap, List.mem_map]
    constructor
    · rintro ⟨handle, -, found⟩
      obtain ⟨key, counters, stored, rfl⟩ := exists_get?_of_flow? found
      obtain ⟨packet, listed, own⟩ := tallies.exists_isOf stored
      exact ⟨packet, listed, Packet.isOf_iff.mp own⟩
    · rintro ⟨packet, listed, rfl⟩
      obtain ⟨handle, found⟩ := tallies.covered packet listed
      refine ⟨handle, Arena.mem_live.mpr ?_, found⟩
      rw [← isSome_flow?, found, Option.isSome_some]
  rw [← all, List.toFinset_card_of_nodup once, List.filterMap_length_eq_length.mpr, size,
    Arena.length_live]
  intro handle member
  rw [isSome_flow?]
  exact Arena.mem_live.mp member

/-- A packet's flow has exactly one item. -/
theorem existsUnique_item (tallies : table.Tallies packets) (listed : packet ∈ packets) :
    ∃! handle, ∃ stored, table.get? handle = some stored ∧ packet.isOf stored.1 := by
  obtain ⟨handle, found⟩ := tallies.covered packet listed
  obtain ⟨key, counters, stored, same⟩ := exists_get?_of_flow? found
  refine ⟨handle, ⟨_, stored, Packet.isOf_iff.mpr same.symm⟩, ?_⟩
  rintro other ⟨⟨key, counters⟩, stored, own⟩
  refine tallies.single other handle _ ?_ found
  rw [flow?_of_get? stored, Packet.isOf_iff.mp own]

/-- Both directions of a connection are found at one item. -/
theorem lookup_reversed (tallies : table.Tallies packets) (wellFormed : table.WellFormed)
    (connection : Connection) :
    table.lookup (some connection.reversed) none = table.lookup (some connection) none := by
  ext handle
  rw [tallies.lookup_eq_some_iff wellFormed, tallies.lookup_eq_some_iff wellFormed,
    Connection.canonical_reversed]

/-- The counters of a connection are those of its flow's packets. -/
theorem countersOf?_eq (tallies : table.Tallies packets) (wellFormed : table.WellFormed)
    (connection : Connection) : table.countersOf? connection =
      FlowCounters.total? (packets.filter (·.isOf connection)) := by
  cases found : table.lookup (some connection) none with
  | none =>
    have unseen : packets.filter (·.isOf connection) = [] := by
      rw [List.filter_eq_nil_iff]
      intro packet listed own
      obtain ⟨handle, flow⟩ := tallies.covered packet listed
      rw [Packet.isOf_iff.mp own, ← tallies.lookup_eq_some_iff wellFormed, found] at flow
      cases flow
    rw [countersOf?, found, unseen]
    rfl
  | some handle =>
    obtain ⟨key, counters, stored, same⟩ :=
      exists_get?_of_flow? ((tallies.lookup_eq_some_iff wellFormed).mp found)
    have flow : packets.filter (·.isOf connection) = packets.filter (·.isOf key) := by
      apply List.filter_congr
      intro packet _
      rw [Bool.eq_iff_iff, Packet.isOf_iff, Packet.isOf_iff, same]
    rw [countersOf?, found, flow, tallies.counted handle key counters stored, Option.bind_some,
      yield?, stored, Option.map_some]

end Tallies

/-- Counting packets in a new table is exact, as long as no array is refused. Every packet is merged
into an item or inserted, none of them as a duplicate. In the end there is one item for each connection
without direction, and its counters are those of the packets seen on the connection from either side.
The numbers of packets are the same for any other table and any other order of the packets. -/
theorem flows_of_countPackets {reserves allows : Allocator} {strategy : Strategy}
    {options : TableOptions} (made : (make reserves strategy options).1 = .ok table)
    (packets : List Packet)
    (granted : ∀ reply ∈ (table.countPackets allows packets).answer, reply.isRefused = false) :
    let done := table.countPackets allows packets
    (done.answer.length = packets.length ∧ ∀ reply ∈ done.answer,
      reply = .updated true ∨ ∃ handle, reply = .inserted (.ok handle)) ∧
    done.state.size = (packets.map (·.connection.canonical)).toFinset.card ∧
    (∀ packet ∈ packets, ∃! handle, ∃ stored,
      done.state.get? handle = some stored ∧ packet.isOf stored.1) ∧
    (∀ handle key counters, done.state.get? handle = some (key, counters) →
      (∃ packet ∈ packets, packet.isOf key) ∧ counters.Counts (packets.filter (·.isOf key))) ∧
    (∀ connection,
      done.state.lookup (some connection.reversed) none =
        done.state.lookup (some connection) none ∧
      done.state.countersOf? connection =
        FlowCounters.total? (packets.filter (·.isOf connection))) ∧
    ∀ {second available : Allocator} {otherStrategy : Strategy} {otherOptions : TableOptions}
      {other : Table Connection FlowCounters} {others : List Packet},
      (make second otherStrategy otherOptions).1 = .ok other →
      (∀ reply ∈ (other.countPackets available others).answer, reply.isRefused = false) →
      packets.Perm others → ∀ connection,
        ((other.countPackets available others).state.countersOf? connection).map
            FlowCounters.packetCounts =
          (done.state.countersOf? connection).map FlowCounters.packetCounts := by
  intro done
  obtain ⟨length, answers, wellFormed, tallies⟩ :=
    (tallies_of_make made).countPackets (wellFormed_of_make made) packets granted
  refine ⟨⟨length, answers⟩, tallies.size_eq, fun packet => tallies.existsUnique_item, ?_, ?_, ?_⟩
  · intro handle key counters stored
    exact ⟨tallies.exists_isOf stored,
      FlowCounters.counts_of_total? (tallies.counted handle key counters stored)⟩
  · intro connection
    exact ⟨tallies.lookup_reversed wellFormed connection,
      tallies.countersOf?_eq wellFormed connection⟩
  · intro second available otherStrategy otherOptions other others madeOther granted perm connection
    obtain ⟨-, -, fits, all⟩ :=
      (tallies_of_make madeOther).countPackets (wellFormed_of_make madeOther) others granted
    rw [all.countersOf?_eq fits, tallies.countersOf?_eq wellFormed]
    exact (FlowCounters.packetCounts_total?_perm (perm.filter _)).symm

/-- Five packets of two flows, both seen from both sides, in a table that grows twice on the way and
whose hash puts all items into one chain. -/
theorem flows_of_countPackets_both_sides :
    let options : TableOptions := ⟨16, ⟨0x3d000000⟩, true, true⟩
    let start : Table Connection FlowCounters := ofSize (fun _ => 7) options 16
    let here : Connection := ⟨⟨0x01020304, 101⟩, ⟨0x05060708, 102⟩, 11⟩
    let there : Connection := ⟨⟨7, 900⟩, ⟨7, 80⟩, 6⟩
    let size : Double := ⟨0x4059000000000000⟩
    let packets : List Packet := [⟨here, size, true⟩, ⟨here.reversed, size, false⟩,
      ⟨there, size, true⟩, ⟨here, size, true⟩, ⟨there.reversed, size, true⟩]
    let done := start.countPackets (fun _ => true) packets
    (make (fun _ => true) (fun _ => 7) options).1 = .ok start ∧
      (∀ reply ∈ done.answer, reply.isRefused = false) ∧
      done.state.bucketCount = 64 ∧ done.state.size = 2 ∧
      done.state.lookup (some here.reversed) none = done.state.lookup (some here) none ∧
      (done.state.countersOf? here).map FlowCounters.packetCounts = some (3, 2, 1) ∧
      (done.state.countersOf? there).map FlowCounters.packetCounts = some (2, 2, 0) := by
  intro options start here there size packets done
  have made : (make (fun _ => true) (fun _ => 7) options).1 = .ok start := by cbv
  have granted : ∀ reply ∈ (start.countPackets (fun _ => true) packets).answer,
      reply.isRefused = false := by
    decide +kernel
  have grown : (start.countPackets (fun _ => true) packets).state.bucketCount = 64 := by
    decide +kernel
  obtain ⟨-, flows, -, -, found, -⟩ := flows_of_countPackets made packets granted
  refine ⟨made, granted, grown, flows.trans (by decide), (found here).1, ?_, ?_⟩
  · rw [(found here).2]
    rfl
  · rw [(found there).2]
    rfl

end Table

end ChainedMultimap
