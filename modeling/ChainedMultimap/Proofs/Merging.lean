import ChainedMultimap.Proofs.Flows
import Mathlib

/-!
# Merged counters

Flow counters are merged two at a time, in an order and a grouping that the caller chooses, each group
from counters of its own that start at zero or at one of the operands. The numbers of packets are
words, whose addition wraps but loses nothing modulo `2 ^ 32`, so they come out as the sums of the
operands' numbers whatever was merged with which, and a balance between all packets and those of
either direction outlives every wrap.
-/

namespace ChainedMultimap

/-- A way to merge counters: what is merged with what, and in which order. -/
inductive Merging where
  /-- Counters that start at zero. -/
  | zero
  /-- Counters that are given. -/
  | operand (counters : FlowCounters)
  /-- The right counters merged into the left ones. -/
  | merge (left right : Merging)

namespace Merging

/-- The counters that are given, from left to right. -/
def operands : Merging → List FlowCounters
  | zero => []
  | operand counters => [counters]
  | merge left right => left.operands ++ right.operands

/-- What the counters are merged to. -/
def total : Merging → FlowCounters
  | zero => .zero
  | operand counters => counters
  | merge left right => left.total.merge right.total

/-- Given counters merged one after another into counters that start at zero. -/
def inOrder (operands : List FlowCounters) : Merging :=
  operands.foldl (fun merging counters => merging.merge (operand counters)) zero

/-- Merging one after another goes on from what a merging had, in operands as in the total. -/
theorem foldl_merge (operands : List FlowCounters) (start : Merging) :
    let merging := operands.foldl (fun merging counters => merging.merge (operand counters)) start
    merging.operands = start.operands ++ operands ∧
      merging.total = operands.foldl FlowCounters.merge start.total := by
  induction operands generalizing start with
  | nil => exact ⟨(List.append_nil _).symm, rfl⟩
  | cons counters rest ih =>
    obtain ⟨listed, total⟩ := ih (start.merge (operand counters))
    refine ⟨?_, total⟩
    rw [List.foldl_cons, listed, Merging.operands, List.append_assoc]
    rfl

/-- Merging in order takes each operand once, in order. -/
theorem operands_inOrder (operands : List FlowCounters) : (inOrder operands).operands = operands :=
  (foldl_merge operands zero).1

/-- Merging in order ends at the merge of all operands from left to right. -/
theorem total_inOrder (operands : List FlowCounters) :
    (inOrder operands).total = operands.foldl FlowCounters.merge .zero :=
  (foldl_merge operands zero).2

/-- A counter that merging adds up comes to the sum of the operands' counters modulo `2 ^ 32`. -/
theorem toNat_total (merging : Merging) {counter : FlowCounters → UInt32}
    (zero : counter .zero = 0)
    (merge : ∀ left right : FlowCounters, counter (left.merge right) = counter left + counter right) :
    (counter merging.total).toNat =
      (merging.operands.map fun counters => (counter counters).toNat).sum % 2 ^ 32 := by
  induction merging with
  | zero =>
    rw [total, zero]
    rfl
  | operand counters => exact (Nat.mod_eq_of_lt (counter counters).toNat_lt).symm
  | merge left right leftTotal rightTotal =>
    rw [total, merge, UInt32.toNat_add, leftTotal, rightTotal, operands, List.map_append,
      List.sum_append, ← Nat.add_mod]

end Merging

namespace FlowCounters

/-- Counters have the sums of several counters' numbers of packets, up to a multiple of `2 ^ 32`. -/
structure Sums (counters : FlowCounters) (operands : List FlowCounters) : Prop where
  /-- All packets are added up. -/
  packets : counters.packets.toNat = (operands.map (·.packets.toNat)).sum % 2 ^ 32
  /-- So are the forward ones. -/
  forwardPackets :
    counters.forwardPackets.toNat = (operands.map (·.forwardPackets.toNat)).sum % 2 ^ 32
  /-- So are the backward ones. -/
  backwardPackets :
    counters.backwardPackets.toNat = (operands.map (·.backwardPackets.toNat)).sum % 2 ^ 32

/-- Whatever the grouping, every counter of the total is the sum of that of the operands. -/
theorem sums_total (merging : Merging) : merging.total.Sums merging.operands where
  packets := merging.toNat_total rfl fun _ _ => rfl
  forwardPackets := merging.toNat_total rfl fun _ _ => rfl
  backwardPackets := merging.toNat_total rfl fun _ _ => rfl

/-- The order of the operands does not matter to their sums. -/
theorem Sums.of_perm {counters : FlowCounters} {operands others : List FlowCounters}
    (sums : counters.Sums operands) (perm : operands.Perm others) : counters.Sums others where
  packets := by rw [sums.packets, (perm.map _).sum_eq]
  forwardPackets := by rw [sums.forwardPackets, (perm.map _).sum_eq]
  backwardPackets := by rw [sums.backwardPackets, (perm.map _).sum_eq]

/-- The operands determine their sums. -/
theorem Sums.packetCounts_eq {counters other : FlowCounters} {operands : List FlowCounters}
    (sums : counters.Sums operands) (otherSums : other.Sums operands) :
    counters.packetCounts = other.packetCounts := by
  rw [packetCounts, packetCounts, Prod.mk.injEq, Prod.mk.injEq, ← UInt32.toNat_inj,
    ← UInt32.toNat_inj, ← UInt32.toNat_inj]
  exact ⟨sums.packets.trans otherSums.packets.symm,
    sums.forwardPackets.trans otherSums.forwardPackets.symm,
    sums.backwardPackets.trans otherSums.backwardPackets.symm⟩

/-- There are as many packets as forward and backward ones together, up to a multiple of `2 ^ 32`. -/
def Balanced (counters : FlowCounters) : Prop :=
  counters.packets.toNat =
    (counters.forwardPackets.toNat + counters.backwardPackets.toNat) % 2 ^ 32

instance : DecidablePred Balanced := fun _ => inferInstanceAs (Decidable (_ = _))

/-- Counters are balanced exactly if the packets are those of both directions, modulo `2 ^ 32`. -/
theorem balanced_iff {counters : FlowCounters} :
    counters.Balanced ↔ counters.packets = counters.forwardPackets + counters.backwardPackets := by
  rw [Balanced, ← UInt32.toNat_add, UInt32.toNat_inj]

/-- A single packet is counted in one direction. -/
theorem balanced_packet (size : Double) (forward : Bool) : (packet size forward).Balanced := by
  cases forward <;> rfl

/-- Balanced counters merge to balanced ones. -/
theorem Balanced.merge {left right : FlowCounters} (leftBalanced : left.Balanced)
    (rightBalanced : right.Balanced) : (left.merge right).Balanced := by
  rw [balanced_iff] at leftBalanced rightBalanced ⊢
  change left.packets + right.packets =
    left.forwardPackets + right.forwardPackets + (left.backwardPackets + right.backwardPackets)
  rw [leftBalanced, rightBalanced]
  ac_rfl

/-- Merging balanced counters keeps the balance. -/
theorem balanced_total (merging : Merging)
    (balanced : ∀ counters ∈ merging.operands, counters.Balanced) : merging.total.Balanced := by
  induction merging with
  | zero => rfl
  | operand counters => exact balanced counters (List.mem_singleton_self counters)
  | merge left right leftBalanced rightBalanced =>
    rw [Merging.operands, List.forall_mem_append] at balanced
    exact (leftBalanced balanced.1).merge (rightBalanced balanced.2)

/-- Merging is exact. However some counters are ordered and grouped, their numbers of packets come out
as the sums modulo `2 ^ 32`, the same as in any other order and grouping and as in one pass from zero.
If each of them is balanced, as the counters of every single packet are, so is the outcome. -/
theorem sums_of_merging {merging : Merging} {operands : List FlowCounters}
    (listed : merging.operands.Perm operands) :
    merging.total.Sums operands ∧
    (∀ other : Merging, other.operands.Perm operands →
      other.total.packetCounts = merging.total.packetCounts) ∧
    (operands.foldl FlowCounters.merge .zero).packetCounts = merging.total.packetCounts ∧
    ((∀ counters ∈ operands, counters.Balanced) → merging.total.Balanced) ∧
    ∀ size forward, (packet size forward).Balanced := by
  have sums := (sums_total merging).of_perm listed
  have same : ∀ other : Merging, other.operands.Perm operands →
      other.total.packetCounts = merging.total.packetCounts := fun other reordered =>
    ((sums_total other).of_perm reordered).packetCounts_eq sums
  refine ⟨sums, same, ?_, ?_, balanced_packet⟩
  · rw [← Merging.total_inOrder]
    exact same (.inOrder operands) (.of_eq (Merging.operands_inOrder operands))
  · intro balanced
    exact balanced_total merging fun counters member =>
      balanced counters (listed.mem_iff.mp member)

/-- A packet in each direction and counters that are about to wrap, merged in two groups of which one
starts at zero. All three numbers wrap, and they are as in one pass over the operands. -/
theorem sums_of_merging_wrapping :
    let size : Double := ⟨0x4059000000000000⟩
    let large : FlowCounters := ⟨0xffffffff, 0xffffffff, 0, size, size, .zero⟩
    let back : FlowCounters := ⟨0xffffffff, 0, 0xffffffff, size, .zero, size⟩
    let operands : List FlowCounters := [packet size true, packet size false, large, back]
    let merging : Merging := .merge (.merge (.operand back) (.operand (packet size true)))
      (.merge (.merge .zero (.operand (packet size false))) (.operand large))
    merging.operands.Perm operands ∧ (∀ counters ∈ operands, counters.Balanced) ∧
      merging.total.packetCounts = (0, 0, 0) ∧ merging.total.Balanced ∧
      (operands.foldl FlowCounters.merge .zero).packetCounts = (0, 0, 0) := by
  intro size large back operands merging
  have listed : merging.operands.Perm operands := by decide
  have balanced : ∀ counters ∈ operands, counters.Balanced := by decide
  have wrapped : merging.total.packetCounts = (0, 0, 0) := by decide
  obtain ⟨-, -, pass, outcome, -⟩ := sums_of_merging listed
  exact ⟨listed, balanced, wrapped, outcome balanced, pass.trans wrapped⟩

end FlowCounters

end ChainedMultimap
