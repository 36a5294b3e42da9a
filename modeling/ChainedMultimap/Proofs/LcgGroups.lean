import ChainedMultimap.Hash.Lcg
import Mathlib

/-!
# The linear-congruential hash, group by group

The hash of a byte string is the exclusive or of the hashes of its groups of four, and the hash of a
group is one linear-congruential step from the number that its bytes spell. Exclusive or forgets the
order of the groups and cancels equal ones, so the hash does too; only where the groups begin is
remembered, and of the zeros in front of a short last group not even that.
-/

namespace ChainedMultimap

namespace Bytes

/-- The number whose base-256 digits, highest first, are the given bytes. -/
def toNumber (bytes : Bytes) : Nat := Nat.ofDigits 256 (bytes.reverse.map UInt8.toNat)

/-- The group of four at a place, as far as there are bytes for it. -/
def group (bytes : Bytes) (place : Nat) : Bytes := (bytes.drop (4 * place)).take 4

/-- How many groups of four there are, a short last one among them. -/
def groupCount (bytes : Bytes) : Nat := (bytes.length + 3) / 4

/-! ## Numbers -/

/-- One more byte is one more digit to the base 256. -/
theorem toNumber_append_singleton (bytes : Bytes) (byte : UInt8) :
    toNumber (bytes ++ [byte]) = toNumber bytes * 256 + byte.toNat := by
  rw [toNumber, List.reverse_append, List.reverse_singleton, List.singleton_append, List.map_cons,
    Nat.ofDigits_cons, toNumber]
  omega

/-- Shifting a word by a byte and filling in the byte is a step of base 256. -/
theorem toNat_shiftLeft_or_byte (word : UInt32) (byte : UInt8) :
    ((word <<< 8) ||| byte.toUInt32).toNat = (word.toNat * 256 + byte.toNat) % 2 ^ 32 := by
  have small : byte.toNat < 2 ^ 8 := byte.toNat_lt
  have disjoint := Nat.two_pow_add_eq_or_of_lt small (word.toNat % 2 ^ 24)
  have shifted : (word <<< 8).toNat = 2 ^ 8 * (word.toNat % 2 ^ 24) := by
    rw [UInt32.toNat_shiftLeft, Nat.shiftLeft_eq]
    change word.toNat * 2 ^ 8 % 2 ^ 32 = _
    omega
  rw [UInt32.toNat_or, shifted, UInt8.toNat_toUInt32, ← disjoint]
  omega

/-- A word read from bytes is the number that they spell, modulo the word's range. -/
theorem toNat_toNumber32 (bytes : Bytes) : (toNumber32 bytes).toNat = toNumber bytes % 2 ^ 32 := by
  induction bytes using List.reverseRecOn with
  | nil => rfl
  | append_singleton bytes byte ih =>
    have last : toNumber32 (bytes ++ [byte]) = (toNumber32 bytes <<< 8) ||| byte.toUInt32 := by
      rw [toNumber32, List.foldl_append]
      rfl
    rw [last, toNat_shiftLeft_or_byte, ih, toNumber_append_singleton]
    omega

/-- Zeros in front do not count. -/
theorem toNumber32_replicate_append (zeros : Nat) (bytes : Bytes) :
    toNumber32 (List.replicate zeros 0 ++ bytes) = toNumber32 bytes := by
  induction zeros with
  | zero => rfl
  | succ zeros ih =>
    rw [← ih]
    rfl

/-! ## Groups -/

/-- Four bytes in front are a group of their own. -/
theorem groupsOfFour_append_of_length_eq {front : Bytes} (whole : front.length = 4) (rest : Bytes) :
    groupsOfFour (front ++ rest) = front :: groupsOfFour rest := by
  obtain ⟨b0, b1, b2, b3, rfl⟩ := List.length_eq_four.mp whole
  rfl

/-- One to four bytes are one group. -/
theorem groupsOfFour_of_length_le {bytes : Bytes} (present : 0 < bytes.length)
    (few : bytes.length ≤ 4) : groupsOfFour bytes = [bytes] := by
  rcases bytes with _ | ⟨b0, _ | ⟨b1, _ | ⟨b2, _ | ⟨b3, rest⟩⟩⟩⟩
  · exact absurd present (Nat.lt_irrefl 0)
  · rfl
  · rfl
  · rfl
  · have nothing : rest.length = 0 := by
      simp only [List.length_cons] at few
      omega
    obtain rfl := List.length_eq_zero_iff.mp nothing
    rfl

/-- A byte string is gone through group after group, until fewer than four bytes are left. -/
theorem fours_induction {motive : Bytes → Prop}
    (short : ∀ bytes : Bytes, bytes.length < 4 → motive bytes)
    (whole : ∀ front rest : Bytes, front.length = 4 → motive rest → motive (front ++ rest))
    (bytes : Bytes) : motive bytes := by
  induction length : bytes.length using Nat.strong_induction_on generalizing bytes with
  | h total ih =>
    by_cases few : bytes.length < 4
    · exact short bytes few
    · have front : (bytes.take 4).length = 4 := by
        rw [List.length_take]
        omega
      have fewer : (bytes.drop 4).length < total := by
        rw [List.length_drop]
        omega
      rw [← List.take_append_drop 4 bytes]
      exact whole _ _ front (ih _ fewer _ rfl)

/-- Cutting a byte string into groups of four gives the group at every place in turn. -/
theorem groupsOfFour_eq_map_group (bytes : Bytes) :
    groupsOfFour bytes = (List.range (groupCount bytes)).map (group bytes) := by
  induction bytes using fours_induction with
  | short bytes few =>
    by_cases present : 0 < bytes.length
    · have count : groupCount bytes = 1 := by
        rw [groupCount]
        omega
      have first : group bytes 0 = bytes := List.take_of_length_le (Nat.le_of_lt few)
      rw [groupsOfFour_of_length_le present (Nat.le_of_lt few), count, List.range_one,
        List.map_singleton, first]
    · obtain rfl : bytes = [] := List.length_eq_zero_iff.mp (Nat.eq_zero_of_not_pos present)
      rfl
  | whole front rest four ih =>
    have count : groupCount (front ++ rest) = groupCount rest + 1 := by
      rw [groupCount, List.length_append, groupCount]
      omega
    have first : group (front ++ rest) 0 = front := List.take_left' four
    have behind : group (front ++ rest) ∘ Nat.succ = group rest := by
      funext place
      rw [Function.comp_apply, group, Nat.mul_succ, Nat.add_comm, ← List.drop_drop,
        List.drop_left' four, group]
    rw [groupsOfFour_append_of_length_eq four, count, List.range_succ_eq_map, List.map_cons,
      List.map_map, first, behind, ih]

/-- What is cut off in whole groups does not change how the rest is cut. -/
theorem groupsOfFour_append {front : Bytes} (aligned : 4 ∣ front.length) (rest : Bytes) :
    groupsOfFour (front ++ rest) = groupsOfFour front ++ groupsOfFour rest := by
  induction front using fours_induction with
  | short front few =>
    obtain rfl : front = [] := List.length_eq_zero_iff.mp (Nat.eq_zero_of_dvd_of_lt aligned few)
    rfl
  | whole first front four ih =>
    have shorter : 4 ∣ front.length := by
      rw [List.length_append] at aligned
      omega
    rw [List.append_assoc, groupsOfFour_append_of_length_eq four,
      groupsOfFour_append_of_length_eq four, ih shorter, List.cons_append]

/-- The whole groups in turn, and what is left behind them. -/
theorem flatMap_group_append (bytes : Bytes) :
    (List.range (bytes.length / 4)).flatMap bytes.group ++ bytes.drop (4 * (bytes.length / 4)) =
      bytes := by
  have front : ∀ count, (List.range count).flatMap bytes.group = bytes.take (4 * count) := by
    intro count
    induction count with
    | zero => rfl
    | succ count ih =>
      rw [List.range_succ, List.flatMap_append, ih, List.flatMap_singleton, group, Nat.mul_succ,
        List.take_add]
  rw [front, List.take_append_drop]

/-- A whole group has four bytes. -/
theorem length_group {bytes : Bytes} {place : Nat} (whole : place < bytes.length / 4) :
    (bytes.group place).length = 4 := by
  rw [group, List.length_take, List.length_drop]
  omega

end Bytes

/-- The exclusive or of several words. -/
def Word.xorAll (words : List UInt32) : UInt32 := words.foldr (· ^^^ ·) 0

namespace Word

/-- An exclusive or from left to right may take in its start last. -/
theorem foldl_xor_eq (words : List UInt32) (start : UInt32) :
    words.foldl (· ^^^ ·) start = start ^^^ xorAll words := by
  induction words generalizing start with
  | nil => exact (UInt32.xor_zero).symm
  | cons word rest ih =>
    rw [List.foldl_cons, ih, UInt32.xor_assoc]
    rfl

/-- The exclusive or of one word is the word. -/
theorem xorAll_singleton (word : UInt32) : xorAll [word] = word := UInt32.xor_zero

/-- The exclusive or of two lists is that of their own. -/
theorem xorAll_append (words others : List UInt32) :
    xorAll (words ++ others) = xorAll words ^^^ xorAll others := by
  induction words with
  | nil => exact (UInt32.zero_xor).symm
  | cons word rest ih =>
    change word ^^^ xorAll (rest ++ others) = word ^^^ xorAll rest ^^^ xorAll others
    rw [ih, UInt32.xor_assoc]

/-- Exclusive or forgets the order. -/
theorem xorAll_perm {words others : List UInt32} (perm : words.Perm others) :
    xorAll words = xorAll others := perm.foldr_eq 0

/-- The exclusive or of words is that of their numbers. -/
theorem toNat_xorAll (words : List UInt32) :
    (xorAll words).toNat = (words.map UInt32.toNat).foldr (· ^^^ ·) 0 := by
  induction words with
  | nil => rfl
  | cons word rest ih =>
    rw [List.map_cons, List.foldr_cons, ← ih]
    exact UInt32.toNat_xor word (xorAll rest)

end Word

namespace Lcg

open Bytes Word

/-- A step in numbers. -/
theorem toNat_step (number : UInt32) :
    (step number).toNat = (1664525 * number.toNat + 1013904223) % 2 ^ 32 := by
  rw [step, UInt32.toNat_add, UInt32.toNat_mul]
  change (number.toNat * 1664525 % 2 ^ 32 + 1013904223) % 2 ^ 32 = _
  omega

/-- A step from a word read from bytes, in numbers. -/
theorem toNat_step_toNumber32 (bytes : Bytes) :
    (step (toNumber32 bytes)).toNat = (1664525 * bytes.toNumber + 1013904223) % 2 ^ 32 := by
  rw [toNat_step, toNat_toNumber32]
  omega

/-- The hash is the exclusive or of what the groups give. -/
theorem hash_eq_xorAll (bytes : Bytes) :
    hash bytes = xorAll ((groupsOfFour bytes).map fun group => step (toNumber32 group)) := by
  have folded := foldl_xor_eq ((groupsOfFour bytes).map fun group => step (toNumber32 group)) 0
  rwa [List.foldl_map, UInt32.zero_xor] at folded

/-- One to four bytes take one step. -/
theorem hash_of_length_le {bytes : Bytes} (present : 0 < bytes.length) (few : bytes.length ≤ 4) :
    hash bytes = step (toNumber32 bytes) := by
  rw [hash_eq_xorAll, groupsOfFour_of_length_le present few, List.map_singleton, xorAll_singleton]

/-- What stands in whole groups in front of the rest is hashed on its own. -/
theorem hash_append {front : Bytes} (aligned : 4 ∣ front.length) (rest : Bytes) :
    hash (front ++ rest) = hash front ^^^ hash rest := by
  rw [hash_eq_xorAll, groupsOfFour_append aligned, List.map_append, xorAll_append,
    ← hash_eq_xorAll, ← hash_eq_xorAll]

/-- Whole groups in front of the rest are hashed one by one. -/
theorem hash_flatten_append {groups : List Bytes} (whole : ∀ group ∈ groups, group.length = 4)
    (rest : Bytes) : hash (groups.flatten ++ rest) = xorAll (groups.map hash) ^^^ hash rest := by
  induction groups with
  | nil => exact (UInt32.zero_xor).symm
  | cons group groups ih =>
    obtain ⟨four, others⟩ := List.forall_mem_cons.mp whole
    rw [List.flatten_cons, List.append_assoc, hash_append (Dvd.intro 1 four.symm), ih others,
      ← UInt32.xor_assoc]
    rfl

/-- Whole groups may change places. -/
theorem hash_flatten_append_perm {groups others : List Bytes} (perm : groups.Perm others)
    (whole : ∀ group ∈ groups, group.length = 4) (rest : Bytes) :
    hash (groups.flatten ++ rest) = hash (others.flatten ++ rest) := by
  have whole' : ∀ group ∈ others, group.length = 4 := fun group member =>
    whole group (perm.mem_iff.mpr member)
  rw [hash_flatten_append whole, hash_flatten_append whole', xorAll_perm (perm.map hash)]

/-- The hash in numbers: one step for every group, joined by exclusive or. -/
theorem toNat_hash (bytes : Bytes) : (hash bytes).toNat =
    ((List.range bytes.groupCount).map fun place =>
      (1664525 * (bytes.group place).toNumber + 1013904223) % 2 ^ 32).foldr (· ^^^ ·) 0 := by
  rw [hash_eq_xorAll, toNat_xorAll, groupsOfFour_eq_map_group, List.map_map, List.map_map]
  simp only [Function.comp_def, toNat_step_toNumber32]

/-- The whole groups of a byte string may change places. -/
theorem hash_flatMap_group (bytes : Bytes) {order : List Nat}
    (perm : order.Perm (List.range (bytes.length / 4))) :
    hash (order.flatMap bytes.group ++ bytes.drop (4 * (bytes.length / 4))) = hash bytes := by
  have whole : ∀ group ∈ order.map bytes.group, group.length = 4 := by
    intro group member
    obtain ⟨place, inside, rfl⟩ := List.mem_map.mp member
    exact length_group (List.mem_range.mp (perm.mem_iff.mp inside))
  have reordered := hash_flatten_append_perm (perm.map bytes.group) whole
    (bytes.drop (4 * (bytes.length / 4)))
  rwa [← List.flatMap_def, ← List.flatMap_def, flatMap_group_append] at reordered

/-- Two equal whole groups may be left out. -/
theorem hash_cancel {front group between : Bytes} (aligned : 4 ∣ front.length)
    (four : group.length = 4) (aligned' : 4 ∣ between.length) (rest : Bytes) :
    hash (front ++ group ++ between ++ group ++ rest) = hash (front ++ between ++ rest) := by
  have whole : 4 ∣ group.length := Dvd.intro 1 four.symm
  have twice : hash group ^^^ (hash between ^^^ (hash group ^^^ hash rest)) =
      hash between ^^^ hash rest := by
    rw [← UInt32.xor_assoc, UInt32.xor_comm (hash group) (hash between), UInt32.xor_assoc,
      ← UInt32.xor_assoc (hash group), UInt32.xor_self, UInt32.zero_xor]
  simp only [List.append_assoc]
  rw [hash_append aligned, hash_append whole, hash_append aligned', hash_append whole, twice,
    hash_append aligned, hash_append aligned']

/-- A last group that is short counts as if zeros stood in front of it. -/
theorem hash_padded {front group : Bytes} (aligned : 4 ∣ front.length) (present : 0 < group.length)
    (short : group.length < 4) :
    hash (front ++ group) = hash (front ++ (List.replicate (4 - group.length) 0 ++ group)) := by
  have padded : (List.replicate (4 - group.length) 0 ++ group).length = 4 := by
    rw [List.length_append, List.length_replicate]
    omega
  rw [hash_append aligned, hash_append aligned, hash_of_length_le present (Nat.le_of_lt short),
    hash_of_length_le (by omega) (Nat.le_of_eq padded), toNumber32_replicate_append]

/-- Laws of the linear-congruential hash, for byte strings of any length.

The hash is the exclusive or, over the groups of four in turn with a short last one, of one step from
the number that the group spells. A front part of whole groups is hashed apart from the rest. Whole
groups may change places, and two equal ones may be left out, wherever they stand. A last group of
one to three bytes counts as if zeros stood in front of it. -/
theorem hash_groupwise :
    (∀ bytes : Bytes, (hash bytes).toNat =
      ((List.range bytes.groupCount).map fun place =>
        (1664525 * (bytes.group place).toNumber + 1013904223) % 2 ^ 32).foldr (· ^^^ ·) 0) ∧
    (∀ front rest : Bytes, 4 ∣ front.length → hash (front ++ rest) = hash front ^^^ hash rest) ∧
    (∀ (bytes : Bytes) (order : List Nat), order.Perm (List.range (bytes.length / 4)) →
      hash (order.flatMap bytes.group ++ bytes.drop (4 * (bytes.length / 4))) = hash bytes) ∧
    (∀ front group between rest : Bytes, 4 ∣ front.length → group.length = 4 →
      4 ∣ between.length →
        hash (front ++ group ++ between ++ group ++ rest) = hash (front ++ between ++ rest)) ∧
    ∀ front group : Bytes, 4 ∣ front.length → 0 < group.length → group.length < 4 →
      hash (front ++ group) =
        hash (front ++ (List.replicate (4 - group.length) 0 ++ group)) := by
  refine ⟨toNat_hash, ?_, ?_, ?_, ?_⟩
  · intro front rest aligned
    exact hash_append aligned rest
  · intro bytes order perm
    exact hash_flatMap_group bytes perm
  · intro front group between rest aligned four aligned'
    exact hash_cancel aligned four aligned' rest
  · intro front group aligned present short
    exact hash_padded aligned present short

/-- Two whole groups and one byte: the groups change places, one of them is put in twice more, and
the last byte is the number two whether or not zeros stand in front of it. -/
theorem hash_groupwise_nine :
    let bytes : Bytes := [0, 0, 0, 1, 9, 8, 7, 6, 2]
    [1, 0].Perm (List.range (bytes.length / 4)) ∧
      hash [9, 8, 7, 6, 0, 0, 0, 1, 2] = hash bytes ∧
      4 ∣ ([0, 0, 0, 1] : Bytes).length ∧
      hash [0, 0, 0, 1, 9, 8, 7, 6, 2] = hash [0, 0, 0, 1] ^^^ hash [9, 8, 7, 6, 2] ∧
      4 ∣ ([] : Bytes).length ∧
      hash [9, 8, 7, 6, 0, 0, 0, 1, 9, 8, 7, 6, 2] = hash [0, 0, 0, 1, 2] ∧
      hash [0, 0, 0, 1, 2] = hash [0, 0, 0, 1, 0, 0, 0, 2] ∧
      hash [0, 0, 0, 1, 2] = 1015568748 ^^^ 1017233273 := by
  intro bytes
  obtain ⟨-, apart, moved, cancelled, padded⟩ := hash_groupwise
  have order : [1, 0].Perm (List.range (bytes.length / 4)) := by decide
  have aligned : 4 ∣ ([0, 0, 0, 1] : Bytes).length := by decide
  have empty : 4 ∣ ([] : Bytes).length := by decide
  have swapped : [1, 0].flatMap bytes.group ++ bytes.drop (4 * (bytes.length / 4)) =
      [9, 8, 7, 6, 0, 0, 0, 1, 2] := by decide
  refine ⟨order, ?_, aligned, apart [0, 0, 0, 1] [9, 8, 7, 6, 2] aligned, empty,
    cancelled [] [9, 8, 7, 6] [0, 0, 0, 1] [2] empty rfl aligned,
    padded [0, 0, 0, 1] [2] aligned (by decide) (by decide), by decide⟩
  rw [← swapped]
  exact moved bytes [1, 0] order

end Lcg

end ChainedMultimap
