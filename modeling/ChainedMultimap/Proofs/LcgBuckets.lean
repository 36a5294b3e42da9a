import ChainedMultimap.Proofs.LcgGroups
import ChainedMultimap.Proofs.Runs
import Mathlib

/-!
# Numbers that share a bucket

A number is written with its lowest byte first, and the linear-congruential hash reads the bytes with
the highest first, so what it steps from is the number with its bytes in reverse order. The factor of
the step is odd, so no step modulo a power of two loses anything: keys have one bucket exactly if their
reversed bytes spell numbers that agree modulo the bucket count. All hashes of numbers are different,
but a small bucket array looks at the highest byte of a key alone.
-/

namespace ChainedMultimap

namespace Word

/-- The byte of a word at a place, counted from the lowest. -/
def byte (word : UInt32) (place : Nat) : Nat := word.toNat / 256 ^ place % 256

/-- The number whose four bytes are those of a word in reverse order. -/
def reversed (word : UInt32) : Nat :=
  byte word 0 * 256 ^ 3 + byte word 1 * 256 ^ 2 + byte word 2 * 256 + byte word 3

/-- A byte is less than 256. -/
theorem byte_lt (word : UInt32) (place : Nat) : byte word place < 256 := Nat.mod_lt _ (by decide)

/-- A word is the number that its bytes spell. -/
theorem toNat_eq_bytes (word : UInt32) : word.toNat =
    byte word 3 * 256 ^ 3 + byte word 2 * 256 ^ 2 + byte word 1 * 256 + byte word 0 := by
  have small := word.toNat_lt
  simp only [byte]
  omega

/-- The number of a word read backwards has 32 bits. -/
theorem reversed_lt (word : UInt32) : reversed word < 2 ^ 32 := by
  have bound := byte_lt word
  have first := bound 0
  have second := bound 1
  have third := bound 2
  have last := bound 3
  rw [reversed]
  omega

/-- Reversing the bytes loses none of them. -/
theorem reversed_inj {left right : UInt32} (same : reversed left = reversed right) :
    left = right := by
  have digits : ∀ place < 4, byte left place = byte right place := by
    intro place inside
    have bound := byte_lt left
    have bound' := byte_lt right
    have low := bound 1; have low' := bound' 1
    have middle := bound 2; have middle' := bound' 2
    have high := bound 3; have high' := bound' 3
    rw [reversed, reversed] at same
    interval_cases place <;> omega
  apply UInt32.toNat_inj.mp
  rw [toNat_eq_bytes left, toNat_eq_bytes right, digits 0 (by decide), digits 1 (by decide),
    digits 2 (by decide), digits 3 (by decide)]

/-- The highest byte of a word is the lowest one in reverse. -/
theorem reversed_modEq (word : UInt32) : reversed word ≡ byte word 3 [MOD 256] := by
  rw [Nat.ModEq, reversed]
  omega

/-- Written with the lowest byte first and read with the highest first, a word is reversed. -/
theorem toNumber_ofWord32 (word : UInt32) : Bytes.toNumber (Bytes.ofWord32 word) = reversed word := by
  simp only [Bytes.toNumber, Bytes.ofWord32, List.reverse_cons, List.reverse_nil, List.nil_append,
    List.cons_append, List.map_cons, List.map_nil, Nat.ofDigits_cons, Nat.ofDigits_nil,
    UInt32.toNat_toUInt8, UInt32.toNat_shiftRight, Nat.shiftRight_eq_div_pow, reversed, byte,
    UInt32.reduceToNat, Nat.reduceMod, Nat.reducePow]
  omega

end Word

namespace Lcg

/-- The hash of a number is one step from its reversed bytes. -/
theorem toNat_hash_marshal (number : UnsignedInt) : (hash (Storable.marshal number)).toNat =
    (1664525 * Word.reversed number.value + 1013904223) % 2 ^ 32 := by
  have written : Storable.marshal number = Bytes.ofWord32 number.value := List.append_nil _
  have length : (Bytes.ofWord32 number.value).length = 4 := Bytes.length_ofWord32 number.value
  rw [written, hash_of_length_le (by omega) (Nat.le_of_eq length), toNat_step_toNumber32,
    Word.toNumber_ofWord32]

/-- The step from numbers loses nothing modulo a power of two, as its factor is odd. -/
theorem step_modEq_iff {exponent left right : Nat} :
    1664525 * left + 1013904223 ≡ 1664525 * right + 1013904223 [MOD 2 ^ exponent] ↔
      left ≡ right [MOD 2 ^ exponent] := by
  have odd : Nat.Coprime (2 ^ exponent) 1664525 := Nat.Coprime.pow_left exponent (by decide)
  constructor
  · intro agree
    exact (Nat.ModEq.add_right_cancel' _ agree).cancel_left_of_coprime odd
  · intro agree
    exact (agree.mul_left _).add_right _

/-- Below the range of words the hash of a number agrees with the step. -/
theorem hash_marshal_modEq (number : UnsignedInt) {exponent : Nat} (within : exponent ≤ 32) :
    (hash (Storable.marshal number)).toNat ≡ 1664525 * Word.reversed number.value + 1013904223
      [MOD 2 ^ exponent] := by
  rw [toNat_hash_marshal]
  exact (Nat.mod_modEq _ _).of_dvd (Nat.pow_dvd_pow 2 within)

/-- Hashes of numbers agree modulo a power of two exactly if the reversed bytes do. -/
theorem hash_marshal_modEq_iff {left right : UnsignedInt} {exponent : Nat} (within : exponent ≤ 32) :
    (hash (Storable.marshal left)).toNat ≡ (hash (Storable.marshal right)).toNat
        [MOD 2 ^ exponent] ↔
      Word.reversed left.value ≡ Word.reversed right.value [MOD 2 ^ exponent] := by
  have one := hash_marshal_modEq left within
  have other := hash_marshal_modEq right within
  refine Iff.trans ⟨fun agree => ?_, fun agree => ?_⟩ step_modEq_iff
  · exact one.symm.trans (agree.trans other)
  · exact one.trans (agree.trans other.symm)

/-- Different numbers have different hashes. -/
theorem injective_hash_marshal :
    Function.Injective fun number : UnsignedInt => hash (Storable.marshal number) := by
  intro left right same
  have equal : (hash (Storable.marshal left)).toNat = (hash (Storable.marshal right)).toNat :=
    congrArg UInt32.toNat same
  have agree : Word.reversed left.value ≡ Word.reversed right.value [MOD 2 ^ 32] := by
    rw [← hash_marshal_modEq_iff (Nat.le_refl 32), equal]
  have reversed := agree.eq_of_lt_of_lt (Word.reversed_lt _) (Word.reversed_lt _)
  exact congrArg UnsignedInt.mk (Word.reversed_inj reversed)

end Lcg

namespace Table

variable {Y : Type} {table : Table UnsignedInt Y}

/-- Numbers have one bucket exactly if their reversed bytes agree modulo the bucket count. -/
theorem WellFormed.home_lcg_iff (wellFormed : table.WellFormed) (lcg : table.strategy = Lcg.hash)
    {exponent : Nat} (count : table.bucketCount = 2 ^ exponent) (left right : UnsignedInt) :
    table.home left = table.home right ↔
      Word.reversed left.value ≡ Word.reversed right.value [MOD 2 ^ exponent] := by
  have within : exponent ≤ 32 := by
    obtain ⟨power, _, most, same⟩ := wellFormed.admissible
    have equal : exponent = power := Nat.pow_right_injective (Nat.le_refl 2) (count.symm.trans same)
    omega
  rw [wellFormed.home_eq_mod, wellFormed.home_eq_mod, lcg, count]
  exact Lcg.hash_marshal_modEq_iff within

/-- With 256 buckets or fewer the highest byte of a number decides its bucket. -/
theorem WellFormed.home_lcg_of_le (wellFormed : table.WellFormed) (lcg : table.strategy = Lcg.hash)
    (few : table.bucketCount ≤ 256) (number : UnsignedInt) : table.home number =
      (1664525 * Word.byte number.value 3 + 1013904223) % table.bucketCount := by
  obtain ⟨exponent, _, most, count⟩ := wellFormed.admissible
  have divides : 2 ^ exponent ∣ 256 := by
    have small : exponent ≤ 8 := by
      rw [count] at few
      exact (Nat.pow_le_pow_iff_right (Nat.lt_succ_self 1)).mp few
    exact Nat.pow_dvd_pow 2 small
  have within : exponent ≤ 32 := by omega
  have top := (Word.reversed_modEq number.value).of_dvd divides
  rw [wellFormed.home_eq_mod, lcg, count]
  exact (Lcg.hash_marshal_modEq number within).trans ((top.mul_left _).add_right _)

variable [Storable Y]

/-- Numbers as keys under the linear-congruential hash, in a table reached by any commands under any
allocators.

Every bucket count from `2 ^ 4` to `2 ^ 30` can be had. With `2 ^ exponent` buckets, two keys have one
bucket exactly if their reversed bytes spell numbers that agree modulo `2 ^ exponent`. No two
numbers have one hash. With 256 buckets or fewer, all stored keys with one highest byte are on one
chain, and so are all keys below `2 ^ 24`. -/
theorem collisions_of_lcg {allows : Allocator} {options : TableOptions}
    (made : (make allows Lcg.hash options).1 = .ok table)
    (commands : List (Allocator × Command UnsignedInt Y)) :
    let reached := (table.run commands).state
    (∀ exponent, 4 ≤ exponent → exponent ≤ 30 →
      (reached.rebuild (fun _ => true) (2 ^ exponent)).state.bucketCount = 2 ^ exponent) ∧
    (∀ exponent, reached.bucketCount = 2 ^ exponent →
      (∀ left right : UnsignedInt, reached.home left = reached.home right ↔
        Word.reversed left.value ≡ Word.reversed right.value [MOD 2 ^ exponent]) ∧
      ∀ one other left right, reached.key? one = some left → reached.key? other = some right →
        (reached.bucket? one = reached.bucket? other ↔
          Word.reversed left.value ≡ Word.reversed right.value [MOD 2 ^ exponent])) ∧
    (Function.Injective fun number : UnsignedInt => Lcg.hash (Storable.marshal number)) ∧
    (reached.bucketCount ≤ 256 → ∀ top, ∃ bucket < reached.bucketCount,
      ∀ handle key, reached.key? handle = some key → Word.byte key.value 3 = top →
        ∀ other, handle ∈ reached.chain other ↔ other = bucket) ∧
    (reached.bucketCount ≤ 256 → ∃ bucket < reached.bucketCount,
      ∀ handle key, reached.key? handle = some key → key.value.toNat < 2 ^ 24 →
        ∀ other, handle ∈ reached.chain other ↔ other = bucket) := by
  intro reached
  have wellFormed : reached.WellFormed := (wellFormed_of_make made).run commands
  have lcg : reached.strategy = Lcg.hash := by
    rw [(sameChoices_run commands table).strategy, eq_ofSize_of_make made]
    rfl
  have together : reached.bucketCount ≤ 256 → ∀ top, ∃ bucket < reached.bucketCount,
      ∀ handle key, reached.key? handle = some key → Word.byte key.value 3 = top →
        ∀ other, handle ∈ reached.chain other ↔ other = bucket := by
    intro few top
    refine ⟨(1664525 * top + 1013904223) % reached.bucketCount,
      Nat.mod_lt _ wellFormed.admissible.pos, ?_⟩
    rintro handle key known rfl other
    rw [wellFormed.mem_chain, known, Option.map_some, wellFormed.home_lcg_of_le lcg few,
      Option.some_inj, eq_comm]
  refine ⟨fun exponent least most => ?_, fun exponent count =>
    ⟨wellFormed.home_lcg_iff lcg count, fun one other left right here there => ?_⟩,
    Lcg.injective_hash_marshal, together, fun few => ?_⟩
  · have admissible : IsBucketCount (2 ^ exponent) := ⟨exponent, least, most, rfl⟩
    rw [rebuild_of_reserved rfl, bucketCount_rethread, admissible.bucketCountFor_eq]
  · rw [wellFormed.bucket?_eq, wellFormed.bucket?_eq, here, there, Option.map_some, Option.map_some,
      Option.some_inj]
    exact wellFormed.home_lcg_iff lcg count left right
  · obtain ⟨bucket, inside, found⟩ := together few 0
    refine ⟨bucket, inside, fun handle key known low => found handle key known ?_⟩
    have nothing : key.value.toNat / 256 ^ 3 = 0 := Nat.div_eq_of_lt low
    rw [Word.byte, nothing]

/-- Sixteen buckets: two keys below `2 ^ 24` share a chain with one whose highest byte is sixteen, and
a key that differs from the first in its highest byte by one is on another chain. -/
theorem collisions_of_lcg_sixteen :
    let plentiful : Allocator := fun _ => true
    let commands : List (Allocator × Command UnsignedInt UnsignedInt) :=
      [(plentiful, .insert ⟨1⟩ ⟨10⟩), (plentiful, .insertOwned ⟨0xffffff⟩ ⟨20⟩),
        (plentiful, .insert ⟨0x10000001⟩ ⟨30⟩), (plentiful, .insert ⟨0x01000001⟩ ⟨40⟩)]
    let start : Table UnsignedInt UnsignedInt := ofSize Lcg.hash .standard 16
    let reached := (start.run commands).state
    (make plentiful Lcg.hash .standard).1 = .ok start ∧
      reached.bucketCount = 2 ^ 4 ∧ reached.bucketCount ≤ 256 ∧
      reached.home ⟨1⟩ = reached.home ⟨0x10000001⟩ ∧
      reached.bucket? ⟨0⟩ = reached.bucket? ⟨2⟩ ∧
      reached.home ⟨1⟩ ≠ reached.home ⟨0x01000001⟩ ∧
      (reached.rebuild plentiful (2 ^ 30)).state.bucketCount = 2 ^ 30 ∧
      (∃ bucket < reached.bucketCount, ∀ other, ⟨0⟩ ∈ reached.chain other ↔ other = bucket) ∧
      ∃ bucket < reached.bucketCount,
        (∀ other, ⟨0⟩ ∈ reached.chain other ↔ other = bucket) ∧
        ∀ other, ⟨1⟩ ∈ reached.chain other ↔ other = bucket := by
  intro plentiful commands start reached
  have made : (make plentiful Lcg.hash .standard).1 = .ok start := by cbv
  have count : (start.run commands).state.bucketCount = 2 ^ 4 := by cbv
  have first : (start.run commands).state.key? ⟨0⟩ = some ⟨1⟩ := by cbv
  have second : (start.run commands).state.key? ⟨1⟩ = some ⟨0xffffff⟩ := by cbv
  have third : (start.run commands).state.key? ⟨2⟩ = some ⟨0x10000001⟩ := by cbv
  have few : (start.run commands).state.bucketCount ≤ 256 := by
    rw [count]
    decide
  have alike : Word.reversed 1 ≡ Word.reversed 0x10000001 [MOD 2 ^ 4] := by decide
  have apart : ¬Word.reversed 1 ≡ Word.reversed 0x01000001 [MOD 2 ^ 4] := by decide
  obtain ⟨counts, shared, -, tops, low⟩ := collisions_of_lcg made commands
  obtain ⟨homes, buckets⟩ := shared 4 count
  obtain ⟨bucket, inside, found⟩ := low few
  obtain ⟨bucket', inside', found'⟩ := tops few 0
  exact ⟨made, count, few, (homes _ _).mpr alike, (buckets _ _ _ _ first third).mpr alike,
    apart ∘ (homes _ _).mp, counts 30 (by decide) (by decide),
    ⟨bucket', inside', found' _ _ first (by decide)⟩,
    ⟨bucket, inside, found _ _ first (by decide), found _ _ second (by decide)⟩⟩

end Table

end ChainedMultimap
