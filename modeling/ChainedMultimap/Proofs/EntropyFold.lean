import ChainedMultimap.Proofs.LcgGroups
import ChainedMultimap.Proofs.Pool
import Mathlib

/-!
# The fold of the gathered words

A step of the fold joins a word to what is folded so far and rotates the result by one bit. A rotation
moves bits and loses none, and it acts on both sides of an exclusive or. So a step can be undone both
in the word and in what came before it, and the same holds of a whole fold: it tells pools apart that
differ in a single word. Taken together, the rotations a word goes through are one for itself and one
for each word after it.
-/

namespace ChainedMultimap

namespace Word

/-! ## Rotations -/

/-- A word rotated towards its high end by any amount. -/
def rotated (word : UInt32) (amount : Nat) : UInt32 := .ofBitVec (word.toBitVec.rotateLeft amount)

/-- The two shifts make a rotation. -/
theorem rotateLeft_eq_rotated (word : UInt32) {amount : UInt32} (small : amount < 32) :
    rotateLeft word amount = rotated word amount.toNat := by
  have small' : amount.toNat < 32 := UInt32.lt_iff_toNat_lt.mp small
  have rest : (32 - amount).toNat = 32 - amount.toNat :=
    UInt32.toNat_sub_of_le 32 amount (UInt32.le_of_lt small)
  apply UInt32.toBitVec_inj.mp
  rw [rotated, UInt32.toBitVec_ofBitVec, BitVec.rotateLeft_def, Nat.mod_eq_of_lt small', rotateLeft,
    UInt32.toBitVec_or, UInt32.toBitVec_shiftLeft, UInt32.toBitVec_shiftRight]
  change word.toBitVec <<< (amount.toNat % 32) ||| word.toBitVec >>> ((32 - amount).toNat % 32) = _
  rw [rest, Nat.mod_eq_of_lt small']
  rcases Nat.eq_zero_or_pos amount.toNat with zero | positive
  · rw [zero]
    change word.toBitVec <<< 0 ||| word.toBitVec >>> 0 = word.toBitVec <<< 0 ||| word.toBitVec >>> 32
    rw [BitVec.shiftLeft_zero, BitVec.ushiftRight_zero, BitVec.or_self,
      BitVec.ushiftRight_eq_zero (Nat.le_refl 32), BitVec.or_zero]
  · rw [Nat.mod_eq_of_lt (by omega : 32 - amount.toNat < 32)]

/-- A bit comes from as many places further down, or from the high end when there are not so many. -/
theorem getLsbD_rotated (word : UInt32) (amount : Nat) {place : Nat} (inside : place < 32) :
    (rotated word amount).toBitVec.getLsbD place =
      word.toBitVec.getLsbD ((place + (32 - amount % 32)) % 32) := by
  rw [rotated, UInt32.toBitVec_ofBitVec, BitVec.getLsbD_rotateLeft]
  by_cases low : place < amount % 32
  · rw [decide_eq_true low, cond_true]
    congr 1
    omega
  · rw [decide_eq_false low, cond_false, decide_eq_true inside, Bool.true_and]
    congr 1
    omega

/-- Words are equal when their bits are. -/
theorem eq_of_getLsbD {word other : UInt32}
    (bits : ∀ place < 32, word.toBitVec.getLsbD place = other.toBitVec.getLsbD place) :
    word = other :=
  UInt32.toBitVec_inj.mp (BitVec.eq_of_getLsbD_eq bits)

/-- Two rotations are one by the sum of both amounts. -/
theorem rotated_rotated (word : UInt32) (first second : Nat) :
    rotated (rotated word first) second = rotated word (first + second) := by
  apply eq_of_getLsbD
  intro place inside
  rw [getLsbD_rotated _ _ inside, getLsbD_rotated _ _ (Nat.mod_lt _ (by decide)),
    getLsbD_rotated _ _ inside]
  congr 1
  omega

/-- Rotating by whole turns changes nothing. -/
theorem rotated_of_dvd (word : UInt32) {amount : Nat} (whole : 32 ∣ amount) :
    rotated word amount = word := by
  apply eq_of_getLsbD
  intro place inside
  rw [getLsbD_rotated _ _ inside]
  congr 1
  omega

/-- Rotation distributes over exclusive or. -/
theorem rotated_xor (word other : UInt32) (amount : Nat) :
    rotated (word ^^^ other) amount = rotated word amount ^^^ rotated other amount := by
  apply eq_of_getLsbD
  intro place inside
  rw [UInt32.toBitVec_xor, BitVec.getLsbD_xor, getLsbD_rotated _ _ inside,
    getLsbD_rotated _ _ inside, getLsbD_rotated _ _ inside, UInt32.toBitVec_xor, BitVec.getLsbD_xor]

/-- Zero rotated is zero. -/
theorem rotated_zero (amount : Nat) : rotated 0 amount = 0 := by
  have halves := rotated_xor 0 0 amount
  rwa [UInt32.xor_self, UInt32.xor_self] at halves

/-- A rotation by one bit is undone by one of 31 bits. -/
theorem bijective_rotated_one : Function.Bijective fun word => rotated word 1 := by
  refine Function.bijective_iff_has_inverse.mpr ⟨fun word => rotated word 31, ?_, ?_⟩
  · intro word
    exact (rotated_rotated word 1 31).trans (rotated_of_dvd word (by decide))
  · intro word
    exact (rotated_rotated word 31 1).trans (rotated_of_dvd word (by decide))

/-- An exclusive or with a fixed word undoes itself. -/
theorem bijective_xor (mask : UInt32) : Function.Bijective fun word => word ^^^ mask := by
  apply Function.Involutive.bijective
  intro word
  change word ^^^ mask ^^^ mask = word
  rw [UInt32.xor_assoc, UInt32.xor_self, UInt32.xor_zero]

/-! ## Folds -/

/-- A step of the fold. -/
def foldStep (mixed word : UInt32) : UInt32 := rotateLeft (mixed ^^^ word) 1

/-- A step of the fold takes in a word and rotates by one. -/
theorem foldStep_eq (mixed word : UInt32) : foldStep mixed word = rotated (mixed ^^^ word) 1 :=
  rotateLeft_eq_rotated (mixed ^^^ word) (by decide : (1 : UInt32) < 32)

/-- For a given word a step of the fold loses nothing of what was mixed before. -/
theorem bijective_foldStep_mixed (word : UInt32) :
    Function.Bijective fun mixed => foldStep mixed word := by
  simp only [foldStep_eq]
  exact bijective_rotated_one.comp (bijective_xor word)

/-- From a given word on a step of the fold loses nothing of the word it takes in. -/
theorem bijective_foldStep_word (mixed : UInt32) : Function.Bijective (foldStep mixed) := by
  have swapped : foldStep mixed = fun word => rotated (word ^^^ mixed) 1 := by
    funext word
    rw [foldStep_eq, UInt32.xor_comm]
  rw [swapped]
  exact bijective_rotated_one.comp (bijective_xor mixed)

/-- Whatever words follow, a fold loses nothing of what was folded before them. -/
theorem bijective_foldl_foldStep (words : List UInt32) :
    Function.Bijective fun mixed => words.foldl foldStep mixed := by
  induction words with
  | nil => exact Function.bijective_id
  | cons word rest ih => exact ih.comp (bijective_foldStep_mixed word)

/-- What was folded before is rotated once for every word that follows, and each word once for itself
and once for every word after it. -/
theorem foldl_foldStep_eq (mixed : UInt32) (words : List UInt32) :
    words.foldl foldStep mixed = rotated mixed words.length ^^^
      xorAll (words.mapIdx fun place word => rotated word (words.length - place)) := by
  induction words generalizing mixed with
  | nil =>
    rw [List.mapIdx_nil, List.length_nil, rotated_of_dvd mixed (by decide), List.foldl_nil]
    exact UInt32.xor_zero.symm
  | cons word rest ih =>
    have later : (fun place word => rotated word (rest.length + 1 - (place + 1))) =
        fun place word => rotated word (rest.length - place) := by
      simp only [Nat.add_sub_add_right]
    have more : 1 + rest.length = rest.length + 1 := Nat.add_comm 1 rest.length
    rw [List.foldl_cons, ih, foldStep_eq, rotated_rotated, rotated_xor, more, List.length_cons,
      List.mapIdx_cons, later, Nat.sub_zero, UInt32.xor_assoc]
    rfl

end Word

namespace EntropyPool

variable (pool : EntropyPool) {place : Nat}

/-- The pool with another word at a place. -/
def replace (place : Nat) (word : UInt32) : EntropyPool :=
  ⟨pool.gathered.set place word, by rw [List.length_set]; exact pool.length_le⟩

/-- Replacing a word of a pool replaces it in the words gathered. -/
@[simp] theorem gathered_replace (place : Nat) (word : UInt32) :
    (pool.replace place word).gathered = pool.gathered.set place word := rfl

/-- Replacing a word leaves the number of words gathered. -/
@[simp] theorem filled_replace (place : Nat) (word : UInt32) :
    (pool.replace place word).filled = pool.filled := List.length_set

/-- The seed is the fold of the words gathered, from zero on. -/
theorem seed_eq_foldl : pool.seed = pool.gathered.foldl Word.foldStep 0 := rfl

/-- The fold is the exclusive or of the gathered words, each rotated as often as there are words from
it to the end. -/
theorem seed_eq_xorAll : pool.seed =
    Word.xorAll (pool.gathered.mapIdx fun place word => Word.rotated word (pool.filled - place)) := by
  rw [seed_eq_foldl, Word.foldl_foldStep_eq, Word.rotated_zero, UInt32.zero_xor, filled]

/-- The word at a place comes through the fold of the pool whole. -/
theorem bijective_seed_replace (inside : place < pool.filled) :
    Function.Bijective fun word => (pool.replace place word).seed := by
  -- The words before the place make one fixed start, those after it one bijection of what has been
  -- folded once the word is in.
  let front := (pool.gathered.take place).foldl Word.foldStep 0
  have split : (fun word => (pool.replace place word).seed) =
      (fun mixed => (pool.gathered.drop (place + 1)).foldl Word.foldStep mixed) ∘
        Word.foldStep front := by
    funext word
    rw [filled] at inside
    rw [seed_eq_foldl, gathered_replace, List.set_eq_take_append_cons_drop, if_pos inside,
      List.foldl_append]
    rfl
  rw [split]
  exact (Word.bijective_foldl_foldStep _).comp (Word.bijective_foldStep_word front)

/-- The other pool has as many words as the pool, and they differ at the place alone. -/
def DiffersAt (other : EntropyPool) (place : Nat) : Prop :=
  other.filled = pool.filled ∧ ∀ spot, other.gathered[spot]? = pool.gathered[spot]? ↔ spot ≠ place

variable {pool} {other : EntropyPool}

/-- Pools that differ in a single word are one and the same but for it. -/
theorem DiffersAt.exists_replace (differs : pool.DiffersAt other place) :
    place < pool.filled ∧ ∃ word former, other.gathered = (pool.replace place word).gathered ∧
      pool.gathered = (pool.replace place former).gathered ∧ word ≠ former := by
  obtain ⟨size, same⟩ := differs
  have unequal : other.gathered[place]? ≠ pool.gathered[place]? := fun equal =>
    (same place).mp equal rfl
  rw [filled, filled] at size
  have inside : place < pool.gathered.length := by
    by_contra outside
    rw [not_lt] at outside
    apply unequal
    rw [List.getElem?_eq_none outside, List.getElem?_eq_none (size.le.trans outside)]
  have inside' : place < other.gathered.length := size ▸ inside
  rw [List.getElem?_eq_getElem inside, List.getElem?_eq_getElem inside'] at unequal
  refine ⟨inside, other.gathered[place], pool.gathered[place], ?_, ?_, ?_⟩
  · apply List.ext_getElem?
    intro spot
    rw [gathered_replace, List.getElem?_set]
    split
    · next here => rw [← here, List.getElem?_eq_getElem inside']
    · next elsewhere => exact (same spot).mpr (Ne.symm elsewhere)
  · rw [gathered_replace, List.set_getElem_self]
  · exact fun equal => unequal (congrArg some equal)

/-- Pools that differ in a single word have different folds. -/
theorem DiffersAt.seed_ne (differs : pool.DiffersAt other place) : other.seed ≠ pool.seed := by
  obtain ⟨inside, word, former, others, own, unequal⟩ := differs.exists_replace
  have whole := (pool.bijective_seed_replace inside).injective
  intro equal
  apply unequal
  apply whole
  change (pool.replace place word).seed = (pool.replace place former).seed
  rw [seed_eq_foldl, ← others, seed_eq_foldl, ← own]
  exact equal

/-- In place, the other word is written into the slot of the first one. -/
theorem slots_replace (inside : place < pool.filled) (word : UInt32) :
    (pool.replace place word).slots =
      ⟨pool.slots.words.set place word (inside.trans_le pool.length_le), pool.slots.used⟩ := by
  have written : (pool.replace place word).words = pool.words.set place word := by
    rw [words, gathered_replace, remaining, filled_replace, words,
      List.set_append_left place word inside, remaining]
  rw [slots, Slots.mk.injEq]
  refine ⟨Vector.toList_inj.mp ?_, pool.filled_replace place word⟩
  rw [Vector.toList_set]
  exact written

/-- What the fold of a pool keeps of the words gathered in it. -/
structure RetainsWords (pool : EntropyPool) : Prop where
  /-- It is the exclusive or of the words, each rotated as often as there are words from it to the
  end. -/
  rotations : pool.seed =
    Word.xorAll (pool.gathered.mapIdx fun place word => Word.rotated word (pool.filled - place))
  /-- It is a bijection of the word at each place. -/
  bijective : ∀ place < pool.filled, Function.Bijective fun word => (pool.replace place word).seed
  /-- Pools that differ in a single word have different folds. -/
  distinct : ∀ other place, pool.DiffersAt other place → other.seed ≠ pool.seed
  /-- In place, the fold after a word is written into a slot in use is the one of the pool with that
  word. -/
  inPlace : ∀ place (inside : place < pool.filled) word,
    Slots.seed? ⟨pool.slots.words.set place word (inside.trans_le pool.length_le),
      pool.slots.used⟩ = some (pool.replace place word).seed

/-- The fold of a pool loses none of its words, however many there are and whatever they are. -/
theorem retainsWords_seed (pool : EntropyPool) : pool.RetainsWords where
  rotations := pool.seed_eq_xorAll
  bijective _ inside := pool.bijective_seed_replace inside
  distinct _ _ differs := differs.seed_ne
  inPlace place inside word := by rw [← slots_replace inside, seed?_slots]

/-- Two words are rotated by two bits and by one. -/
example : (empty.pushAll [0x80000000, 5]).2.seed = 2 ^^^ 10 := by decide

end EntropyPool

end ChainedMultimap
