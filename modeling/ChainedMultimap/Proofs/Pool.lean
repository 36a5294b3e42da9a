import ChainedMultimap.Secret.Slots
import Mathlib

/-!
# Words of a pool and its secret

Of the words pushed into a pool as many are kept as there is room for, in their order, and each stays
where it is. Filling up a pool from a stream takes one draw more than there is room for, since only a
refused word ends it. So the secret is the digest of the kept words and, behind them, of as many words
as are missing from the stream that the kept ones seed; a full pool leaves nothing to the stream.
-/

namespace ChainedMultimap

namespace Bytes

/-- Every word takes four bytes. -/
theorem length_ofWords32 (words : List UInt32) : (ofWords32 words).length = 4 * words.length := by
  induction words with
  | nil => rfl
  | cons word rest ih =>
    rw [ofWords32, List.flatMap_cons, List.length_append, length_ofWord32, ← ofWords32, ih,
      List.length_cons]
    omega

/-- The bytes of a word are its digits of base 256, the lowest one first. -/
theorem getElem?_ofWord32 (word : UInt32) {digit : Nat} (inside : digit < 4) :
    ((ofWord32 word)[digit]?).map UInt8.toNat = some (word.toNat / 256 ^ digit % 256) := by
  interval_cases digit <;>
    simp [ofWord32, Nat.shiftRight_eq_div_pow]

/-- The bytes of words stand four to a word. -/
theorem getElem?_ofWords32 (words : List UInt32) (place : Nat) {digit : Nat} (inside : digit < 4) :
    ((ofWords32 words)[4 * place + digit]?).map UInt8.toNat =
      (words[place]?).map fun word => word.toNat / 256 ^ digit % 256 := by
  induction words generalizing place with
  | nil => rfl
  | cons word rest ih =>
    rw [ofWords32, List.flatMap_cons, ← ofWords32]
    cases place with
    | zero =>
      rw [Nat.mul_zero, Nat.zero_add, List.getElem?_append_left inside, getElem?_ofWord32 word inside,
        List.getElem?_cons_zero, Option.map_some]
    | succ place =>
      have behind : 4 * (place + 1) + digit - (ofWord32 word).length = 4 * place + digit := by
        rw [length_ofWord32]
        omega
      rw [List.getElem?_append_right (by rw [length_ofWord32]; omega), behind, ih,
        List.getElem?_cons_succ]

end Bytes

namespace EntropyPool

/-! ## Pushing -/

/-- A full pool refuses a word. Any other takes it behind the words it has and has room for one less
from then on. -/
theorem push_cases (pool : EntropyPool) (word : UInt32) :
    (pool.remaining = 0 ∧ pool.push word = (false, pool)) ∨
      ∃ longer : EntropyPool, pool.push word = (true, longer) ∧
        longer.gathered = pool.gathered ++ [word] ∧ pool.remaining = longer.remaining + 1 := by
  by_cases room : pool.gathered.length < capacity
  · refine .inr ⟨_, dif_pos room, rfl, ?_⟩
    rw [remaining, remaining, filled, filled, List.length_append, List.length_singleton]
    omega
  · exact .inl ⟨Nat.sub_eq_zero_of_le (Nat.le_of_not_lt room), dif_neg room⟩

/-- What is pushed is kept as far as there is room. -/
theorem gathered_pushAll (pool : EntropyPool) (words : List UInt32) :
    (pool.pushAll words).2.gathered = pool.gathered ++ words.take pool.remaining := by
  induction words generalizing pool with
  | nil => rw [List.take_nil, List.append_nil, pushAll]
  | cons word rest ih =>
    obtain ⟨full, pushed⟩ | ⟨longer, pushed, gathered, room⟩ := pool.push_cases word
    · simp only [pushAll, pushed, ih, full, List.take_zero]
    · simp only [pushAll, pushed, ih, gathered, room, List.take_succ_cons, List.append_assoc,
        List.singleton_append]

/-- A pool accepts words as long as there is room and refuses all later ones. -/
theorem accepted_pushAll (pool : EntropyPool) (words : List UInt32) :
    (pool.pushAll words).1 =
      (List.range words.length).map fun place => decide (place < pool.remaining) := by
  induction words generalizing pool with
  | nil => rfl
  | cons word rest ih =>
    rw [List.length_cons, List.range_succ_eq_map, List.map_cons, List.map_map]
    obtain ⟨full, pushed⟩ | ⟨longer, pushed, -, room⟩ := pool.push_cases word
    · simp [pushAll, pushed, ih, full]
    · simp [pushAll, pushed, ih, room, Function.comp_def]

/-- Pushing further words goes on from the pool that is left. -/
theorem pushAll_append (pool : EntropyPool) (earlier later : List UInt32) :
    (pool.pushAll (earlier ++ later)).2 = ((pool.pushAll earlier).2.pushAll later).2 := by
  induction earlier generalizing pool with
  | nil => rfl
  | cons word rest ih => exact ih (pool.push word).2

/-- The words gathered and the room that is left make up the capacity. -/
theorem filled_add_remaining (pool : EntropyPool) : pool.filled + pool.remaining = capacity :=
  Nat.add_sub_cancel' pool.length_le

/-- The pool begins with the words gathered. -/
theorem take_filled_words (pool : EntropyPool) : pool.words.take pool.filled = pool.gathered :=
  List.take_left

/-- A full pool holds the words gathered and no padding. -/
theorem words_of_full {pool : EntropyPool} (full : pool.remaining = 0) :
    pool.words = pool.gathered := by
  rw [words, full, List.replicate_zero, List.append_nil]

/-- The slots of the words kept so far are not written any more. -/
theorem take_words_pushAll (pool : EntropyPool) (words : List UInt32) :
    (pool.pushAll words).2.words.take pool.filled = pool.words.take pool.filled := by
  rw [take_filled_words, EntropyPool.words, gathered_pushAll, List.append_assoc]
  exact List.take_left

/-- As many words as there is room for fill up a pool. -/
theorem words_pushAll_of_enough (pool : EntropyPool) {words : List UInt32}
    (enough : pool.remaining ≤ words.length) :
    (pool.pushAll words).2.words = pool.gathered ++ words.take pool.remaining := by
  have gathered := pool.gathered_pushAll words
  have total := pool.filled_add_remaining
  have full : (pool.pushAll words).2.remaining = 0 := by
    rw [filled] at total
    rw [remaining, filled, gathered, List.length_append, List.length_take]
    omega
  rw [words_of_full full, gathered]

/-! ## Slots -/

/-- The slots of an empty pool are empty. -/
theorem slots_empty : empty.slots = Slots.empty := rfl

/-- The slots hold the words of the pool. -/
theorem toList_words_slots (pool : EntropyPool) : pool.slots.words.toList = pool.words := rfl

/-- Pushing a word into the slots of a pool is inside them and does what it does to the pool. -/
theorem push?_slots (pool : EntropyPool) (word : UInt32) :
    pool.slots.push? word = some ((pool.push word).1, (pool.push word).2.slots) := by
  have total := pool.filled_add_remaining
  obtain ⟨full, pushed⟩ | ⟨longer, pushed, gathered, room⟩ := pool.push_cases word
  · have all : pool.slots.used = capacity := by
      change pool.filled = capacity
      omega
    rw [Slots.push?, if_pos all, pushed]
  · have inside : pool.slots.used < capacity := by
      change pool.filled < capacity
      omega
    have used : longer.filled = pool.filled + 1 := by
      rw [filled, gathered, List.length_append, List.length_singleton, filled]
    have written : pool.words.set pool.filled word = longer.words := by
      rw [words, words, gathered, room, List.replicate_succ, filled, List.set_append_right _ _ le_rfl,
        Nat.sub_self, List.set_cons_zero, List.append_assoc, List.singleton_append]
    rw [Slots.push?, if_neg (Nat.ne_of_lt inside), dif_pos inside, pushed, Option.some.injEq,
      Prod.mk.injEq, Slots.mk.injEq]
    refine ⟨rfl, Vector.toList_inj.mp ?_, used.symm⟩
    rw [Vector.toList_set]
    exact written

/-- Pushing a list of words into the slots of a pool is inside them and does what it does to the
pool. -/
theorem pushAll?_slots (pool : EntropyPool) (words : List UInt32) :
    pool.slots.pushAll? words = some ((pool.pushAll words).1, (pool.pushAll words).2.slots) := by
  induction words generalizing pool with
  | nil => rfl
  | cons word rest ih =>
    simp only [Slots.pushAll?, push?_slots, Option.bind_eq_bind, Option.bind_some, ih]
    rfl

/-- Folding the slots of a pool reads slots that exist and gives its seed. -/
theorem seed?_slots (pool : EntropyPool) : pool.slots.seed? = some pool.seed := by
  have kept : pool.slots.words.toList.take pool.slots.used = pool.gathered :=
    pool.take_filled_words
  rw [Slots.seed?, if_pos (show pool.slots.used ≤ capacity from pool.length_le), kept, seed]

/-- Filling up takes as many draws as there is room for words, and one more. -/
theorem fillUp?_slots (pool : EntropyPool) (stream : Nat → UInt32) (place count : Nat) :
    pool.slots.fillUp? stream place count =
      if pool.remaining < count then
        some (pool.pushAll
          ((List.range pool.remaining).map fun offset => stream (place + offset))).2.slots
      else none := by
  induction count generalizing pool place with
  | zero => rw [if_neg (Nat.not_lt_zero _), Slots.fillUp?]
  | succ count ih =>
    rw [Slots.fillUp?, push?_slots, Option.bind_eq_bind, Option.bind_some]
    obtain ⟨full, pushed⟩ | ⟨longer, pushed, -, room⟩ := pool.push_cases (stream place)
    · simp [pushed, full, pushAll]
    · have shifted : ((List.range pool.remaining).map fun offset => stream (place + offset)) =
          stream place ::
            (List.range longer.remaining).map fun offset => stream (place + 1 + offset) := by
        rw [room, List.range_succ_eq_map, List.map_cons, List.map_map, Nat.add_zero]
        congr 2
        funext offset
        rw [Function.comp_apply, Nat.succ_eq_add_one, Nat.add_right_comm, Nat.add_assoc]
      rw [shifted]
      simp only [pushed, if_true, ih, pushAll, room, Nat.add_lt_add_iff_right]

/-! ## Secrets -/

/-- Kept words, filled up from a generator: behind them stand as many as are missing of the first words
that it yields for their fold. -/
def filledUp (kept : List UInt32) (generator : Generator) : List UInt32 :=
  let seed := kept.foldl (fun mixed word => Word.rotateLeft (mixed ^^^ word) 1) 0
  kept ++ (List.range (capacity - kept.length)).map (generator seed.toUInt64)

/-- Few words filled up from a generator are as many as the capacity. -/
theorem length_filledUp {kept : List UInt32} (few : kept.length ≤ capacity)
    (generator : Generator) : (filledUp kept generator).length = capacity := by
  rw [filledUp, List.length_append, List.length_map, List.length_range, Nat.add_sub_cancel' few]

/-- When nothing is missing, nothing is drawn. -/
theorem filledUp_of_length_eq {kept : List UInt32} (whole : kept.length = capacity)
    (generator : Generator) : filledUp kept generator = kept := by
  rw [filledUp, whole, Nat.sub_self, List.range_zero, List.map_nil, List.append_nil]

/-- Pushing the missing words fills up a pool. -/
theorem words_pushAll_generator (pool : EntropyPool) (generator : Generator) :
    (pool.pushAll ((List.range pool.remaining).map (generator pool.seed.toUInt64))).2.words =
      filledUp pool.gathered generator := by
  have length : ((List.range pool.remaining).map (generator pool.seed.toUInt64)).length =
      pool.remaining := by
    rw [List.length_map, List.length_range]
  rw [pool.words_pushAll_of_enough (Nat.le_of_eq length.symm),
    List.take_of_length_le (Nat.le_of_eq length)]
  rfl

/-- Building the secret in place ends after one draw more than there is room for words. -/
theorem secret?_slots (pool : EntropyPool) (generator : Generator) (count : Nat) :
    pool.slots.secret? generator count =
      if pool.remaining < count then
        some (md5 (Bytes.ofWords32 (filledUp pool.gathered generator)))
      else none := by
  rw [Slots.secret?, seed?_slots, Option.bind_eq_bind, Option.bind_some, fillUp?_slots]
  simp only [Nat.zero_add]
  split
  · rw [Option.bind_eq_bind, Option.bind_some, toList_words_slots]
    exact congrArg (fun words => some (md5 (Bytes.ofWords32 words)))
      (pool.words_pushAll_generator generator)
  · rfl

/-- The word drawn last is refused, so it does not show in the secret. -/
theorem secret_eq (pool : EntropyPool) :
    pool.secret = md5 (Bytes.ofWords32 (filledUp pool.gathered WordStream.word)) := by
  have enough : pool.remaining ≤
      ((List.range (pool.remaining + 1)).map (WordStream.word pool.seed.toUInt64)).length := by
    rw [List.length_map, List.length_range]
    exact Nat.le_succ _
  rw [secret, toBytes, padded, WordStream.words_eq_map, pool.words_pushAll_of_enough enough,
    ← List.map_take, List.take_range, Nat.min_eq_left (Nat.le_succ _)]
  rfl

/-- What comes of any words that are pushed into a new pool. The first sixteen are accepted and kept in
their order, in place as well. Building the secret in place ends with the draw after the missing words,
whatever generator it draws from, and the secret is the digest of 64 bytes, four for each of the kept
words and of the words that fill them up. The pool's own secret is the one of the built-in generator.
A full pool leaves nothing to the generator. -/
theorem secret_of_pushed (words : List UInt32) :
    let pushed := empty.pushAll words
    let pool := pushed.2
    let kept := words.take 16
    pushed.1 = (List.range words.length).map (fun place => decide (place < 16)) ∧
    pool.gathered = kept ∧
    Slots.empty.pushAll? words = some (pushed.1, pool.slots) ∧
    (∀ generator count, pool.slots.secret? generator count =
      if 16 - kept.length < count then some (md5 (Bytes.ofWords32 (filledUp kept generator)))
      else none) ∧
    pool.secret = md5 (Bytes.ofWords32 (filledUp kept WordStream.word)) ∧
    (∀ generator, (Bytes.ofWords32 (filledUp kept generator)).length = 64 ∧
      ∀ place digit, digit < 4 →
        ((Bytes.ofWords32 (filledUp kept generator))[4 * place + digit]?).map UInt8.toNat =
          ((filledUp kept generator)[place]?).map fun word => word.toNat / 256 ^ digit % 256) ∧
    (16 ≤ words.length → ∀ generator, filledUp kept generator = kept) := by
  intro pushed pool kept
  have gathered : pool.gathered = kept := empty.gathered_pushAll words
  have missing : pool.remaining = 16 - kept.length := by
    rw [remaining, filled, gathered]
    rfl
  refine ⟨empty.accepted_pushAll words, gathered, ?_, ?_, ?_, ?_, ?_⟩
  · rw [← slots_empty, pushAll?_slots]
  · intro generator count
    rw [pool.secret?_slots, gathered, missing]
  · rw [pool.secret_eq, gathered]
  · intro generator
    refine ⟨?_, fun place digit inside => Bytes.getElem?_ofWords32 _ place inside⟩
    rw [Bytes.length_ofWords32, length_filledUp (List.length_take_le 16 words)]
    rfl
  · intro enough generator
    exact filledUp_of_length_eq (List.length_take_of_le enough) generator

/-- Of eighteen words two are refused, and the secret is the digest of the other sixteen after a single
draw, from a generator that yields nothing but sevens as from the built-in one. A single word needs
sixteen draws, of which fifteen are kept. -/
theorem secret_of_pushed_overfull :
    let words : List UInt32 := (List.range 18).map UInt32.ofNat
    let pool := (empty.pushAll words).2
    let sevens : Generator := fun _ _ => 7
    16 ≤ words.length ∧
      (empty.pushAll words).1 = List.replicate 16 true ++ [false, false] ∧
      pool.slots.secret? sevens 1 = some (md5 (Bytes.ofWords32 (words.take 16))) ∧
      pool.secret = md5 (Bytes.ofWords32 (words.take 16)) ∧
      ((Bytes.ofWords32 (words.take 16))[4 * 9 + 0]?).map UInt8.toNat = some 9 ∧
      (empty.pushAll [1]).2.slots.secret? sevens 15 = none ∧
      (empty.pushAll [1]).2.slots.secret? sevens 16 =
        some (md5 (Bytes.ofWords32 (1 :: List.replicate 15 7))) := by
  intro words pool sevens
  have enough : 16 ≤ words.length := by decide
  obtain ⟨accepted, -, -, ends, own, bytes, full⟩ := secret_of_pushed words
  obtain ⟨-, -, -, single, -⟩ := secret_of_pushed [1]
  have digit := (bytes sevens).2 9 0 (by decide)
  rw [full enough] at own digit
  refine ⟨enough, accepted, (ends sevens 1).trans ?_, own, digit, single sevens 15,
    single sevens 16⟩
  rw [full enough]
  rfl

end EntropyPool

end ChainedMultimap
