import ChainedMultimap.Hash.Checked
import ChainedMultimap.Proofs.LcgGroups
import ChainedMultimap.Proofs.Rounding
import Mathlib

/-!
# Zobrist hashing, column by column

The rows of a Zobrist table are as long as a power of two, so masking a position is taking its
remainder, and the word for a byte stands in the byte's row at that remainder. All such places are
inside the table and far below the largest size. What a string hashes to is the exclusive or of one
word for each byte: a front part of whole periods is hashed apart from the rest, and bytes whose
positions share a column may change places. A released table has no words left to look at.
-/

namespace ChainedMultimap.Zobrist

open Word

variable {table : Zobrist} {position other : Nat}

/-! ## The shape of a table -/

/-- Rows are as long as a power of two up to the limit. -/
theorem exists_lengthFor_eq (request : Nat) :
    ∃ exponent ≤ 30, lengthFor request = 2 ^ exponent :=
  ⟨max 0 (min request.log2 30), by omega, lengthFor_eq_two_pow request⟩

/-- A table with all of its words. -/
structure Filled (table : Zobrist) : Prop where
  /-- The rows are as long as a power of two up to the limit. -/
  length : ∃ exponent ≤ 30, table.length = 2 ^ exponent
  /-- There is a row for every byte value. -/
  size : table.words.size = 256 * table.length

/-- A table filled from the word stream is filled by the generator that yields this stream. -/
theorem ofSeed_eq (allows : Allocator) (request : Nat) (seed : UInt64) :
    ofSeed allows request seed = ofGenerator WordStream.word allows request seed := by
  have drawn : WordStream.words seed =
      fun count => (List.range count).map (WordStream.word seed) := by
    funext count
    exact WordStream.words_eq_map seed count
  rw [ofSeed, drawn, ofGenerator]

/-- A table that is made has the words that the generator yields from the seed. -/
theorem words_of_ofGenerator {generator : Generator} {allows : Allocator} {request : Nat}
    {seed : UInt64} (made : (ofGenerator generator allows request seed).1 = .ok table) :
    table.length = lengthFor request ∧
      table.words.toList = (List.range (256 * table.length)).map (generator seed) := by
  unfold ofGenerator ofWords at made
  dsimp only at made
  split at made
  · obtain rfl := Except.ok.inj made
    exact ⟨rfl, rfl⟩
  · cases made

/-- A table that is made has all of its words. -/
theorem filled_of_ofGenerator {generator : Generator} {allows : Allocator} {request : Nat}
    {seed : UInt64} (made : (ofGenerator generator allows request seed).1 = .ok table) :
    table.Filled := by
  obtain ⟨length, words⟩ := words_of_ofGenerator made
  constructor
  · rw [length]
    exact exists_lengthFor_eq request
  · rw [← Array.length_toList, words, List.length_map, List.length_range]

namespace Filled

/-- A filled table has at least one position. -/
theorem length_pos (filled : table.Filled) : 0 < table.length := by
  obtain ⟨exponent, -, length⟩ := filled.length
  rw [length]
  exact Nat.two_pow_pos exponent

/-- The number of words is far below the largest size. -/
theorem size_le (filled : table.Filled) : 256 * table.length ≤ 2 ^ 38 := by
  obtain ⟨exponent, small, length⟩ := filled.length
  have bound : 2 ^ exponent ≤ 2 ^ 30 := Nat.pow_le_pow_right (by decide) small
  omega

/-- A filled table has not been released. -/
theorem isReleased_eq_false (filled : table.Filled) : table.isReleased = false := by
  have positive := filled.length_pos
  have size := filled.size
  rw [isReleased, Array.isEmpty_eq_false_iff, ← Array.size_pos_iff]
  omega

/-- Masking a position takes its remainder. -/
theorem mask_eq (filled : table.Filled) (position : Nat) :
    position &&& (table.length - 1) = position % table.length := by
  obtain ⟨exponent, -, length⟩ := filled.length
  rw [length, Nat.and_two_pow_sub_one_eq_mod]

/-- The word for a byte at a position stands in the row of the byte, at the place of the position. -/
theorem index_eq (filled : table.Filled) (position : Nat) (byte : UInt8) :
    table.index position byte = byte.toNat * table.length + position % table.length := by
  rw [index, filled.mask_eq]

/-- The word for a byte is in the table. -/
theorem index_lt (filled : table.Filled) (position : Nat) (byte : UInt8) :
    table.index position byte < table.words.size := by
  have column : position % table.length < table.length := Nat.mod_lt _ filled.length_pos
  rw [filled.index_eq, filled.size]
  calc
    byte.toNat * table.length + position % table.length
      < byte.toNat * table.length + table.length := Nat.add_lt_add_left column _
    _ = (byte.toNat + 1) * table.length := (Nat.succ_mul _ _).symm
    _ ≤ 256 * table.length := Nat.mul_le_mul_right _ byte.toNat_lt

/-- Positions in one column have the same words. -/
theorem index_congr (filled : table.Filled) (same : position % table.length = other % table.length)
    (byte : UInt8) : table.index position byte = table.index other byte := by
  rw [filled.index_eq, filled.index_eq, same]

end Filled

/-! ## The words of a string -/

/-- The word for a byte at a position. -/
def wordAt (table : Zobrist) (position : Nat) (byte : UInt8) : UInt32 :=
  table.words.getD (table.index position byte) 0

/-- The words for the bytes of a string whose first byte stands at a position. -/
def wordsFrom (table : Zobrist) (position : Nat) (bytes : Bytes) : List UInt32 :=
  bytes.mapIdx fun offset byte => table.wordAt (position + offset) byte

/-- The words of a string are the word of its first byte and those of the rest one position on. -/
theorem wordsFrom_cons (table : Zobrist) (position : Nat) (byte : UInt8) (rest : Bytes) :
    table.wordsFrom position (byte :: rest) =
      table.wordAt position byte :: table.wordsFrom (position + 1) rest := by
  have shifted : (fun offset => table.wordAt (position + (offset + 1))) =
      fun offset => table.wordAt (position + 1 + offset) := by
    funext offset
    rw [Nat.add_right_comm, Nat.add_assoc]
  rw [wordsFrom, List.mapIdx_cons, Nat.add_zero, shifted, wordsFrom]

/-- The words of two strings after each other are the words of both, the second moved on. -/
theorem wordsFrom_append (table : Zobrist) (position : Nat) (front rest : Bytes) :
    table.wordsFrom position (front ++ rest) =
      table.wordsFrom position front ++ table.wordsFrom (position + front.length) rest := by
  induction front generalizing position with
  | nil => rfl
  | cons byte front ih =>
    have shifted : position + 1 + front.length = position + (byte :: front).length := by
      rw [List.length_cons]
      omega
    rw [List.cons_append, wordsFrom_cons, ih, wordsFrom_cons, List.cons_append, shifted]

/-- Mixing adds the words of the string to what is mixed already. -/
theorem mixFrom_eq (table : Zobrist) (position : Nat) (mixed : UInt32) (bytes : Bytes) :
    table.mixFrom position mixed bytes = mixed ^^^ xorAll (table.wordsFrom position bytes) := by
  induction bytes generalizing position mixed with
  | nil => exact (UInt32.xor_zero).symm
  | cons byte rest ih =>
    rw [mixFrom, ih, wordsFrom_cons, UInt32.xor_assoc]
    rfl

namespace Filled

variable (filled : table.Filled)
include filled

/-- The word for a byte can be read. -/
theorem getElem?_words (position : Nat) (byte : UInt8) :
    table.words[byte.toNat * table.length + position % table.length]? =
      some (table.wordAt position byte) := by
  rw [← filled.index_eq, wordAt, Array.getD_eq_getD_getElem?,
    Array.getElem?_eq_getElem (filled.index_lt position byte), Option.getD_some]

/-- Its index is a size. -/
theorem word?_eq (position : Nat) (byte : UInt8) :
    table.word? position byte = some (table.wordAt position byte) := by
  have inside := filled.index_lt position byte
  have bound := filled.size_le
  rw [filled.size, filled.index_eq] at inside
  have row : size? (byte.toNat * table.length) = some (byte.toNat * table.length) :=
    if_pos (by omega)
  have index : size? (byte.toNat * table.length + position % table.length) =
      some (byte.toNat * table.length + position % table.length) := if_pos (by omega)
  simp only [word?, row, filled.mask_eq, index, Option.bind_eq_bind, Option.bind_some,
    filled.getElem?_words]

/-- In a filled table every word that the mixing reads is there. -/
theorem mixFrom?_eq (position : Nat) (mixed : UInt32) (bytes : Bytes) :
    table.mixFrom? position mixed bytes = some (table.mixFrom position mixed bytes) := by
  induction bytes generalizing position mixed with
  | nil => rfl
  | cons byte rest ih =>
    rw [mixFrom?, filled.word?_eq, Option.bind_eq_bind, Option.bind_some, ih]
    rfl

/-- Hashing never leaves the table. -/
theorem hash?_eq (bytes : Bytes) : table.hash? bytes = some (table.hash bytes) := by
  simp only [hash?, hash, filled.isReleased_eq_false, Bool.false_eq_true, ↓reduceIte,
    filled.mixFrom?_eq]

/-- The hash of a string is the exclusive or of its words. -/
theorem hash_eq (bytes : Bytes) : table.hash bytes = xorAll (table.wordsFrom 0 bytes) := by
  simp only [hash, filled.isReleased_eq_false, Bool.false_eq_true, ↓reduceIte, mixFrom_eq,
    UInt32.zero_xor]

/-- Positions that agree modulo the length have the same words. -/
theorem wordAt_congr (same : position % table.length = other % table.length) (byte : UInt8) :
    table.wordAt position byte = table.wordAt other byte := by
  rw [wordAt, wordAt, filled.index_congr same]

/-- Strings that begin in one column have the same words. -/
theorem wordsFrom_congr (same : position % table.length = other % table.length) (bytes : Bytes) :
    table.wordsFrom position bytes = table.wordsFrom other bytes := by
  rw [wordsFrom, wordsFrom]
  congr 1
  funext offset byte
  exact filled.wordAt_congr (Nat.ModEq.add_right offset same) byte

/-- What stands in whole periods in front of the rest is hashed on its own. -/
theorem hash_append {front : Bytes} (aligned : table.length ∣ front.length) (rest : Bytes) :
    table.hash (front ++ rest) = table.hash front ^^^ table.hash rest := by
  have first : (0 + front.length) % table.length = 0 % table.length := by
    rw [Nat.zero_add, Nat.zero_mod]
    exact Nat.mod_eq_zero_of_dvd aligned
  rw [filled.hash_eq, filled.hash_eq, filled.hash_eq, wordsFrom_append,
    filled.wordsFrom_congr first, xorAll_append]

/-- Two bytes in one column may change places. -/
theorem hash_exchange (bytes : Bytes) {i j : Nat} (hi : i < bytes.length) (hj : j < bytes.length)
    (same : i % table.length = j % table.length) :
    table.hash ((bytes.set i bytes[j]).set j bytes[i]) = table.hash bytes := by
  have length : (table.wordsFrom 0 bytes).length = bytes.length := List.length_mapIdx
  have hi' : i < (table.wordsFrom 0 bytes).length := length ▸ hi
  have hj' : j < (table.wordsFrom 0 bytes).length := length ▸ hj
  have here : table.wordAt (0 + i) bytes[j] = (table.wordsFrom 0 bytes)[j] := by
    rw [Nat.zero_add, filled.wordAt_congr same]
    simp only [wordsFrom, List.getElem_mapIdx, Nat.zero_add]
  have there : table.wordAt (0 + j) bytes[i] = (table.wordsFrom 0 bytes)[i] := by
    rw [Nat.zero_add, filled.wordAt_congr same.symm]
    simp only [wordsFrom, List.getElem_mapIdx, Nat.zero_add]
  have exchanged : table.wordsFrom 0 ((bytes.set i bytes[j]).set j bytes[i]) =
      ((table.wordsFrom 0 bytes).set i (table.wordsFrom 0 bytes)[j]).set j
        (table.wordsFrom 0 bytes)[i] := by
    rw [← here, ← there]
    simp only [wordsFrom, List.mapIdx_set]
  rw [filled.hash_eq, filled.hash_eq, exchanged, xorAll_perm (List.set_set_perm hi' hj')]

end Filled

/-! ## Released tables -/

/-- Releasing a table any number of times keeps its length. -/
theorem length_iterate_release (table : Zobrist) (releases : Nat) :
    (release^[releases] table).length = table.length := by
  induction releases with
  | zero => rfl
  | succ releases ih =>
    rw [Function.iterate_succ_apply']
    exact ih

/-- A table that was released once or more is released. -/
theorem isReleased_iterate_release (table : Zobrist) {releases : Nat} (released : 0 < releases) :
    (release^[releases] table).isReleased := by
  obtain ⟨fewer, rfl⟩ := Nat.exists_eq_add_one.mpr released
  rw [Function.iterate_succ_apply']
  rfl

/-- A released table hashes everything to zero, without an access. -/
theorem hash_of_isReleased (released : table.isReleased) (bytes : Bytes) :
    table.hash bytes = 0 ∧ table.hash? bytes = some 0 := ⟨if_pos released, if_pos released⟩

/-- What strings hash to under a table with all of its words. -/
structure Columnwise (table : Zobrist) : Prop where
  /-- The hash is the exclusive or of one word of the table for each byte: the one in the byte's row
  and in the column of the byte's position. -/
  hash_eq : ∀ bytes : Bytes, ∃ words : List UInt32,
    (bytes.mapIdx fun position byte =>
      table.words[byte.toNat * table.length + position % table.length]?) = words.map some ∧
    table.hash bytes = xorAll words
  /-- A front part of whole periods is hashed apart from the rest. -/
  hash_append : ∀ front rest : Bytes, table.length ∣ front.length →
    table.hash (front ++ rest) = table.hash front ^^^ table.hash rest
  /-- Two bytes whose positions share a column may change places. -/
  hash_exchange : ∀ (bytes : Bytes) (i j : Nat) (hi : i < bytes.length) (hj : j < bytes.length),
    i % table.length = j % table.length →
      table.hash ((bytes.set i bytes[j]).set j bytes[i]) = table.hash bytes

/-- Every filled table hashes column by column. -/
theorem Filled.columnwise (filled : table.Filled) : table.Columnwise where
  hash_eq bytes := by
    refine ⟨table.wordsFrom 0 bytes, ?_, filled.hash_eq bytes⟩
    apply List.ext_getElem?
    intro place
    simp only [filled.getElem?_words, wordsFrom, Nat.zero_add, List.getElem?_mapIdx,
      List.getElem?_map, Option.map_map, Function.comp_def]
  hash_append _ rest aligned := filled.hash_append aligned rest
  hash_exchange bytes _ _ hi hj same := filled.hash_exchange bytes hi hj same

/-- A table of any requested length and any seed, once it is made, has 256 rows of the words that a
generator yields from the seed, be it the one of the word stream or another, a number far inside the
range of sizes. Strings hash by columns until the table is released and to zero from then on, however
often it is released; its row length stays, and no hashing leaves the table or the range of sizes. -/
theorem columnwise_of_made {generator : Generator} {allows : Allocator} {request : Nat}
    {seed : UInt64} (made : (ofGenerator generator allows request seed).1 = .ok table) :
    ofSeed allows request seed = ofGenerator WordStream.word allows request seed ∧
    table.words.size = 256 * table.length ∧ 256 * table.length < 2 ^ 64 ∧
    (∀ place < 256 * table.length, table.words[place]? = some (generator seed place)) ∧
    table.Columnwise ∧
    ∀ releases, let later := release^[releases] table
      later.length = table.length ∧
      (later.isReleased ↔ 0 < releases) ∧
      (0 < releases → ∀ bytes, later.hash bytes = 0) ∧
      ∀ bytes, later.hash? bytes = some (later.hash bytes) := by
  have filled := filled_of_ofGenerator made
  have bound := filled.size_le
  refine ⟨ofSeed_eq allows request seed, filled.size, by omega, ?_, filled.columnwise, ?_⟩
  · intro place inside
    rw [← Array.getElem?_toList, (words_of_ofGenerator made).2, List.getElem?_map,
      List.getElem?_range inside, Option.map_some]
  · intro releases later
    rcases Nat.eq_zero_or_pos releases with rfl | some
    · have whole : ¬later.isReleased := by
        rw [show later = table from rfl, filled.isReleased_eq_false]
        exact Bool.false_ne_true
      exact ⟨rfl, iff_of_false whole (Nat.lt_irrefl 0), fun none => absurd none (Nat.lt_irrefl 0),
        filled.hash?_eq⟩
    · have released := isReleased_iterate_release table some
      refine ⟨length_iterate_release table releases, iff_of_true released some, ?_, ?_⟩
      · intro _ bytes
        exact (hash_of_isReleased released bytes).1
      · intro bytes
        obtain ⟨zero, checked⟩ := hash_of_isReleased released bytes
        rw [checked, zero]

/-- Three words in a row are asked for and two are given. The first and the third byte of a string of
five share a column, the first two bytes are a whole period, and after a release the string hashes to
zero. -/
theorem columnwise_of_made_two :
    let table : Zobrist := ⟨2, (WordStream.words 42 512).toArray⟩
    let bytes : Bytes := [9, 200, 255, 0, 9]
    (ofSeed (fun _ => true) 3 42).1 = .ok table ∧
      table.words[0]? = some 572990626 ∧
      0 % table.length = 2 % table.length ∧
      table.hash [255, 200, 9, 0, 9] = table.hash bytes ∧
      table.length ∣ ([9, 200] : Bytes).length ∧
      table.hash bytes = table.hash [9, 200] ^^^ table.hash [255, 0, 9] ∧
      table.release.length = 2 ∧ table.release.hash bytes = 0 ∧
      table.hash? bytes = some (table.hash bytes) := by
  intro table bytes
  have made : (ofSeed (fun _ => true) 3 42).1 = .ok table := by rfl
  have drawn : (ofGenerator WordStream.word (fun _ => true) 3 42).1 = .ok table :=
    ofSeed_eq (fun _ => true) 3 42 ▸ made
  obtain ⟨-, -, -, stream, columnwise, later⟩ := columnwise_of_made drawn
  obtain ⟨length, -, zero, -⟩ := later 1
  obtain ⟨-, -, -, checked⟩ := later 0
  have first : WordStream.word 42 0 = 572990626 := by cbv
  have column : 0 % table.length = 2 % table.length := (by decide : 0 % 2 = 2 % 2)
  refine ⟨made, (stream 0 (by decide)).trans (congrArg some first), column,
    columnwise.hash_exchange bytes 0 2 (by decide) (by decide) column, dvd_rfl,
    columnwise.hash_append [9, 200] [255, 0, 9] dvd_rfl, length, zero (by decide) bytes,
    checked bytes⟩

end ChainedMultimap.Zobrist
