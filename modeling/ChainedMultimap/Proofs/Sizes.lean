import ChainedMultimap.Proofs.Failure
import ChainedMultimap.Proofs.Zobrist
import ChainedMultimap.SizeWord
import Mathlib

/-!
# Sizes as powers of two

On words of 64 bits the zeros in front of a size tell its binary logarithm, so the shift that rounds a
size is always by less than 64 and rounding has a result for everything but zero. Since the double of a
bucket count is a bucket count, growing doubles the buckets step by step and by nothing else.
-/

namespace ChainedMultimap

/-! ## On words -/

namespace SizeWord

/-- The zeros in front of a size tell its logarithm. -/
theorem log2_eq {size : SizeWord} (nonzero : size ≠ 0) :
    size.toBitVec.clz.toNat ≤ 63 ∧ 63 - size.toBitVec.clz.toNat = size.toNat.log2 := by
  have bits : size.toBitVec ≠ 0#64 := fun zero => nonzero (UInt64.toBitVec_inj.mp zero)
  have front : size.toBitVec.clz.toNat < 64 := BitVec.lt_def.mp (BitVec.clz_lt_iff_ne_zero.mpr bits)
  have upper : size.toNat < 2 ^ (64 - size.toBitVec.clz.toNat) := BitVec.toNat_lt_two_pow_sub_clz
  have lower : 2 ^ (63 - size.toBitVec.clz.toNat) ≤ size.toNat :=
    BitVec.two_pow_sub_clz_le_toNat_of_ne_zero (by decide) bits
  have positive : size.toNat ≠ 0 := by
    have power := Nat.two_pow_pos (63 - size.toBitVec.clz.toNat)
    omega
  have next : 64 - size.toBitVec.clz.toNat = 63 - size.toBitVec.clz.toNat + 1 := by omega
  rw [next] at upper
  exact ⟨by omega, ((Nat.log2_eq_iff positive).mpr ⟨lower, upper⟩).symm⟩

/-- One shifted by less than the width is a power of two. -/
theorem shiftedOne?_eq {amount : Nat} (small : amount < 64) :
    (shiftedOne? amount).map UInt64.toNat = some (2 ^ amount) := by
  have within : 2 ^ amount < 2 ^ 64 := Nat.pow_lt_pow_right (by decide) small
  have exact : (UInt64.ofNat amount).toNat % 64 = amount := by
    rw [UInt64.toNat_ofNat']
    omega
  rw [shiftedOne?, if_pos small, Option.map_some, UInt64.toNat_shiftLeft, exact,
    UInt64.toNat_one, Nat.one_shiftLeft, Nat.mod_eq_of_lt within]

/-- Rounding a nonzero word down never shifts too far and gives the power of two below it. -/
theorem roundDown?_eq {size : SizeWord} (nonzero : size ≠ 0) :
    (roundDown? size).map UInt64.toNat = some (roundDownToPowerOfTwo size.toNat) := by
  obtain ⟨front, log⟩ := log2_eq nonzero
  have small : 63 - size.toBitVec.clz.toNat < 64 := by omega
  rw [roundDown?, if_pos front, shiftedOne?_eq small, log, roundDownToPowerOfTwo, Nat.one_shiftLeft]

/-- Only zero has no rounding. -/
theorem roundDown?_eq_none_iff (size : SizeWord) : roundDown? size = none ↔ size = 0 := by
  constructor
  · intro failed
    by_contra nonzero
    have rounded := roundDown?_eq nonzero
    rw [failed, Option.map_none] at rounded
    cases rounded
  · rintro rfl
    decide

/-- The limit is `2 ^ 30`. -/
theorem toNat_limit : limit.toNat = 2 ^ 30 := rfl

/-- For every request the checked shifts succeed and give the bucket count. -/
theorem bucketCountFor?_eq (request : SizeWord) :
    (bucketCountFor? request).map UInt64.toNat = some (bucketCountFor request.toNat) := by
  by_cases small : request ≤ 16
  · have small' : request.toNat ≤ minBuckets := UInt64.le_iff_toNat_le.mp small
    rw [bucketCountFor?, if_pos small, bucketCountFor, if_pos small']
    rfl
  · have above : ¬request.toNat ≤ minBuckets := fun le => small (UInt64.le_iff_toNat_le.mpr le)
    rw [bucketCountFor?, if_neg small, bucketCountFor, if_neg above]
    by_cases large : limit ≤ request
    · have large' : maxBuckets ≤ request.toNat := UInt64.le_iff_toNat_le.mp large
      rw [if_pos large, if_pos large', Option.map_some, toNat_limit]
      rfl
    · have below : ¬maxBuckets ≤ request.toNat := fun le => large (UInt64.le_iff_toNat_le.mpr le)
      have nonzero : request ≠ 0 := by
        rintro rfl
        exact small (by decide)
      rw [if_neg large, if_neg below, roundDown?_eq nonzero]

/-- For every request the checked shifts succeed and give the Zobrist length. -/
theorem zobristLengthFor?_eq (request : SizeWord) :
    (zobristLengthFor? request).map UInt64.toNat = some (Zobrist.lengthFor request.toNat) := by
  have clamped : (min (max request 1) limit).toNat =
      min (max request.toNat 1) Zobrist.maxLength := by
    rw [UInt64.toNat_min, UInt64.toNat_max, UInt64.toNat_one]
    rfl
  have nonzero : min (max request 1) limit ≠ 0 := by
    intro zero
    have limit : Zobrist.maxLength = 2 ^ 30 := rfl
    rw [zero, UInt64.toNat_zero] at clamped
    omega
  rw [zobristLengthFor?, roundDown?_eq nonzero, clamped, Zobrist.lengthFor]

end SizeWord

/-! ## Growth -/

/-- The bucket counts of a resizing that a record tells of: the one before and the one asked for. -/
def LogRecord.resizing? : LogRecord → Option (Nat × Nat)
  | tableResizing current requested => some (current, requested)
  | _ => none

namespace Table

/-- Doublings one after another, from a bucket count on: each one from a count to twice as many. -/
def doublingsFrom (count steps : Nat) : List (Nat × Nat) :=
  (List.range steps).map fun step => (2 ^ step * count, 2 ^ (step + 1) * count)

/-- Of several doublings the first starts at the count and the others at its double. -/
theorem doublingsFrom_succ (count steps : Nat) :
    doublingsFrom count (steps + 1) = (count, 2 * count) :: doublingsFrom (2 * count) steps := by
  rw [doublingsFrom, doublingsFrom, List.range_succ_eq_map, List.map_cons, List.map_map]
  simp [Function.comp_def, two_pow_succ_mul]

variable {K Y : Type} [Storable K] {table : Table K Y}

/-- What a growth comes to: as many doublings as it says it is resizing the table, one less when the
last one failed. -/
def GrowsByDoubling (table : Table K Y) (allows : Allocator) : Prop :=
  let grown := table.grow allows
  let resizings := grown.log.filterMap LogRecord.resizing?
  ∃ steps, grown.state.bucketCount = 2 ^ steps * table.bucketCount ∧
    (grown.answer = .ok () ∧ resizings = doublingsFrom table.bucketCount steps ∨
      grown.answer = .error (.allocationFailure (2 ^ (steps + 1) * table.bucketCount)) ∧
        resizings = doublingsFrom table.bucketCount (steps + 1))

namespace WellFormed

/-- The double of a bucket count below the limit is a bucket count. -/
theorem bucketCountFor_two_mul (wellFormed : table.WellFormed)
    (below : table.bucketCount < maxBuckets) :
    bucketCountFor (2 * table.bucketCount) = 2 * table.bucketCount :=
  (wellFormed.admissible.double below).bucketCountFor_eq

/-- Every growth of a well-formed table comes to doublings of its bucket count. -/
theorem growsByDoubling (wellFormed : table.WellFormed) (allows : Allocator) :
    table.GrowsByDoubling allows := by
  induction table using @grow_induction K Y _ allows with
  | calm table calm =>
    rw [GrowsByDoubling, grow_of_calm calm]
    exact ⟨0, by rw [pow_zero, Nat.one_mul], .inl ⟨rfl, rfl⟩⟩
  | full table crowded full =>
    rw [GrowsByDoubling, grow_of_full crowded full]
    exact ⟨0, by rw [pow_zero, Nat.one_mul], .inl ⟨rfl, rfl⟩⟩
  | refused table crowded below refused =>
    have twice := wellFormed.bucketCountFor_two_mul (Nat.lt_of_not_le below)
    rw [GrowsByDoubling, grow_of_refused crowded below refused, twice]
    refine ⟨0, by rw [pow_zero, Nat.one_mul], .inr ⟨by rw [Nat.zero_add, pow_one], ?_⟩⟩
    rw [doublingsFrom_succ]
    rfl
  | reserved table crowded below reserved ih =>
    have room := Nat.lt_of_not_le below
    have twice := wellFormed.bucketCountFor_two_mul room
    -- The growth goes on from the doubled table, so its doublings come behind the first one.
    obtain ⟨steps, count, outcome⟩ := ih wellFormed.doubled
    rw [bucketCount_doubled wellFormed room] at count outcome
    rw [GrowsByDoubling, grow_eq_of_reserved crowded below reserved, twice]
    refine ⟨steps + 1, by rw [two_pow_succ_mul, count], ?_⟩
    obtain ⟨succeeded, resizings⟩ | ⟨failed, resizings⟩ := outcome
    · refine .inl ⟨succeeded, ?_⟩
      rw [doublingsFrom_succ, ← resizings]
      rfl
    · refine .inr ⟨by rw [two_pow_succ_mul, failed], ?_⟩
      rw [doublingsFrom_succ, ← resizings]
      rfl

end WellFormed

/-- What rounding means for the buckets of a table. -/
structure RoundlySized (table : Table K Y) : Prop where
  /-- The bucket count is a rounded size. -/
  rounded : bucketCountFor table.bucketCount = table.bucketCount
  /-- Below the limit, so is its double, which is a size of 64 bits. -/
  doubled : table.bucketCount < 2 ^ 30 →
    bucketCountFor (2 * table.bucketCount) = 2 * table.bucketCount ∧
      2 * table.bucketCount < 2 ^ 64
  /-- Every step of a growth doubles the buckets. -/
  grows : ∀ allows, table.GrowsByDoubling allows
  /-- The mask takes the remainder of every hash by the bucket count. -/
  masked : ∀ hash : UInt32, hash.toNat &&& table.mask = hash.toNat % table.bucketCount ∧
    hash.toNat % table.bucketCount < table.bucketCount

/-- A well-formed table is roundly sized. -/
theorem WellFormed.roundlySized (wellFormed : table.WellFormed) : table.RoundlySized where
  rounded := wellFormed.admissible.bucketCountFor_eq
  doubled below := by
    refine ⟨wellFormed.bucketCountFor_two_mul below, ?_⟩
    omega
  grows := wellFormed.growsByDoubling
  masked hash := by
    have mask : table.mask = bucketCountFor table.bucketCount - 1 := by
      rw [wellFormed.admissible.bucketCountFor_eq, wellFormed.mask, Nat.add_sub_cancel]
    have masked := roundsDown_bucketCountFor.masked table.bucketCount hash.toNat
    rwa [← mask, wellFormed.admissible.bucketCountFor_eq] at masked

/-- Bucket counts and the lengths of Zobrist rows are requested sizes rounded down to powers of two, the
ones from 16 to `2 ^ 30` and the others from one to `2 ^ 30`. On words of 64 bits both roundings have a
result for every request, as only zero, which neither of them comes to round, has none. A Zobrist table
is as long as its request is rounded to, and a table starts with as many buckets as its hint is rounded
to; all tables reached from it by any commands are sized so that growing doubles their buckets, step by
step, and masks take remainders. -/
theorem roundlySized_of_run :
    RoundsDown 16 (2 ^ 30) bucketCountFor ∧ RoundsDown 1 (2 ^ 30) Zobrist.lengthFor ∧
    (∀ size, SizeWord.roundDown? size = none ↔ size = 0) ∧
    (∀ request : SizeWord,
      (SizeWord.bucketCountFor? request).map UInt64.toNat = some (bucketCountFor request.toNat) ∧
      (SizeWord.zobristLengthFor? request).map UInt64.toNat =
        some (Zobrist.lengthFor request.toNat)) ∧
    (∀ allows request seed zobrist, (Zobrist.ofSeed allows request seed).1 = .ok zobrist →
      zobrist.length = Zobrist.lengthFor request) ∧
    ∀ {K Y : Type} [Storable K] [Storable Y] {allows : Allocator} {strategy : Strategy}
      {options : TableOptions} {table : Table K Y}, (make allows strategy options).1 = .ok table →
      table.bucketCount = bucketCountFor options.bucketHint ∧
      ∀ commands, (table.run commands).state.RoundlySized := by
  refine ⟨roundsDown_bucketCountFor, Zobrist.roundsDown_lengthFor, SizeWord.roundDown?_eq_none_iff,
    fun request => ⟨SizeWord.bucketCountFor?_eq request, SizeWord.zobristLengthFor?_eq request⟩,
    fun allows request seed zobrist made => ?_, ?_⟩
  · rw [Zobrist.ofSeed_eq] at made
    exact (Zobrist.words_of_ofGenerator made).1
  · intro K Y _ _ allows strategy options table made
    refine ⟨bucketCount_of_make made, fun commands => ?_⟩
    exact ((wellFormed_of_make made).run commands).roundlySized

set_option maxRecDepth 1024 in
/-- A hint of 20 leads to sixteen buckets, which a second pair doubles twice under a small ratio. Rows
of three words are asked for and rows of two are given. -/
theorem roundlySized_of_run_doubled :
    let plentiful : Allocator := fun _ => true
    let options : TableOptions := ⟨20, ⟨0x3d000000⟩, true, false⟩
    let start : Table UnsignedInt UnsignedInt := ofSize (fun _ => 7) options 16
    let commands : List (Allocator × Command UnsignedInt UnsignedInt) :=
      [(plentiful, .insert ⟨1⟩ ⟨10⟩), (plentiful, .insertOwned ⟨2⟩ ⟨20⟩)]
    let reached := (start.run commands).state
    let zobrist : Zobrist := ⟨2, (WordStream.words 42 512).toArray⟩
    (make plentiful (fun _ => 7) options).1 = .ok start ∧
      (Zobrist.ofSeed plentiful 3 42).1 = .ok zobrist ∧
      2 = Zobrist.lengthFor 3 ∧ start.bucketCount = bucketCountFor 20 ∧
      reached.bucketCount = 64 ∧ reached.RoundlySized ∧
      bucketCountFor (2 * 64) = 2 * 64 ∧ 0xffffffff &&& reached.mask = 0xffffffff % 64 := by
  intro plentiful options start commands reached zobrist
  have made : (make plentiful (fun _ => 7) options).1 = .ok start := by cbv
  have filled : (Zobrist.ofSeed plentiful 3 42).1 = .ok zobrist := by rfl
  have count : (start.run commands).state.bucketCount = 64 := by cbv
  obtain ⟨-, -, -, -, lengths, tables⟩ := roundlySized_of_run
  obtain ⟨hint, runs⟩ := tables made
  have sized : reached.RoundlySized := runs commands
  have below : reached.bucketCount < 2 ^ 30 := count ▸ (by decide : 64 < 2 ^ 30)
  have doubled := (sized.doubled below).1
  have masked := (sized.masked 0xffffffff).1
  rw [count] at doubled masked
  exact ⟨made, filled, lengths plentiful 3 42 zobrist filled, hint, count, sized, doubled, masked⟩

end Table

end ChainedMultimap
