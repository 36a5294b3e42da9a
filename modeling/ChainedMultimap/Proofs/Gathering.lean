import ChainedMultimap.Proofs.Pool
import ChainedMultimap.Secret.Gathering
import Mathlib

/-!
# The layout of a gathered pool

Gathering pushes the words of the clock, those of a source, the process number and the user number,
and the pool refuses what comes after the sixteenth. The clock always leaves room for twelve words, so
the source is asked for 48 bytes; how many words it has decides whether the two numbers still fit. The
warning looks at the number of bytes that the source reports and at nothing that was pushed.
-/

namespace ChainedMultimap

open EntropyPool

/-- The numbers that identify a process to itself: its own and its user's. -/
def Surroundings.identity (surroundings : Surroundings) : List UInt32 :=
  surroundings.processId :: surroundings.userId.toList

/-- All words that are pushed, in order, when a source supplies the given ones. -/
def Surroundings.offered (surroundings : Surroundings) (supplied : List UInt32) : List UInt32 :=
  surroundings.clock.words ++ supplied ++ surroundings.identity

/-- The words that a pool keeps when a source supplies the given ones. -/
def Surroundings.kept (surroundings : Surroundings) (supplied : List UInt32) : List UInt32 :=
  (surroundings.clock.words ++ supplied.take 12 ++ surroundings.identity).take 16

/-- The halves of the seconds are their quotient and remainder, the remainder first. -/
theorem ClockReading.toNat_words (clock : ClockReading) : clock.words.map UInt32.toNat =
    [clock.seconds.toNat % 2 ^ 32, clock.seconds.toNat / 2 ^ 32, clock.microseconds.toNat,
      clock.nanoseconds.toNat] := by
  have high : (clock.seconds >>> 32).toUInt32.toNat = clock.seconds.toNat / 2 ^ 32 := by
    have small := clock.seconds.toNat_lt
    rw [UInt64.toNat_toUInt32, UInt64.toNat_shiftRight, Nat.shiftRight_eq_div_pow]
    change clock.seconds.toNat / 2 ^ 32 % 2 ^ 32 = _
    omega
  rw [words, List.map_cons, List.map_cons, List.map_cons, List.map_singleton, high,
    UInt64.toNat_toUInt32]

namespace Surroundings

variable (surroundings : Surroundings) (source : EntropySource)

/-- The words of the clock leave room for twelve others. -/
theorem take_words_append (others : List UInt32) :
    (surroundings.clock.words ++ others).take 16 =
      surroundings.clock.words ++ others.take 12 := by
  have four : surroundings.clock.words.length = 4 := rfl
  rw [List.take_append, four, List.take_of_length_le (by decide : 4 ≤ 16)]

/-- What a source supplies beyond twelve words does not show in the pool. -/
theorem take_offered (supplied : List UInt32) :
    (surroundings.offered supplied).take 16 = surroundings.kept supplied := by
  rw [offered, kept, List.append_assoc, List.append_assoc, take_words_append, take_words_append]
  congr 1
  rcases Nat.le_total supplied.length 12 with few | many
  · rw [List.take_of_length_le few]
  · have twelve : (supplied.take 12).length = 12 := List.length_take_of_le many
    rw [List.take_append_of_le_length many, List.take_left' twelve]

/-- Everything is pushed into one new pool, one word after another. -/
theorem pool_gather :
    (surroundings.gather source).pool =
      (empty.pushAll (surroundings.offered (source 48).words)).2 := by
  rw [offered, pushAll_append, pushAll_append]
  rfl

/-- A gathering keeps the words of the clock, the source and the process while there is room. -/
theorem gathered_gather :
    (surroundings.gather source).pool.gathered = surroundings.kept (source 48).words := by
  rw [pool_gather, gathered_pushAll, ← take_offered]
  rfl

/-- Behind the words that it keeps, the pool of a gathering is filled up with zeros. -/
theorem words_gather :
    (surroundings.gather source).pool.words = surroundings.kept (source 48).words ++
      List.replicate (16 - (surroundings.kept (source 48).words).length) 0 := by
  rw [words, remaining, filled, gathered_gather]
  rfl

/-- The words of the clock are in front. -/
theorem take_words_gather :
    (surroundings.gather source).pool.words.take 4 = surroundings.clock.words := by
  have four : surroundings.clock.words.length = 4 := rfl
  rw [words_gather, kept, List.append_assoc, take_words_append, List.append_assoc,
    List.take_left' four]

/-- The pool is reached from the one after some pushes by the pushes that are left. -/
theorem pool_gather_eq_pushAll (count : Nat) :
    let offered := surroundings.offered (source 48).words
    (surroundings.gather source).pool =
      ((empty.pushAll (offered.take count)).2.pushAll (offered.drop count)).2 := by
  intro offered
  rw [pool_gather, ← pushAll_append, List.take_append_drop]

end Surroundings

/-- What gathering comes to when a source answers with a reading. -/
structure Gathering.LaidOut (gathering : Gathering) (surroundings : Surroundings)
    (reading : SourceReading) : Prop where
  /-- The source is asked for twelve words. -/
  asked : gathering.asked = 48
  /-- The pool holds the words of the clock, up to twelve of the source and the numbers of process and
  user, as far as they fit, with zeros behind them. -/
  words : gathering.pool.words = surroundings.kept reading.words ++
    List.replicate (16 - (surroundings.kept reading.words).length) 0
  /-- The first four words are the clock's: both halves of the seconds, low half first, and the
  fractions of the second. -/
  clock : (gathering.pool.words.take 4).map UInt32.toNat =
    [surroundings.clock.seconds.toNat % 2 ^ 32, surroundings.clock.seconds.toNat / 2 ^ 32,
      surroundings.clock.microseconds.toNat, surroundings.clock.nanoseconds.toNat]
  /-- As many words count as filled as are kept. -/
  filled : gathering.pool.filled = (surroundings.kept reading.words).length
  /-- The others are still missing. -/
  remaining : gathering.pool.filled + gathering.pool.remaining = 16
  /-- The first twelve words of the source are accepted, and no others of them. -/
  accepted : gathering.accepted =
    (List.range reading.words.length).map fun place => decide (place < 12)
  /-- In place, all pushes end in the slots of the pool. -/
  slots : ∃ accepted, Slots.empty.pushAll? (surroundings.offered reading.words) =
    some (accepted, gathering.pool.slots)
  /-- After each number of pushes, the slots in use have the words that they have in the end. -/
  unchanged : ∀ count, ∃ accepted earlier,
    Slots.empty.pushAll? ((surroundings.offered reading.words).take count) =
      some (accepted, earlier) ∧
    gathering.pool.slots.words.toList.take earlier.used = earlier.words.toList.take earlier.used
  /-- The warning follows the source's own records if and only if no byte was reported. -/
  log : gathering.log =
    reading.log ++ if reading.reported = 0 then [.noSystemEntropy] else []

/-- The layout of a gathered pool, for every clock, process and user, and for every source, whatever
words it supplies and however many bytes it reports. -/
theorem Surroundings.laidOut_gather (surroundings : Surroundings) (source : EntropySource) :
    (surroundings.gather source).LaidOut surroundings (source 48) where
  asked := rfl
  words := surroundings.words_gather source
  clock := by rw [surroundings.take_words_gather, surroundings.clock.toNat_words]
  filled := by rw [EntropyPool.filled, surroundings.gathered_gather]
  remaining := EntropyPool.filled_add_remaining _
  accepted := accepted_pushAll _ _
  slots := by
    refine ⟨(empty.pushAll (surroundings.offered (source 48).words)).1, ?_⟩
    rw [surroundings.pool_gather, ← slots_empty, pushAll?_slots]
  unchanged count := by
    refine ⟨_, _, empty.pushAll?_slots _, ?_⟩
    rw [surroundings.pool_gather_eq_pushAll source count]
    exact take_words_pushAll _ _
  log := rfl

/-- With eleven words of a source there is room for the process number and none for the user number. -/
example :
    let surroundings : Surroundings := ⟨⟨0x165000000, 250000, 250000000⟩, 4242, some 1000⟩
    let gathering := surroundings.gather fun _ => ⟨List.replicate 11 7, 3, []⟩
    gathering.pool.words =
      [0x65000000, 1, 250000, 250000000] ++ List.replicate 11 7 ++ [4242] ∧ gathering.log = [] := by
  decide

end ChainedMultimap
