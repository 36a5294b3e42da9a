import ChainedMultimap.Proofs.Digest
import ChainedMultimap.Proofs.Gathering
import ChainedMultimap.Secret.Device
import Mathlib

/-!
# What the entropy device supplies

A read of the device supplies one word for every four bytes that it got, and up to three bytes at the
end come to nothing. The number of bytes is what it reports, though, and the warning looks at that
number alone. So a read of one to three bytes leaves a pool of clock, process and user and passes in
silence; every other read without a word, the failed ones among them, is warned of.
-/

namespace ChainedMultimap

open EntropyPool

namespace Bytes

/-! ## Words of a buffer -/

/-- The bytes of a word are those that it was made of. -/
theorem ofWord32_toWord32 (b0 b1 b2 b3 : UInt8) :
    ofWord32 (toWord32 b0 b1 b2 b3) = [b0, b1, b2, b3] := by
  have number := toNat_toWord32 b0 b1 b2 b3
  have first := b0.toNat_lt
  have second := b1.toNat_lt
  have third := b2.toNat_lt
  have fourth := b3.toNat_lt
  generalize toWord32 b0 b1 b2 b3 = word at number
  simp only [ofWord32, List.cons.injEq, and_true, ← UInt8.toNat_inj, UInt32.toNat_toUInt8,
    UInt32.toNat_shiftRight, Nat.shiftRight_eq_div_pow, UInt32.reduceToNat, Nat.reduceMod,
    Nat.reducePow]
  omega

/-- Fewer than four bytes make no word. -/
theorem words32_of_length_lt {bytes : Bytes} (few : bytes.length < 4) : words32 bytes = [] := by
  rcases bytes with _ | ⟨b0, _ | ⟨b1, _ | ⟨b2, _ | ⟨b3, rest⟩⟩⟩⟩
  · rfl
  · rfl
  · rfl
  · rfl
  · simp only [List.length_cons] at few
    omega

/-- There is a word for every four bytes. -/
theorem length_words32 (bytes : Bytes) : (words32 bytes).length = bytes.length / 4 := by
  induction bytes using fours_induction with
  | short bytes few => rw [words32_of_length_lt few, List.length_nil, Nat.div_eq_of_lt few]
  | whole front rest four ih =>
    have more : (front ++ rest).length / 4 = rest.length / 4 + 1 := by
      rw [List.length_append, four]
      omega
    rw [more, ← ih]
    obtain ⟨b0, b1, b2, b3, rfl⟩ := List.length_eq_four.mp four
    rfl

/-- The words have the bytes in their order, but for the last one to three. -/
theorem ofWords32_words32 (bytes : Bytes) :
    ofWords32 (words32 bytes) = bytes.take (4 * (bytes.length / 4)) := by
  induction bytes using fours_induction with
  | short bytes few =>
    rw [words32_of_length_lt few, Nat.div_eq_of_lt few]
    rfl
  | whole front rest four ih =>
    have more : 4 * ((front ++ rest).length / 4) = front.length + 4 * (rest.length / 4) := by
      rw [List.length_append, four]
      omega
    rw [more, List.take_length_add_append, ← ih]
    obtain ⟨b0, b1, b2, b3, rfl⟩ := List.length_eq_four.mp four
    change ofWord32 (toWord32 b0 b1 b2 b3) ++ ofWords32 (words32 rest) = _
    rw [ofWord32_toWord32]

/-- Reading whole words from a place of a buffer gives those of the bytes that stand there. -/
theorem wordsAt?_append (front bytes rest : Bytes) :
    (front ++ (bytes ++ rest)).wordsAt? front.length (bytes.length / 4) =
      some (words32 bytes) := by
  induction bytes using fours_induction generalizing front with
  | short bytes few =>
    rw [words32_of_length_lt few, Nat.div_eq_of_lt few]
    rfl
  | whole group others four ih =>
    have more : (group ++ others).length / 4 = others.length / 4 + 1 := by
      rw [List.length_append, four]
      omega
    have later := ih (front ++ group)
    rw [List.append_assoc, List.length_append, four] at later
    rw [more, wordsAt?, List.append_assoc, later]
    obtain ⟨b0, b1, b2, b3, rfl⟩ := List.length_eq_four.mp four
    have here : (front ++ ([b0, b1, b2, b3] ++ (others ++ rest))).wordAt? front.length =
        some (toWord32 b0 b1 b2 b3) := by
      simp [wordAt?]
    rw [here]
    rfl

end Bytes

/-! ## In place -/

namespace EntropyPool

/-- Pushing the bytes at the front of a buffer pushes the whole words that they make up. -/
theorem pushBuffer?_slots (pool : EntropyPool) (bytes rest : Bytes) :
    pool.slots.pushBuffer? (bytes ++ rest) bytes.length =
      some (pool.pushAll (Bytes.words32 bytes)).2.slots := by
  have inside : bytes.length ≤ (bytes ++ rest).length := by
    rw [List.length_append]
    exact Nat.le_add_right _ _
  have words : (bytes ++ rest).wordsAt? 0 (bytes.length / 4) = some (Bytes.words32 bytes) :=
    Bytes.wordsAt?_append [] bytes rest
  rw [Slots.pushBuffer?, if_pos inside, words, Option.bind_eq_bind, Option.bind_some, pushAll?_slots]
  rfl

/-- Four bytes are wanted for every slot that is not in use. -/
theorem wanted?_slots (pool : EntropyPool) : pool.slots.wanted? = some (4 * pool.remaining) :=
  if_pos pool.length_le

end EntropyPool

namespace EntropyDevice

variable (device : EntropyDevice)

/-- In place, reading pushes the words that the device supplies. -/
theorem read?_slots (pool : EntropyPool) (wanted : Nat) :
    let reading := device.source wanted
    device.read? pool.slots wanted =
      some ⟨reading.reported, (pool.pushAll reading.words).2.slots, reading.log⟩ := by
  intro reading
  cases device with
  | notOpened fault => rfl
  | notRead fault =>
    have nothing := pool.pushBuffer?_slots [] (List.replicate (4 * capacity) 0)
    rw [List.nil_append, List.length_nil] at nothing
    simp only [read?, nothing]
    rfl
  | ready available =>
    simp only [read?, pushBuffer?_slots, List.length_replicate]
    rfl

/-- In place, gathering from the device fills the slots of the pool. -/
theorem gather?_read? (surroundings : Surroundings) :
    let gathering := surroundings.gather device.source
    surroundings.gather? device.read? = some ⟨48, gathering.pool.slots, gathering.log⟩ := by
  intro gathering
  simp only [Surroundings.gather?, ← slots_empty, pushAll?_slots, wanted?_slots, read?_slots,
    Option.bind_eq_bind, Option.bind_some]
  rfl

/-- The bytes that a read gets when 48 are wanted: none if it fails. -/
def obtained : EntropyDevice → Bytes
  | notOpened _ | notRead _ => []
  | ready available => available.take 48

/-- A device supplies the whole words of the bytes that it obtained, and reports the number of
bytes. -/
theorem source_eq : (device.source 48).words = Bytes.words32 device.obtained ∧
    (device.source 48).reported = device.obtained.length := by
  cases device with
  | notOpened fault => exact ⟨rfl, rfl⟩
  | notRead fault => exact ⟨rfl, rfl⟩
  | ready available => exact ⟨rfl, rfl⟩

/-- A read that succeeds gets what is ready, up to the 48 bytes that are wanted. -/
theorem length_obtained_le : device.obtained.length ≤ 48 := by
  cases device with
  | notOpened fault => exact Nat.zero_le 48
  | notRead fault => exact Nat.zero_le 48
  | ready available => exact List.length_take_le 48 available

/-- A device supplies one word for every four bytes that it obtained. -/
theorem length_words_source : (device.source 48).words.length = device.obtained.length / 4 := by
  rw [device.source_eq.1, Bytes.length_words32]

end EntropyDevice

/-! ## Warnings -/

/-- Nothing but the clock, the process and the user went into the pool of a gathering. -/
def Gathering.Guessable (gathering : Gathering) (surroundings : Surroundings) : Prop :=
  gathering.pool.gathered = surroundings.clock.words ++ surroundings.identity

namespace Surroundings

variable (surroundings : Surroundings) (device : EntropyDevice)

/-- At most two numbers identify a process. -/
theorem length_identity_le : surroundings.identity.length ≤ 2 := by
  rw [identity]
  cases surroundings.userId with
  | none => exact Nat.le_succ 1
  | some user => exact Nat.le_refl 2

/-- A pool is guessable when its source supplied no word. -/
theorem guessable_gather_iff (source : EntropySource) :
    (surroundings.gather source).Guessable surroundings ↔ (source 48).words = [] := by
  have four : surroundings.clock.words.length = 4 := rfl
  have few := surroundings.length_identity_le
  rw [Gathering.Guessable, gathered_gather, kept]
  constructor
  · intro equal
    have lengths := congrArg List.length equal
    simp only [List.length_take, List.length_append, four] at lengths
    apply List.eq_nil_of_length_eq_zero
    omega
  · intro nothing
    rw [nothing, List.take_nil, List.append_nil]
    apply List.take_of_length_le
    rw [List.length_append, four]
    omega

/-- The warning is given when the device reports no bytes. -/
theorem warned_gather_iff :
    .noSystemEntropy ∈ (surroundings.gather device.source).log ↔ device.obtained.length = 0 := by
  have quiet : .noSystemEntropy ∉ (device.source 48).log := by
    cases device with
    | notOpened fault => simp [EntropyDevice.source]
    | notRead fault => simp [EntropyDevice.source]
    | ready available => simp [EntropyDevice.source]
  have log : (surroundings.gather device.source).log = (device.source 48).log ++
      if (device.source 48).reported = 0 then [.noSystemEntropy] else [] := rfl
  rw [log, device.source_eq.2, List.mem_append, or_iff_right quiet]
  split
  · next nothing => exact iff_of_true List.mem_cons_self nothing
  · next something => exact iff_of_false List.not_mem_nil something

end Surroundings

/-- What a gathering comes to whose source is the device. -/
structure Gathering.DrawnFrom (gathering : Gathering) (device : EntropyDevice)
    (surroundings : Surroundings) : Prop where
  /-- One word is supplied for every four bytes that were read. -/
  count : (device.source 48).words.length = device.obtained.length / 4
  /-- The words have these bytes in their order, but for one to three at the end. -/
  bytes : Bytes.ofWords32 (device.source 48).words =
    device.obtained.take (4 * (device.obtained.length / 4))
  /-- In place, reading appends the words to those of the clock and answers the number of bytes. -/
  read : ∃ clocked supplied : EntropyPool,
    clocked.gathered = surroundings.clock.words ∧
    supplied.gathered = surroundings.clock.words ++ (device.source 48).words ∧
    device.read? clocked.slots 48 =
      some ⟨device.obtained.length, supplied.slots, (device.source 48).log⟩
  /-- In place, gathering fills the slots of the pool. -/
  inPlace : surroundings.gather? device.read? = some ⟨48, gathering.pool.slots, gathering.log⟩
  /-- The pool is guessable after reads of less than a word. -/
  guessable : gathering.Guessable surroundings ↔ device.obtained.length < 4
  /-- The warning is given after reads of nothing at all. -/
  warned : .noSystemEntropy ∈ gathering.log ↔ device.obtained.length = 0
  /-- So a guessable pool is passed over in silence after reads of one to three bytes. -/
  silent : gathering.Guessable surroundings ∧ .noSystemEntropy ∉ gathering.log ↔
    0 < device.obtained.length ∧ device.obtained.length < 4

/-- What comes of every outcome of opening and reading the device, in all surroundings. -/
theorem Surroundings.drawnFrom_gather (surroundings : Surroundings) (device : EntropyDevice) :
    (surroundings.gather device.source).DrawnFrom device surroundings := by
  have warned := surroundings.warned_gather_iff device
  have guessable : (surroundings.gather device.source).Guessable surroundings ↔
      device.obtained.length < 4 := by
    rw [surroundings.guessable_gather_iff, ← List.length_eq_zero_iff, device.length_words_source]
    omega
  exact {
    count := device.length_words_source
    bytes := by rw [device.source_eq.1, Bytes.ofWords32_words32]
    read := by
      let clocked := (empty.pushAll surroundings.clock.words).2
      have room : (device.source 48).words.length ≤ clocked.remaining := by
        have most := device.length_obtained_le
        rw [device.length_words_source]
        change _ ≤ 12
        omega
      refine ⟨clocked, (clocked.pushAll (device.source 48).words).2, rfl, ?_, ?_⟩
      · rw [gathered_pushAll, List.take_of_length_le room]
        rfl
      · rw [device.read?_slots, device.source_eq.2]
    inPlace := device.gather?_read? surroundings
    guessable := guessable
    warned := warned
    silent := by
      rw [guessable, warned]
      omega }

/-- A read of three bytes supplies no word and is not warned of. -/
theorem not_warned_of_three_bytes :
    ¬∀ (surroundings : Surroundings) (device : EntropyDevice),
      (surroundings.gather device.source).Guessable surroundings →
        .noSystemEntropy ∈ (surroundings.gather device.source).log := by
  intro warned
  let surroundings : Surroundings := ⟨⟨0x165000000, 250000, 250000000⟩, 4242, some 1000⟩
  let device : EntropyDevice := .ready [1, 2, 3]
  have guessable : (surroundings.gather device.source).Guessable surroundings := rfl
  have silent : .noSystemEntropy ∉ (surroundings.gather device.source).log := by decide
  exact silent (warned surroundings device guessable)

end ChainedMultimap
