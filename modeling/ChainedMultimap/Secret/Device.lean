import ChainedMultimap.Outcome
import ChainedMultimap.Secret.Gathering
import ChainedMultimap.Secret.Slots

/-!
# Gathering entropy in place

Gathering once more, into slots. The source is handed the slots that the clock has left and is told how
many bytes they have room for; it writes into them and answers how many bytes it supplied. Reading the
entropy device fills the front of a buffer of zeros, and the whole words of that front are read back
byte by byte. Looking at a byte that the buffer does not have has no result, and neither has asking
slots for room of which more are in use than there are.
-/

namespace ChainedMultimap

namespace Bytes

/-- The word whose four bytes begin at a place of a buffer. -/
def wordAt? (buffer : Bytes) (place : Nat) : Option UInt32 := do
  let b0 ← buffer[place]?
  let b1 ← buffer[place + 1]?
  let b2 ← buffer[place + 2]?
  let b3 ← buffer[place + 3]?
  return toWord32 b0 b1 b2 b3

/-- Words that stand in a row from a place of a buffer on. -/
def wordsAt? (buffer : Bytes) (place : Nat) : Nat → Option (List UInt32)
  | 0 => some []
  | count + 1 => do
    let word ← buffer.wordAt? place
    let others ← buffer.wordsAt? (place + 4) count
    return word :: others

end Bytes

open EntropyPool

namespace EntropyPool.Slots

/-- The number of bytes there is still room for. -/
def wanted? (slots : Slots) : Option Nat :=
  if slots.used ≤ capacity then some (4 * (capacity - slots.used)) else none

/-- Pushes the whole words at the front of a buffer, of which a number of bytes counts. -/
def pushBuffer? (slots : Slots) (buffer : Bytes) (amount : Nat) : Option Slots :=
  if amount ≤ buffer.length then do
    let words ← buffer.wordsAt? 0 (amount / 4)
    let (_, slots) ← slots.pushAll? words
    return slots
  else none

end EntropyPool.Slots

/-- A source of entropy that writes into slots: it is told how many bytes there is room for and answers
how many it supplied. -/
abbrev SlotSource := Slots → Nat → Option (Outcome Slots Nat)

/-- Reads the device once without waiting into a buffer of 64 zeros, of which it may fill as many as are
wanted, and pushes the whole words of what was read. -/
def EntropyDevice.read? (device : EntropyDevice) : SlotSource := fun slots wanted =>
  let buffer : Bytes := List.replicate (4 * capacity) 0
  match device with
  | notOpened fault => some ⟨0, slots, [.deviceNotOpened fault]⟩
  | notRead fault => do
    let slots ← slots.pushBuffer? buffer 0
    return ⟨0, slots, [.deviceNotRead fault]⟩
  | ready available => do
    let bytes := available.take (min wanted buffer.length)
    let slots ← slots.pushBuffer? (bytes ++ buffer.drop bytes.length) bytes.length
    return ⟨bytes.length, slots, []⟩

/-- Fills new slots, and answers how many bytes the source was asked for. -/
def Surroundings.gather? (surroundings : Surroundings) (source : SlotSource) :
    Option (Outcome Slots Nat) := do
  let (_, clocked) ← Slots.empty.pushAll? surroundings.clock.words
  let wanted ← clocked.wanted?
  let supplied ← source clocked wanted
  let (_, identified) ←
    supplied.state.pushAll? (surroundings.processId :: surroundings.userId.toList)
  let warning := if supplied.answer = 0 then [LogRecord.noSystemEntropy] else []
  return ⟨wanted, identified, supplied.log ++ warning⟩

end ChainedMultimap
