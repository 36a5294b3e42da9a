import ChainedMultimap.Log
import ChainedMultimap.Secret.Pool

/-!
# Gathering entropy

A pool is filled from the wall clock, a source of the operating system, the process number and the
user number, in this order and as far as there is room. The source is told how many bytes are wanted;
it supplies words and reports a number of bytes. A report of zero bytes is logged as a warning.
-/

namespace ChainedMultimap

/-- A reading of the wall clock. -/
structure ClockReading where
  /-- Whole seconds. -/
  seconds : UInt64
  /-- Microseconds within the second. -/
  microseconds : UInt32
  /-- Nanoseconds within the second. -/
  nanoseconds : UInt32

/-- The words a clock reading contributes: both halves of the seconds, low half first, then the
fractions of the second. -/
def ClockReading.words (clock : ClockReading) : List UInt32 :=
  [clock.seconds.toUInt32, (clock.seconds >>> 32).toUInt32, clock.microseconds, clock.nanoseconds]

/-- What a source answers when asked for bytes. -/
structure SourceReading where
  /-- The words to add to the pool. -/
  words : List UInt32
  /-- The number of bytes it claims to have read. -/
  reported : Nat
  /-- The records it logged. -/
  log : List LogRecord

/-- A source of entropy: answers a request for a number of bytes. -/
abbrev EntropySource := Nat → SourceReading

/-- What the operating system does when the entropy device is asked for bytes. -/
inductive EntropyDevice where
  /-- It cannot be opened. -/
  | notOpened (fault : SystemFault)
  /-- It can be opened but not read. -/
  | notRead (fault : SystemFault)
  /-- It has these bytes ready. -/
  | ready (available : Bytes)

/-- The source that reads the entropy device once without waiting: as many bytes as are wanted, at
most 64, of those ready. Only whole words are added. -/
def EntropyDevice.source (device : EntropyDevice) : EntropySource := fun wanted =>
  match device with
  | notOpened fault => ⟨[], 0, [.deviceNotOpened fault]⟩
  | notRead fault => ⟨[], 0, [.deviceNotRead fault]⟩
  | ready available =>
    let bytes := available.take (min wanted (4 * EntropyPool.capacity))
    ⟨Bytes.words32 bytes, bytes.length, []⟩

/-- What a process finds around itself when it gathers entropy. -/
structure Surroundings where
  /-- The wall clock. -/
  clock : ClockReading
  /-- The process number. -/
  processId : UInt32
  /-- The user number, on systems that have one. -/
  userId : Option UInt32

/-- The outcome of gathering. -/
structure Gathering where
  /-- The pool as filled. -/
  pool : EntropyPool
  /-- The number of bytes the source was asked for. -/
  asked : Nat
  /-- For every word of the source, whether there was room. -/
  accepted : List Bool
  /-- The records logged. -/
  log : List LogRecord

/-- Fills a new pool. -/
def Surroundings.gather (surroundings : Surroundings) (source : EntropySource) : Gathering :=
  let clocked := (EntropyPool.empty.pushAll surroundings.clock.words).2
  let asked := 4 * clocked.remaining
  let reading := source asked
  let (accepted, supplied) := clocked.pushAll reading.words
  let identified := supplied.pushAll (surroundings.processId :: surroundings.userId.toList)
  { pool := identified.2
    asked := asked
    accepted := accepted
    log := reading.log ++ if reading.reported = 0 then [.noSystemEntropy] else [] }

end ChainedMultimap
