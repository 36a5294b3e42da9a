import ChainedMultimap.Hash.Function

/-!
# Calls of a process

What the callers of a process can ask for around its secret: digests and hashes with and without a
key, hash functions, the secret itself, and whether there is one. The calls of all callers are served
one after another, each at a moment that says what a secret or a Zobrist table would be made from if
one had to be made just then.
-/

namespace ChainedMultimap

/-- The circumstances of a call. -/
structure Moment where
  /-- What the process finds around itself. -/
  surroundings : Surroundings
  /-- What the entropy device does when it is read. -/
  device : EntropyDevice
  /-- Which numbers of words can be reserved. -/
  allows : Allocator
  /-- The wall clock in microseconds, which seeds a Zobrist table. -/
  clockSeed : UInt64

namespace Moment

/-- How a secret would be generated at the moment. -/
def secretMaker (moment : Moment) : SecretMaker := ⟨moment.surroundings, moment.device.source⟩

/-- What making a hash function can draw on at the moment. -/
def hashMaker (moment : Moment) : HashMaker :=
  ⟨moment.secretMaker, moment.allows, moment.clockSeed⟩

end Moment

/-- What a caller asks for. -/
inductive ProcessCall where
  /-- The plain digest of a message. -/
  | md5 (message : Bytes)
  /-- Whether the secret has been generated. -/
  | isInitialized
  /-- The hash of a message under a hash function. -/
  | hash (function : HashFunction) (message : Bytes)
  /-- A hash function of a kind, with a requested length of Zobrist rows. -/
  | makeFunction (kind : HashKind) (length : Nat)
  /-- A keyed digest. -/
  | makeKeyedDigest
  /-- The secret. -/
  | sharedSecret
  /-- The keyed digest of a message. -/
  | keyedDigest (message : Bytes)

/-- What a caller is told. -/
inductive ProcessAnswer where
  /-- A digest. -/
  | digest (digest : Digest)
  /-- Yes or no. -/
  | flag (value : Bool)
  /-- A hash. -/
  | word (hash : UInt32)
  /-- A hash function, or why there is none. -/
  | function (made : Except TableError HashFunction)
  /-- The secret. -/
  | secret (secret : Digest)

/-- Whether a call needs the secret. -/
def ProcessCall.isKeyed : ProcessCall → Bool
  | md5 _ | isInitialized => false
  | hash function _ => function.kind = .keyedDigest
  | makeFunction kind _ => kind = .keyedDigest
  | makeKeyedDigest | sharedSecret | keyedDigest _ => true

namespace Process

/-- Serves one call. -/
def serve (process : Process) (moment : Moment) (call : ProcessCall) :
    Outcome Process ProcessAnswer :=
  match call with
  | .md5 message => ⟨.digest (ChainedMultimap.md5 message), process, []⟩
  | .isInitialized => ⟨.flag process.cell.isInitialized, process, []⟩
  | .hash function message =>
    let done := process.hash moment.secretMaker function message
    ⟨.word done.answer, done.state, done.log⟩
  | .makeFunction kind length =>
    let done := process.makeFunction moment.hashMaker kind length
    ⟨.function done.answer, done.state, done.log⟩
  | .makeKeyedDigest =>
    let done := process.use moment.secretMaker
    ⟨.function (.ok (.keyedDigest done.answer)), done.state, done.log⟩
  | .sharedSecret =>
    let done := process.use moment.secretMaker
    ⟨.secret done.answer, done.state, done.log⟩
  | .keyedDigest message =>
    let done := process.keyedDigest moment.secretMaker message
    ⟨.digest done.answer, done.state, done.log⟩

/-- Serves calls one after another. -/
def serveAll (process : Process) :
    List (Moment × ProcessCall) → Outcome Process (List ProcessAnswer)
  | [] => ⟨[], process, []⟩
  | (moment, call) :: rest =>
    let done := process.serve moment call
    let others := done.state.serveAll rest
    ⟨done.answer :: others.answer, others.state, done.log ++ others.log⟩

end Process

end ChainedMultimap
