import ChainedMultimap.Outcome
import ChainedMultimap.Secret.Gathering

/-!
# The process secret

A process has one secret for its keyed digests. Entropy is gathered for it at the first use, and the
secret is kept from then on. A process also has a record of the gatherings made for it; no operation
reads the record. The operations here take the process and hand back the process they leave, and each
of them is there once more for the cell that holds the secret alone.
-/

namespace ChainedMultimap

/-- Where a process keeps its secret. -/
structure SecretCell where
  /-- The secret, once generated. -/
  stored : Option Digest

/-- The means by which a process would generate a secret. -/
structure SecretMaker where
  /-- What it finds around itself. -/
  surroundings : Surroundings
  /-- Where it asks for entropy. -/
  source : EntropySource

/-- Gathers entropy for a secret. -/
def SecretMaker.gather (maker : SecretMaker) : Gathering :=
  maker.surroundings.gather maker.source

namespace SecretCell

/-- No secret has been generated. -/
def empty : SecretCell := ⟨none⟩

/-- Whether a secret has been generated. -/
def isInitialized (cell : SecretCell) : Bool := cell.stored.isSome

end SecretCell

/-- A process as far as its secret is concerned. -/
structure Process where
  /-- Where it keeps the secret. -/
  cell : SecretCell
  /-- The gatherings of entropy it has made, oldest first. -/
  gatherings : List Gathering

namespace Process

/-- No secret has been generated and no entropy gathered. -/
def start : Process := ⟨.empty, []⟩

/-- The secret. If there is none yet, entropy is gathered now and digested into one. -/
def use (process : Process) (maker : SecretMaker) : Outcome Process Digest :=
  match process.cell.stored with
  | some secret => ⟨secret, process, []⟩
  | none =>
    let gathering := maker.gather
    let secret := gathering.pool.secret
    ⟨secret, ⟨⟨some secret⟩, process.gatherings ++ [gathering]⟩,
      gathering.log ++ [.secretInitialized]⟩

/-- The keyed digest of a message under the process secret. -/
def keyedDigest (process : Process) (maker : SecretMaker) (message : Bytes) :
    Outcome Process Digest :=
  let used := process.use maker
  ⟨keyedMd5 used.answer message, used.state, used.log⟩

end Process

namespace SecretCell

/-- A process with the cell that has made no gathering yet. -/
def process (cell : SecretCell) : Process := ⟨cell, []⟩

/-- The secret, generated now if there is none yet. -/
def use (cell : SecretCell) (maker : SecretMaker) : Outcome SecretCell Digest :=
  (cell.process.use maker).map Process.cell id

/-- The keyed digest of a message under the process secret. -/
def keyedDigest (cell : SecretCell) (maker : SecretMaker) (message : Bytes) :
    Outcome SecretCell Digest :=
  (cell.process.keyedDigest maker message).map Process.cell id

end SecretCell

end ChainedMultimap
