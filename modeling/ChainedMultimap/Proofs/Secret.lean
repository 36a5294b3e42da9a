import ChainedMultimap.Process
import ChainedMultimap.Proofs.Digest
import Mathlib.Data.List.Forall2

/-!
# One secret for the whole process

A process gathers entropy and generates its secret when it first serves a call that needs one, and
never again. Every other call leaves the process as it is and is served the same whatever a secret
would be made from just then. All keyed answers are those of the one secret, and a keyed digest
remembers it.
-/

namespace ChainedMultimap

/-- Whether a record is logged while a secret is generated. -/
def LogRecord.concernsSecret : LogRecord → Bool
  | secretInitialized | noSystemEntropy | deviceNotOpened _ | deviceNotRead _ => true
  | _ => false

/-- What a call that needs the secret is answered under it. -/
inductive AnsweredUnder (secret : Digest) : ProcessCall → ProcessAnswer → Prop where
  /-- The secret is handed out. -/
  | shared : AnsweredUnder secret .sharedSecret (.secret secret)
  /-- A keyed digest that is made remembers the secret. -/
  | made : AnsweredUnder secret .makeKeyedDigest (.function (.ok (.keyedDigest secret)))
  /-- So does one that is made as a hash function of its kind. -/
  | chosen {length : Nat} : AnsweredUnder secret (.makeFunction .keyedDigest length)
      (.function (.ok (.keyedDigest secret)))
  /-- The keyed digest of a message is the one under the secret. -/
  | digest {message : Bytes} {digest : Digest} (keyed : digest.IsKeyed secret message) :
      AnsweredUnder secret (.keyedDigest message) (.digest digest)
  /-- Hashing gives the number whose digits to the base 256 are the first four bytes of the keyed
  digest, lowest first, whatever the function remembers. -/
  | hash {carried digest : Digest} {message : Bytes} {word : UInt32}
      (keyed : digest.IsKeyed secret message)
      (first : word.toNat = (digest.get 0).toNat + 2 ^ 8 * (digest.get 1).toNat +
        2 ^ 16 * (digest.get 2).toNat + 2 ^ 24 * (digest.get 3).toNat) :
      AnsweredUnder secret (.hash (.keyedDigest carried) message) (.word word)

/-- The secret and the call determine the answer. -/
theorem AnsweredUnder.unique {secret : Digest} {call : ProcessCall} {answer other : ProcessAnswer}
    (answered : AnsweredUnder secret call answer) (again : AnsweredUnder secret call other) :
    answer = other := by
  cases answered with
  | shared | made | chosen =>
    cases again
    rfl
  | digest keyed =>
    cases again with
    | digest keyedAgain =>
      rw [keyed.eq_keyedMd5, keyedAgain.eq_keyedMd5]
  | hash keyed first =>
    cases again with
    | hash keyedAgain firstAgain =>
      obtain rfl := keyed.eq_keyedMd5
      obtain rfl := keyedAgain.eq_keyedMd5
      rw [UInt32.toNat_inj.mp (first.trans firstAgain.symm)]

namespace Moment

/-- The gathering of entropy that would be made at the moment. -/
def gathering (moment : Moment) : Gathering := moment.surroundings.gather moment.device.source

/-- The secret that would be generated at the moment. -/
def secret (moment : Moment) : Digest := moment.gathering.pool.secret

/-- What would be logged while the secret is generated at the moment. -/
def secretLog (moment : Moment) : List LogRecord :=
  moment.gathering.log ++ [.secretInitialized]

/-- While entropy is gathered, nothing but the lack of it is logged. -/
theorem of_mem_gatheringLog {moment : Moment} {record : LogRecord}
    (logged : record ∈ moment.gathering.log) :
    record.concernsSecret ∧ record ≠ .secretInitialized := by
  rcases List.mem_append.mp logged with source | lack
  · have fault : (∃ fault, record = .deviceNotOpened fault) ∨
        ∃ fault, record = .deviceNotRead fault := by
      change record ∈ (moment.device.source _).log at source
      cases device : moment.device <;> rw [device] at source
      · exact .inl ⟨_, List.mem_singleton.mp source⟩
      · exact .inr ⟨_, List.mem_singleton.mp source⟩
      · cases source
    rcases fault with ⟨fault, rfl⟩ | ⟨fault, rfl⟩ <;> exact ⟨rfl, nofun⟩
  · obtain ⟨-, noted⟩ := List.mem_ite_nil_right.mp lack
    obtain rfl := List.mem_singleton.mp noted
    exact ⟨rfl, nofun⟩

/-- All that is logged while the secret is generated concerns it. -/
theorem filter_secretLog (moment : Moment) :
    moment.secretLog.filter LogRecord.concernsSecret = moment.secretLog := by
  rw [List.filter_eq_self]
  intro record logged
  rcases List.mem_append.mp logged with gathering | last
  · exact (of_mem_gatheringLog gathering).1
  · rw [List.mem_singleton.mp last]
    rfl

/-- The generation of a secret is logged once. -/
theorem count_secretLog (moment : Moment) : moment.secretLog.count .secretInitialized = 1 := by
  have none : moment.gathering.log.count .secretInitialized = 0 :=
    List.count_eq_zero.mpr fun logged => (of_mem_gatheringLog logged).2 rfl
  rw [secretLog, List.count_append, none, List.count_singleton_self]

/-- Two moments that differ at most in what a secret would be made from. -/
structure Alike (one other : Moment) : Prop where
  /-- The same numbers of words can be reserved. -/
  allows : other.allows = one.allows
  /-- The clock that seeds Zobrist tables is the same. -/
  clockSeed : other.clockSeed = one.clockSeed

/-- Nothing differs between a moment and itself. -/
theorem Alike.refl (moment : Moment) : moment.Alike moment := ⟨rfl, rfl⟩

end Moment

/-- The moment of the first call that needs the secret. -/
def firstKeyed? (calls : List (Moment × ProcessCall)) : Option Moment :=
  (calls.find? (·.2.isKeyed)).map Prod.fst

/-- There is such a moment if any call needs the secret. -/
theorem isSome_firstKeyed? (calls : List (Moment × ProcessCall)) :
    (firstKeyed? calls).isSome = calls.any (·.2.isKeyed) := by
  rw [firstKeyed?, Option.isSome_map, Bool.eq_iff_iff, List.find?_isSome, List.any_eq_true]

/-- A call that does not need the secret is passed over. -/
theorem firstKeyed?_cons_of_plain {call : ProcessCall} (plain : call.isKeyed = false)
    (moment : Moment) (rest : List (Moment × ProcessCall)) :
    firstKeyed? ((moment, call) :: rest) = firstKeyed? rest := by
  rw [firstKeyed?, List.find?_cons_of_neg (by simp [plain]), firstKeyed?]

/-- A call that needs the secret in front of all others is the first one. -/
theorem firstKeyed?_cons_of_isKeyed {call : ProcessCall} (keyed : call.isKeyed)
    (moment : Moment) (rest : List (Moment × ProcessCall)) :
    firstKeyed? ((moment, call) :: rest) = some moment := by
  rw [firstKeyed?, List.find?_cons_of_pos (by exact keyed), Option.map_some]

namespace Process

variable {process : Process} {secret : Digest} {moment : Moment} {call : ProcessCall}
  {calls : List (Moment × ProcessCall)}

/-! ## One call -/

/-- A stored secret is used without gathering or logging anything. -/
theorem use_of_stored (stored : process.cell.stored = some secret) (maker : SecretMaker) :
    process.use maker = ⟨secret, process, []⟩ := by
  rw [use, stored]

/-- After its use the secret is stored. -/
theorem stored_use (process : Process) (maker : SecretMaker) :
    (process.use maker).state.cell.stored = some (process.use maker).answer := by
  cases stored : process.cell.stored with
  | none => rw [use, stored]
  | some secret => rw [use_of_stored stored, stored]

/-- A call that needs the secret uses it and is answered under it. -/
theorem serve_of_isKeyed (keyed : call.isKeyed) (process : Process) (moment : Moment) :
    let used := process.use moment.secretMaker
    ∃ answer, process.serve moment call = ⟨answer, used.state, used.log⟩ ∧
      AnsweredUnder used.answer call answer := by
  intro used
  cases call with
  | md5 | isInitialized => cases keyed
  | hash function message =>
    cases function with
    | lcg | zobrist => cases keyed
    | keyedDigest carried =>
      have keyed := Digest.isKeyed_keyedMd5 used.answer message
      refine ⟨.word (keyedMd5 used.answer message).firstWord, ?_,
        .hash keyed (Digest.toNat_firstWord _)⟩
      simp only [serve, hash, keyedDigest, used]
  | makeFunction kind length =>
    cases kind with
    | lcg | zobrist => cases keyed
    | keyedDigest => exact ⟨_, rfl, .chosen⟩
  | makeKeyedDigest => exact ⟨_, rfl, .made⟩
  | sharedSecret => exact ⟨_, rfl, .shared⟩
  | keyedDigest message =>
    have keyed := Digest.isKeyed_keyedMd5 used.answer message
    refine ⟨.digest (keyedMd5 used.answer message), ?_, .digest keyed⟩
    simp only [serve, keyedDigest, used]

/-- Any other call leaves the process as it is and is served the same whatever a secret would be made
from. It logs nothing of a secret and hands out no keyed digest. -/
theorem serve_of_plain (plain : call.isKeyed = false) (process : Process) (moment : Moment) :
    ∃ answer log,
      (∀ other, moment.Alike other → process.serve other call = ⟨answer, process, log⟩) ∧
      log.filter LogRecord.concernsSecret = [] ∧
      ∀ carried, answer ≠ .function (.ok (.keyedDigest carried)) := by
  cases call with
  | md5 message => exact ⟨.digest _, [], fun _ _ => rfl, rfl, nofun⟩
  | isInitialized => exact ⟨.flag _, [], fun _ _ => rfl, rfl, nofun⟩
  | hash function message =>
    cases function with
    | lcg | zobrist => exact ⟨.word _, [], fun _ _ => rfl, rfl, nofun⟩
    | keyedDigest carried => cases plain
  | makeFunction kind length =>
    cases kind with
    | lcg => exact ⟨.function (.ok .lcg), [], fun _ _ => rfl, rfl, nofun⟩
    | zobrist =>
      have served : ∀ other, moment.Alike other →
          process.serve other (.makeFunction .zobrist length) =
            process.serve moment (.makeFunction .zobrist length) := by
        intro other alike
        simp only [serve, makeFunction, Moment.hashMaker, alike.allows, alike.clockSeed]
      refine ⟨_, _, served, ?_⟩
      simp only [makeFunction, Zobrist.ofSeed, Zobrist.ofWords]
      split <;> exact ⟨rfl, nofun⟩
    | keyedDigest => cases plain
  | makeKeyedDigest | sharedSecret | keyedDigest message => cases plain

/-- With a secret stored any call leaves the process as it is and logs nothing of a secret. -/
theorem serve_of_stored (stored : process.cell.stored = some secret) (moment : Moment)
    (call : ProcessCall) : (process.serve moment call).state = process ∧
      (process.serve moment call).log.filter LogRecord.concernsSecret = [] := by
  cases keyed : call.isKeyed with
  | false =>
    obtain ⟨answer, log, served, silent, -⟩ := serve_of_plain keyed process moment
    rw [served moment (.refl moment)]
    exact ⟨rfl, silent⟩
  | true =>
    obtain ⟨answer, served, -⟩ := serve_of_isKeyed keyed process moment
    rw [served, use_of_stored stored]
    exact ⟨rfl, rfl⟩

/-- What a secret would be made from matters to a keyed call as far as it shows in the use of the
secret. -/
theorem serve_congr_of_isKeyed (keyed : call.isKeyed) {other : Moment}
    (used : process.use other.secretMaker = process.use moment.secretMaker) :
    process.serve other call = process.serve moment call := by
  obtain ⟨one, served, first⟩ := serve_of_isKeyed keyed process moment
  obtain ⟨two, servedOther, second⟩ := serve_of_isKeyed keyed process other
  rw [used] at second servedOther
  rw [served, servedOther, second.unique first]

/-- No operation reads the record of the gatherings: on the cell alone each of them answers, stores and
logs what it does in the process. -/
structure SeenAtCell (process : Process) (moment : Moment) : Prop where
  /-- The secret is used alike. -/
  use : process.cell.use moment.secretMaker = (process.use moment.secretMaker).map cell id
  /-- Messages are digested alike. -/
  keyedDigest : ∀ message, process.cell.keyedDigest moment.secretMaker message =
    (process.keyedDigest moment.secretMaker message).map cell id
  /-- Hash functions are made alike. -/
  make : ∀ kind length, HashFunction.make kind length moment.hashMaker process.cell =
    (process.makeFunction moment.hashMaker kind length).map cell id
  /-- Messages are hashed alike. -/
  hash : ∀ function message, HashFunction.hash function moment.secretMaker process.cell message =
    (process.hash moment.secretMaker function message).map cell id

/-- So it is in every process. -/
theorem seenAtCell (process : Process) (moment : Moment) : process.SeenAtCell moment := by
  obtain ⟨⟨stored⟩, gatherings⟩ := process
  cases stored with
  | none | some _ =>
    refine ⟨rfl, fun _ => rfl, fun kind _ => ?_, fun function _ => ?_⟩
    · cases kind <;> rfl
    · cases function <;> rfl

/-! ## All calls -/

/-- There is an answer to every call. -/
theorem length_answer_serveAll (process : Process) (calls : List (Moment × ProcessCall)) :
    (process.serveAll calls).answer.length = calls.length := by
  induction calls generalizing process with
  | nil => rfl
  | cons step rest ih => exact congrArg (· + 1) (ih _)

/-- Serving further calls goes on from the process that is left. -/
theorem serveAll_append (process : Process) (calls later : List (Moment × ProcessCall)) :
    let done := process.serveAll calls
    let others := done.state.serveAll later
    process.serveAll (calls ++ later) =
      ⟨done.answer ++ others.answer, others.state, done.log ++ others.log⟩ := by
  induction calls generalizing process with
  | nil => rfl
  | cons step rest ih =>
    obtain ⟨moment, call⟩ := step
    simp only [List.cons_append, serveAll, ih (process.serve moment call).state, List.append_assoc]

/-- Once a secret is stored, nothing is gathered and nothing of a secret is logged any more. -/
theorem serveAll_of_stored (stored : process.cell.stored = some secret)
    (calls : List (Moment × ProcessCall)) :
    let done := process.serveAll calls
    done.state = process ∧ done.log.filter LogRecord.concernsSecret = [] := by
  induction calls with
  | nil => exact ⟨rfl, rfl⟩
  | cons step rest ih =>
    obtain ⟨moment, call⟩ := step
    obtain ⟨unchanged, quiet⟩ := serve_of_stored stored moment call
    obtain ⟨kept, silent⟩ := ih
    simp only [serveAll, unchanged, List.filter_append, quiet, List.nil_append]
    exact ⟨kept, silent⟩

/-- Starting without a secret, the first call that needs one has entropy gathered and the secret
generated, then and there. -/
theorem serveAll_start (calls : List (Moment × ProcessCall)) :
    let done := start.serveAll calls
    done.state.gatherings = ((firstKeyed? calls).map Moment.gathering).toList ∧
      done.state.cell.stored = (firstKeyed? calls).map Moment.secret ∧
      done.log.filter LogRecord.concernsSecret =
        ((firstKeyed? calls).map Moment.secretLog).getD [] := by
  induction calls with
  | nil => exact ⟨rfl, rfl, rfl⟩
  | cons step rest ih =>
    obtain ⟨moment, call⟩ := step
    cases keyed : call.isKeyed with
    | false =>
      obtain ⟨answer, log, served, silent, -⟩ := serve_of_plain keyed start moment
      simp only [serveAll, served moment (.refl moment), List.filter_append, silent,
        List.nil_append, firstKeyed?_cons_of_plain keyed]
      exact ih
    | true =>
      -- The secret is stored from here on, so the rest of the calls adds nothing.
      obtain ⟨answer, served, -⟩ := serve_of_isKeyed keyed start moment
      obtain ⟨kept, silent⟩ := serveAll_of_stored (stored_use start moment.secretMaker) rest
      simp only [serveAll, served, kept, List.filter_append, silent, List.append_nil,
        firstKeyed?_cons_of_isKeyed keyed]
      exact ⟨rfl, rfl, moment.filter_secretLog⟩

/-- All keyed calls are answered under the secret that is stored in the end. -/
theorem answeredUnder_of_serveAll
    (stored : (process.serveAll calls).state.cell.stored = some secret) :
    ∀ step ∈ calls.zip (process.serveAll calls).answer, step.1.2.isKeyed →
      AnsweredUnder secret step.1.2 step.2 := by
  induction calls generalizing process with
  | nil =>
    intro pair member
    cases member
  | cons step rest ih =>
    obtain ⟨moment, call⟩ := step
    rw [serveAll] at stored
    rw [serveAll, List.zip_cons_cons]
    intro pair member keyed
    rcases List.mem_cons.mp member with rfl | later
    · obtain ⟨answer, served, answered⟩ := serve_of_isKeyed keyed process moment
      have fixed := stored_use process moment.secretMaker
      have same : (process.use moment.secretMaker).answer = secret := by
        rw [served] at stored
        rw [(serveAll_of_stored fixed rest).1, fixed] at stored
        exact Option.some.inj stored
      rw [served]
      rwa [same] at answered
    · exact ih stored pair later keyed

/-- A keyed digest that is handed out remembers the secret that is stored in the end. -/
theorem stored_of_function
    (made : .function (.ok (.keyedDigest secret)) ∈ (process.serveAll calls).answer) :
    (process.serveAll calls).state.cell.stored = some secret := by
  induction calls generalizing process with
  | nil => cases made
  | cons step rest ih =>
    obtain ⟨moment, call⟩ := step
    rcases List.mem_cons.mp made with now | later
    · cases keyed : call.isKeyed with
      | false =>
        obtain ⟨answer, log, served, -, apart⟩ := serve_of_plain keyed process moment
        rw [served moment (.refl moment)] at now
        exact absurd now.symm (apart secret)
      | true =>
        obtain ⟨answer, served, answered⟩ := serve_of_isKeyed keyed process moment
        have fixed := stored_use process moment.secretMaker
        have same : (process.use moment.secretMaker).answer = secret := by
          rw [served] at now
          obtain rfl : answer = _ := now.symm
          cases answered <;> rfl
        rw [serveAll, served]
        rw [(serveAll_of_stored fixed rest).1, fixed, same]
    · exact ih later

/-- Hashing with a keyed digest that remembers the stored secret is hashing with what it remembers,
and so is hashing with a function that needs no secret. -/
theorem serve_hash {function : HashFunction}
    (remembers : ∀ carried, function = .keyedDigest carried → process.cell.stored = some carried)
    (moment : Moment) (message : Bytes) :
    (process.serve moment (.hash function message)).answer = .word (function.strategy message) := by
  cases function with
  | lcg | zobrist => rfl
  | keyedDigest carried =>
    rw [serve, hash, keyedDigest, use_of_stored (remembers carried rfl)]
    rfl

/-- What a secret would be made from matters at the first call that needs one alone. -/
theorem serveAll_congr {others : List (Moment × ProcessCall)}
    (alike : List.Forall₂ (fun one other => other.2 = one.2 ∧ one.1.Alike other.1) calls others)
    (first : process.cell.stored.isSome ∨ firstKeyed? others = firstKeyed? calls) :
    process.serveAll others = process.serveAll calls := by
  induction alike generalizing process with
  | nil => rfl
  | @cons step other rest others same _ ih =>
    obtain ⟨moment, call⟩ := step
    obtain ⟨moment', call'⟩ := other
    obtain ⟨rfl, alike⟩ := same
    -- A keyed call either finds the secret stored or is the first one, at the same moment in both.
    have here : process.serve moment' call' = process.serve moment call' := by
      cases keyed : call'.isKeyed with
      | false =>
        obtain ⟨answer, log, served, -⟩ := serve_of_plain keyed process moment
        rw [served moment' alike, served moment (.refl moment)]
      | true =>
        apply serve_congr_of_isKeyed keyed
        rcases first with known | same
        · obtain ⟨secret, stored⟩ := Option.isSome_iff_exists.mp known
          rw [use_of_stored stored, use_of_stored stored]
        · rw [firstKeyed?_cons_of_isKeyed keyed, firstKeyed?_cons_of_isKeyed keyed] at same
          rw [Option.some.inj same]
    have onward : (process.serve moment call').state.cell.stored.isSome ∨
        firstKeyed? others = firstKeyed? rest := by
      cases keyed : call'.isKeyed with
      | false =>
        obtain ⟨answer, log, served, -⟩ := serve_of_plain keyed process moment
        rw [served moment (.refl moment)]
        rwa [firstKeyed?_cons_of_plain keyed, firstKeyed?_cons_of_plain keyed] at first
      | true =>
        obtain ⟨answer, served, -⟩ := serve_of_isKeyed keyed process moment
        rw [served, stored_use]
        exact .inl rfl
    rw [serveAll, serveAll, here, ih onward]

/-- Whoever asks whether there is a secret is told whether an earlier call has needed one. -/
theorem answer_isInitialized (earlier later : List (Moment × ProcessCall)) (moment : Moment) :
    (start.serveAll (earlier ++ (moment, .isInitialized) :: later)).answer[earlier.length]? =
      some (.flag (earlier.any (·.2.isKeyed))) := by
  have place : (start.serveAll earlier).answer.length = earlier.length :=
    length_answer_serveAll start earlier
  have known : (start.serveAll earlier).state.cell.isInitialized =
      earlier.any (·.2.isKeyed) := by
    rw [SecretCell.isInitialized, (serveAll_start earlier).2.1, Option.isSome_map,
      isSome_firstKeyed?]
  rw [serveAll_append, ← place, List.getElem?_append_right (Nat.le_refl _), Nat.sub_self, serveAll,
    serve, known, List.getElem?_cons_zero]

/-- The outcome of calls that start without a secret, in a process that never has more than one. -/
structure OneSecret (calls : List (Moment × ProcessCall))
    (done : Outcome Process (List ProcessAnswer)) : Prop where
  /-- There is a secret exactly if a call has needed one. -/
  isInitialized : done.state.cell.isInitialized = calls.any (·.2.isKeyed)
  /-- Whoever asks is told whether an earlier call has needed one. -/
  asked : ∀ earlier moment later, calls = earlier ++ (moment, .isInitialized) :: later →
    done.answer[earlier.length]? = some (.flag (earlier.any (·.2.isKeyed)))
  /-- Entropy was gathered once, at the first call that needed the secret, or never. -/
  gathered : done.state.gatherings = ((firstKeyed? calls).map Moment.gathering).toList
  /-- The secret is the one generated from what was gathered then. -/
  stored : done.state.cell.stored = (firstKeyed? calls).map Moment.secret
  /-- What is logged of a secret is this generation alone. -/
  log : done.log.filter LogRecord.concernsSecret =
    ((firstKeyed? calls).map Moment.secretLog).getD []
  /-- It is logged as one initialization. -/
  logged : done.log.count .secretInitialized = if calls.any (·.2.isKeyed) then 1 else 0
  /-- Nothing depends on what a secret would be made from at any other call. -/
  independent : ∀ others,
    List.Forall₂ (fun one other => other.2 = one.2 ∧ one.1.Alike other.1) calls others →
    firstKeyed? others = firstKeyed? calls → start.serveAll others = done
  /-- Once there is a secret, it stays and nothing more is gathered, whatever is called next. -/
  kept : done.state.cell.isInitialized →
    ∀ later, (done.state.serveAll later).state = done.state
  /-- Every call that needed the secret was answered under it. -/
  answered : ∀ secret, done.state.cell.stored = some secret →
    ∀ step ∈ calls.zip done.answer, step.1.2.isKeyed → AnsweredUnder secret step.1.2 step.2
  /-- Calls that needed the secret for the same were answered the same, however far apart. -/
  constant : ∀ step ∈ calls.zip done.answer, ∀ other ∈ calls.zip done.answer,
    step.1.2.isKeyed → other.1.2 = step.1.2 → other.2 = step.2
  /-- At all later times the hash functions handed out hash as by their own state. -/
  hashed : ∀ function, .function (.ok function) ∈ done.answer → ∀ later moment message,
    ((done.state.serveAll later).state.serve moment (.hash function message)).answer =
      .word (function.strategy message)
  /-- At all later times the operations on the cell alone do what they do in the process. -/
  seen : ∀ later moment, (done.state.serveAll later).state.SeenAtCell moment

/-- A process generates its secret at most once and never changes it, whatever its callers ask for and
in whatever order. -/
theorem oneSecret_serveAll (calls : List (Moment × ProcessCall)) :
    OneSecret calls (start.serveAll calls) := by
  obtain ⟨gathered, stored, log⟩ := serveAll_start calls
  have needed := isSome_firstKeyed? calls
  have known : (start.serveAll calls).state.cell.isInitialized = calls.any (·.2.isKeyed) := by
    rw [SecretCell.isInitialized, stored, Option.isSome_map, needed]
  have kept : (start.serveAll calls).state.cell.isInitialized →
      ∀ later, ((start.serveAll calls).state.serveAll later).state =
        (start.serveAll calls).state := by
    intro present later
    obtain ⟨secret, present⟩ := Option.isSome_iff_exists.mp present
    exact (serveAll_of_stored present later).1
  refine
    { isInitialized := known
      asked := ?_
      gathered := gathered
      stored := stored
      log := log
      logged := ?_
      independent := fun others alike first => serveAll_congr alike (.inr first)
      kept := kept
      answered := fun secret present => answeredUnder_of_serveAll present
      constant := ?_
      hashed := ?_
      seen := fun _ moment => seenAtCell _ moment }
  · rintro earlier moment later rfl
    exact answer_isInitialized earlier later moment
  · have counted : (start.serveAll calls).log.count .secretInitialized =
        ((start.serveAll calls).log.filter LogRecord.concernsSecret).count .secretInitialized :=
      (List.count_filter rfl).symm
    rw [counted, log, ← needed]
    cases firstKeyed? calls with
    | none => rfl
    | some moment => exact moment.count_secretLog
  · intro step member other otherMember keyed same
    have used : calls.any (·.2.isKeyed) :=
      List.any_eq_true.mpr ⟨step.1, (List.of_mem_zip member).1, keyed⟩
    obtain ⟨secret, present⟩ := Option.isSome_iff_exists.mp (known.trans used)
    have answered := answeredUnder_of_serveAll present step member keyed
    have again := answeredUnder_of_serveAll present other otherMember (same ▸ keyed)
    rw [same] at again
    exact again.unique answered
  · intro function made later moment message
    apply serve_hash
    rintro carried rfl
    have present := stored_of_function made
    rw [kept (Option.isSome_iff_exists.mpr ⟨carried, present⟩) later, present]

/-- The third of six calls needs the secret first, when no file can be opened any more. The secret
generated then stays, although the entropy device is ready from the fourth call on: the keyed digest of
a message before that and its hash after it are of the one secret. -/
theorem oneSecret_serveAll_late :
    let surroundings : Surroundings := ⟨⟨1700000000, 250000, 250000000⟩, 4242, some 1000⟩
    let scarce : Moment := ⟨surroundings, .notOpened .tooManyOpenFiles, fun _ => true, 7⟩
    let later : Moment := ⟨surroundings, .ready (List.replicate 64 1), fun _ => true, 8⟩
    let secret : Digest := #v[99, 142, 35, 184, 28, 88, 5, 249, 59, 63, 33, 49, 66, 7, 237, 9]
    let calls : List (Moment × ProcessCall) :=
      [(scarce, .hash .lcg [1, 2]), (scarce, .isInitialized), (scarce, .keyedDigest [1, 2]),
        (later, .sharedSecret), (later, .isInitialized), (later, .hash (.keyedDigest secret) [1, 2])]
    let done := start.serveAll calls
    OneSecret calls done ∧
      done.state.gatherings = [scarce.gathering] ∧ done.state.cell.stored = some secret ∧
      done.log.filter LogRecord.concernsSecret =
        [.deviceNotOpened .tooManyOpenFiles, .noSystemEntropy, .secretInitialized] ∧
      done.answer = [.word (Lcg.hash [1, 2]), .flag false,
        .digest #v[164, 38, 102, 54, 215, 187, 101, 56, 120, 147, 221, 131, 47, 245, 41, 211],
        .secret secret, .flag true, .word (164 + 2 ^ 8 * 38 + 2 ^ 16 * 102 + 2 ^ 24 * 54)] := by
  intro surroundings scarce later secret calls done
  have one : OneSecret calls done := oneSecret_serveAll calls
  have first : firstKeyed? calls = some scarce := rfl
  have gathered : done.state.gatherings = [scarce.gathering] := by
    rw [one.gathered, first, Option.map_some, Option.toList_some]
  have generated : scarce.secret = secret := by decide +kernel
  have stored : done.state.cell.stored = some secret := by
    rw [one.stored, first, Option.map_some, generated]
  have log : done.log.filter LogRecord.concernsSecret = scarce.secretLog := by
    rw [one.log, first, Option.map_some, Option.getD_some]
  have digest : keyedMd5 secret [1, 2] =
      #v[164, 38, 102, 54, 215, 187, 101, 56, 120, 147, 221, 131, 47, 245, 41, 211] := by
    decide +kernel
  have answers : done.answer = [.word (Lcg.hash [1, 2]), .flag false,
      .digest (keyedMd5 scarce.secret [1, 2]), .secret scarce.secret, .flag true,
      .word (keyedMd5 scarce.secret [1, 2]).firstWord] := rfl
  refine ⟨one, gathered, stored, log, ?_⟩
  rw [answers, generated, digest]
  rfl

end Process

end ChainedMultimap
