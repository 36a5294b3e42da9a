import ChainedMultimap.Proofs.Search

/-!
# Runs of well-formed tables

A table that could be made is empty and well formed. Every command keeps a table well formed, whether
it succeeds or fails, and so does a run of any commands under any allocators.
-/

namespace ChainedMultimap

/-- The pair that a command asks to insert. -/
def Command.pair? {K Y : Type} : Command K Y → Option (K × Y)
  | .insert key yield | .insertOwned key yield => some (key, yield)
  | _ => none

/-- Whether a command failed because an array could not be reserved. -/
def Reply.isRefused {K Y : Type} : Reply K Y → Bool
  | .inserted (.error (.allocationFailure _)) | .rebuilt (.error (.allocationFailure _)) => true
  | _ => false

namespace Table

variable {K Y : Type} [Storable K] [Storable Y] {table : Table K Y}

/-- A table can be made if its ratio is accepted and its bucket array can be reserved, and is then the
empty table of the size that its hint is rounded to. -/
theorem make_eq_ok_iff {allows : Allocator} {strategy : Strategy} {options : TableOptions} :
    (make allows strategy options).1 = .ok table ↔
      options.ratio.isAccepted ∧ allows options.bucketCount ∧
        table = ofSize strategy options options.bucketCount := by
  unfold make TableOptions.validate
  by_cases accepted : options.ratio.isAccepted
  · by_cases reserved : allows options.bucketCount
    · simp [accepted, reserved, eq_comm]
    · simp [accepted, reserved]
  · simp [accepted]

/-- A table that was made has the bucket count that its options say. -/
theorem eq_ofSize_of_make {allows : Allocator} {strategy : Strategy} {options : TableOptions}
    (made : (make allows strategy options).1 = .ok table) :
    table = ofSize strategy options options.bucketCount := (make_eq_ok_iff.mp made).2.2

/-- A table that could be made has as many buckets as its hint is rounded to. -/
theorem bucketCount_of_make {allows : Allocator} {strategy : Strategy} {options : TableOptions}
    (made : (make allows strategy options).1 = .ok table) :
    table.bucketCount = options.bucketCount := by
  rw [eq_ofSize_of_make made, bucketCount, ofSize, Array.size_replicate]

/-- A table can be made only with an accepted ratio. -/
theorem isAccepted_of_make {allows : Allocator} {strategy : Strategy} {options : TableOptions}
    (made : (make allows strategy options).1 = .ok table) : options.ratio.isAccepted :=
  (make_eq_ok_iff.mp made).1

/-- Whether a table can be made does not depend on the hash function. -/
theorem make_of_make {allows : Allocator} {first : Strategy} {options : TableOptions}
    (made : (make allows first options).1 = .ok table) (second : Strategy) :
    (make allows second options).1 =
      .ok (ofSize second options options.bucketCount : Table K Y) := by
  obtain ⟨accepted, reserved, -⟩ := make_eq_ok_iff.mp made
  exact make_eq_ok_iff.mpr ⟨accepted, reserved, rfl⟩

/-- A table that could be made is well formed. -/
theorem wellFormed_of_make {allows : Allocator} {strategy : Strategy} {options : TableOptions}
    (made : (make allows strategy options).1 = .ok table) : table.WellFormed := by
  rw [eq_ofSize_of_make made]
  exact wellFormed_ofSize strategy options (isBucketCount_bucketCountFor _)

/-- A command that asks to insert a pair inserts it in one of the ways of holding it. -/
theorem perform_of_pair? {command : Command K Y} {key : K} {yield : Y}
    (asked : command.pair? = some (key, yield)) (table : Table K Y) (allows : Allocator) :
    ∃ (heldKey : Held K) (heldYield : Held Y), heldKey.value = key ∧ heldYield.value = yield ∧
      let done := table.insertHeld allows heldKey heldYield
      table.perform allows command = ⟨.inserted done.answer, done.state, done.log⟩ := by
  cases command with
  | insert askedKey askedYield =>
    obtain ⟨rfl, rfl⟩ : askedKey = key ∧ askedYield = yield := by simpa [Command.pair?] using asked
    exact ⟨.of table.copyKeys askedKey, .of table.copyYields askedYield, by simp, by simp, rfl⟩
  | insertOwned askedKey askedYield =>
    obtain ⟨rfl, rfl⟩ : askedKey = key ∧ askedYield = yield := by simpa [Command.pair?] using asked
    exact ⟨.owned askedKey, .owned askedYield, rfl, rfl, rfl⟩
  | remove | removeItem | reset | rebuild | updateYield => cases asked

/-- The insertion of a new pair links it in the grown table unless an array is refused. -/
theorem insertHeld_of_granted {allows : Allocator} {key : Held K} {yield : Held Y}
    (new : table.contains (some key.value) (some yield.value) = false)
    (granted : (Reply.inserted (table.insertHeld allows key yield).answer : Reply K Y).isRefused =
      false) :
    table.insertHeld allows key yield = ⟨.ok table.items.fresh,
      (table.grow allows).state.link key yield, (table.grow allows).log⟩ := by
  obtain ⟨stored, _⟩ | ⟨_, failure, failed, outcome⟩ | ⟨_, _, outcome⟩ :=
    table.insertHeld_cases allows key yield
  · rw [new] at stored
    cases stored
  · obtain ⟨request, rfl, -⟩ := refused_of_grow failed
    rw [outcome] at granted
    cases granted
  · exact outcome

/-- An insertion does not touch what the table was made with. -/
theorem sameChoices_insertHeld (table : Table K Y) (allows : Allocator) (key : Held K)
    (yield : Held Y) : SameChoices table (table.insertHeld allows key yield).state := by
  have growth := (sameContents_grow table allows).toSameChoices
  obtain ⟨_, outcome⟩ | ⟨_, failure, _, outcome⟩ | ⟨_, _, outcome⟩ :=
    table.insertHeld_cases allows key yield
  · rw [outcome]
    exact .refl table
  · rwa [outcome]
  · rw [outcome]
    exact growth.trans (sameBuckets_link _ key yield).toSameChoices

/-- No command touches what the table was made with. -/
theorem sameChoices_perform (table : Table K Y) (allows : Allocator) (command : Command K Y) :
    SameChoices table (table.perform allows command).state := by
  cases command with
  | insert key yield => exact sameChoices_insertHeld table allows _ _
  | insertOwned key yield => exact sameChoices_insertHeld table allows _ _
  | remove key yield => exact (sameBuckets_foldl_discard _ table).toSameChoices
  | removeItem handle => exact (sameBuckets_discard table handle).toSameChoices
  | reset => exact (sameBuckets_foldl_discard _ table).toSameChoices
  | rebuild request => exact (sameContents_rebuild table allows request).toSameChoices
  | updateYield handle change => exact (sameBuckets_updateYield table handle change).toSameChoices

/-- What every command keeps, a run keeps. -/
theorem run_induction {motive : Table K Y → Prop}
    (kept : ∀ table allows command, motive table → motive (table.perform allows command).state)
    (start : motive table) (commands : List (Allocator × Command K Y)) :
    motive (table.run commands).state := by
  induction commands generalizing table with
  | nil => exact start
  | cons step rest ih =>
    obtain ⟨allows, command⟩ := step
    exact ih (kept table allows command start)

/-- A run keeps the choices that a table was made with. -/
theorem sameChoices_run (commands : List (Allocator × Command K Y)) (table : Table K Y) :
    SameChoices table (table.run commands).state := by
  apply run_induction _ (SameChoices.refl table)
  intro between allows command same
  exact same.trans (sameChoices_perform between allows command)

namespace WellFormed

/-- A removal by key and yield keeps a table well formed. -/
theorem remove (wellFormed : table.WellFormed) (key : Option K) (yield : Option Y) :
    (table.remove key yield).2.WellFormed :=
  wellFormed.foldl_discard (wellFormed.nodup_matching key yield) fun _ found =>
    wellFormed.mem_handles_of_mem_matching found

/-- An insert, whether it succeeds or fails, keeps a table well formed. -/
theorem insertHeld (wellFormed : table.WellFormed) (allows : Allocator) (key : Held K)
    (yield : Held Y) : (table.insertHeld allows key yield).state.WellFormed := by
  have growth := wellFormed.grow allows
  obtain ⟨_, outcome⟩ | ⟨_, failure, _, outcome⟩ | ⟨_, _, outcome⟩ :=
    table.insertHeld_cases allows key yield
  · rwa [outcome]
  · rwa [outcome]
  · rw [outcome]
    exact growth.link key yield

/-- Every command keeps a table well formed, whether it succeeds or fails. -/
theorem perform (wellFormed : table.WellFormed) (allows : Allocator) (command : Command K Y) :
    (table.perform allows command).state.WellFormed := by
  cases command with
  | insert key yield => exact wellFormed.insertHeld allows _ _
  | insertOwned key yield => exact wellFormed.insertHeld allows _ _
  | remove key yield => exact wellFormed.remove key yield
  | removeItem handle => exact wellFormed.discard handle
  | reset => exact wellFormed.remove none none
  | rebuild request => exact wellFormed.rebuild allows request
  | updateYield handle change => exact wellFormed.updateYield handle change

/-- A run keeps a table well formed. -/
theorem run (wellFormed : table.WellFormed) (commands : List (Allocator × Command K Y)) :
    (table.run commands).state.WellFormed :=
  run_induction (fun _ allows command kept => kept.perform allows command) wellFormed commands

end WellFormed

end Table

end ChainedMultimap
