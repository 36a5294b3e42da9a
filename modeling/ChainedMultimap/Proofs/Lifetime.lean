import ChainedMultimap.Proofs.ArenaSize
import ChainedMultimap.Proofs.Runs
import ChainedMultimap.Table.Walk
import Mathlib

/-!
# The lifetime of a handle

What becomes of a handle can be told from the commands of a run and their replies. An insertion that
answers it makes it live with the inserted pair; writes change the yield it names; the first removal
of its item makes it stale for good. A live handle names its pair in the table, and a handle that is
not live names nothing and changes nothing.
-/

namespace ChainedMultimap

variable {K Y : Type}

/-! ## What a handle answers -/

namespace Table

variable {table : Table K Y} {handle : Handle}

/-- A handle that was not given out finds no pair. -/
theorem get?_of_fresh_le (unissued : table.items.fresh.index ≤ handle.index) :
    table.get? handle = none := by
  rw [get?, Arena.get?_of_fresh_le unissued]
  rfl

/-- A handle names a pair, and its bucket is the one whose chain has it. -/
structure Names (table : Table K Y) (handle : Handle) (key : K) (yield : Y) : Prop where
  /-- The pair under the handle. -/
  get? : table.get? handle = some (key, yield)
  /-- The key under the handle. -/
  key? : table.key? handle = some key
  /-- The yield under the handle. -/
  yield? : table.yield? handle = some yield
  /-- The bucket of the handle. -/
  bucket? : ∃ bucket, table.bucket? handle = some bucket ∧
    ∀ other, handle ∈ table.chain other ↔ other = bucket

variable [Storable K]

/-- A handle names nothing, and no operation through it changes anything. -/
structure Inert (table : Table K Y) (handle : Handle) : Prop where
  /-- There is no pair under the handle. -/
  get? : table.get? handle = none
  /-- There is no key under the handle. -/
  key? : table.key? handle = none
  /-- There is no yield under the handle. -/
  yield? : table.yield? handle = none
  /-- The handle has no bucket. -/
  bucket? : table.bucket? handle = none
  /-- No yield is written through the handle. -/
  updateYield : ∀ change, table.updateYield handle change = (false, table)
  /-- No item is removed through the handle. -/
  removeItem : table.removeItem handle = (none, table)
  /-- No walk goes on from the handle. -/
  next : ∀ key, table.next (some handle) key = none

/-- A handle that finds a pair names it. -/
theorem WellFormed.names (wellFormed : table.WellFormed) {key : K} {yield : Y}
    (named : table.get? handle = some (key, yield)) : table.Names handle key yield := by
  have known : table.key? handle = some key := by rw [key?, named, Option.map_some]
  refine ⟨named, known, by rw [yield?, named, Option.map_some], table.home key, ?_, fun other => ?_⟩
  · obtain ⟨item, found, pair⟩ := Option.map_eq_some_iff.mp named
    obtain ⟨rfl, rfl⟩ := Prod.mk.inj pair
    rw [bucket?, found, Option.map_some, wellFormed.bucket_eq found]
  · rw [wellFormed.mem_chain, known, Option.map_some, Option.some_inj, eq_comm]

/-- A handle that finds nothing is inert. -/
theorem inert_of_get?_eq_none (missing : table.get? handle = none) : table.Inert handle := by
  have absent : table.items.get? handle = none := Option.map_eq_none_iff.mp missing
  refine ⟨missing, by rw [key?, missing, Option.map_none], by rw [yield?, missing, Option.map_none],
    by rw [bucket?, absent, Option.map_none], fun change => ?_, by rw [removeItem, absent], ?_⟩
  · rw [updateYield, absent, Arena.modify_of_get?_eq_none absent]
    rfl
  · intro key
    rw [next, after, absent]

end Table

/-! ## What becomes of a handle -/

/-- What has become of a handle. -/
inductive Fate (K Y : Type) where
  /-- No insertion has answered it. -/
  | unissued
  /-- An insertion has answered it, and its item has not been removed since. -/
  | live (key : K) (yield : Y)
  /-- Its item has been removed. -/
  | stale

/-- The yield that a command leaves under a handle. -/
def Command.written (command : Command K Y) (handle : Handle) (yield : Y) : Y :=
  match command with
  | .updateYield other change => if other = handle then change yield else yield
  | _ => yield

/-- The handle that a reply answers to an insertion. -/
def Reply.issued? : Reply K Y → Option Handle
  | .inserted (.ok handle) => some handle
  | _ => none

variable [Storable K] [Storable Y]

/-- Whether a command removes the item under a handle that has the given key and yield. -/
def Command.removes (command : Command K Y) (handle : Handle) (key : K) (yield : Y) : Bool :=
  match command with
  | .remove wantedKey wantedYield =>
    Storable.admits wantedKey key && Storable.admits wantedYield yield
  | .removeItem other => other = handle
  | .reset => true
  | _ => false

/-- What a command with its reply makes of a handle. -/
def Fate.after (fate : Fate K Y) (handle : Handle) (command : Command K Y) (reply : Reply K Y) :
    Fate K Y :=
  match fate with
  | .live key yield =>
    if command.removes handle key yield then .stale else .live key (command.written handle yield)
  | .unissued | .stale =>
    match command.pair?, reply.issued? with
    | some (key, yield), some new => if new = handle then .live key yield else fate
    | _, _ => fate

/-- What a history of commands and their replies makes of a handle. -/
def Fate.afterAll (fate : Fate K Y) (handle : Handle) (history : List (Command K Y × Reply K Y)) :
    Fate K Y :=
  history.foldl (fun fate step => fate.after handle step.1 step.2) fate

/-- A history may be followed in two parts. -/
theorem Fate.afterAll_append (fate : Fate K Y) (handle : Handle)
    (history later : List (Command K Y × Reply K Y)) :
    fate.afterAll handle (history ++ later) =
      (fate.afterAll handle history).afterAll handle later := List.foldl_append

/-- A handle that is not live keeps its fate unless a reply answers it. -/
theorem Fate.after_of_ne {fate : Fate K Y} {handle : Handle} {command : Command K Y}
    {reply : Reply K Y} (idle : ∀ key yield, fate ≠ .live key yield)
    (other : reply.issued? ≠ some handle) : fate.after handle command reply = fate := by
  have unchanged : (match command.pair?, reply.issued? with
      | some (key, yield), some new => if new = handle then .live key yield else fate
      | _, _ => fate) = fate := by
    cases command.pair? with
    | none => rfl
    | some pair =>
      cases issued : reply.issued? with
      | none => rfl
      | some new =>
        have away : new ≠ handle := by
          rintro rfl
          exact other issued
        exact if_neg away
  cases fate with
  | live key yield => exact absurd rfl (idle key yield)
  | unissued => exact unchanged
  | stale => exact unchanged

namespace Table

variable {table : Table K Y} {handle : Handle}

/-- The commands of a run with their replies. -/
def history (table : Table K Y) (commands : List (Allocator × Command K Y)) :
    List (Command K Y × Reply K Y) :=
  (commands.map Prod.snd).zip (table.run commands).answer

/-- Whether a table treats a handle as its fate says. -/
def Fits (table : Table K Y) (handle : Handle) : Fate K Y → Prop
  | .unissued => table.items.fresh.index ≤ handle.index
  | .live key yield => table.get? handle = some (key, yield)
  | .stale => handle.index < table.items.fresh.index ∧ table.get? handle = none

/-! ## What one command does -/

/-- An insertion answers the fresh handle and stores its pair there, or changes no contents. -/
theorem insertHeld_issues (table : Table K Y) (allows : Allocator) (key : Held K) (yield : Held Y) :
    let done := table.insertHeld allows key yield
    (done.answer = .ok table.items.fresh ∧
      done.state.items.fresh.index = table.items.fresh.index + 1 ∧
      ∀ other, done.state.get? other =
        if other = table.items.fresh then some (key.value, yield.value) else table.get? other) ∨
    ((∃ failure, done.answer = .error failure) ∧ done.state.items.fresh = table.items.fresh ∧
      ∀ other, done.state.get? other = table.get? other) := by
  have growth := sameContents_grow table allows
  obtain ⟨_, outcome⟩ | ⟨_, failure, _, outcome⟩ | ⟨_, _, outcome⟩ :=
    table.insertHeld_cases allows key yield
  · rw [outcome]
    exact .inr ⟨⟨_, rfl⟩, rfl, fun _ => rfl⟩
  · rw [outcome]
    exact .inr ⟨⟨_, rfl⟩, growth.fresh, growth.get?⟩
  · rw [outcome]
    refine .inl ⟨rfl, ?_, fun other => ?_⟩
    · rw [fresh_link, growth.fresh]
    · rw [get?_link, growth.fresh, growth.get?]

/-- A command inserts a pair under the fresh handle and answers it, or answers no handle and fills
none that was empty. -/
theorem perform_issues (table : Table K Y) (allows : Allocator) (command : Command K Y) :
    let done := table.perform allows command
    (∃ key yield, command.pair? = some (key, yield) ∧
      done.answer.issued? = some table.items.fresh ∧
      done.state.items.fresh.index = table.items.fresh.index + 1 ∧
      ∀ other, done.state.get? other =
        if other = table.items.fresh then some (key, yield) else table.get? other) ∨
    (done.answer.issued? = none ∧ done.state.items.fresh = table.items.fresh ∧
      ∀ other, table.get? other = none → done.state.get? other = none) := by
  have discards : ∀ (order : List Handle) (other : Handle), table.get? other = none →
      (order.foldl Table.discard table).get? other = none := by
    intro order other missing
    rw [get?_foldl_discard, missing, ite_self]
  cases asked : command.pair? with
  | some pair =>
    obtain ⟨key, yield⟩ := pair
    obtain ⟨heldKey, heldYield, rfl, rfl, performed⟩ := perform_of_pair? asked table allows
    rw [performed]
    obtain ⟨answer, next, stored⟩ | ⟨⟨failure, answer⟩, kept, same⟩ :=
      table.insertHeld_issues allows heldKey heldYield
    · exact .inl ⟨_, _, rfl, congrArg (Reply.issued? ∘ Reply.inserted) answer, next, stored⟩
    · exact .inr ⟨congrArg (Reply.issued? ∘ Reply.inserted) answer, kept,
        fun other missing => (same other).trans missing⟩
  | none =>
    refine .inr ?_
    cases command with
    | insert | insertOwned => cases asked
    | remove key yield => exact ⟨rfl, fresh_foldl_discard _ table, discards _⟩
    | removeItem handle => exact ⟨rfl, fresh_discard table handle, discards [handle]⟩
    | reset => exact ⟨rfl, fresh_foldl_discard _ table, discards _⟩
    | rebuild request =>
      have kept := sameContents_rebuild table allows request
      exact ⟨rfl, kept.fresh, fun other missing => (kept.get? other).trans missing⟩
    | updateYield handle change =>
      refine ⟨rfl, Arena.fresh_modify _ _ _, fun other missing => ?_⟩
      rw [perform, get?_updateYield, missing, Option.map_none, ite_self]

/-- A command that answers a handle answers one that was unissued. -/
theorem Fits.unissued_of_issued {fate : Fate K Y} (fits : table.Fits handle fate)
    {allows : Allocator} {command : Command K Y}
    (issued : (table.perform allows command).answer.issued? = some handle) :
    fate = .unissued := by
  obtain ⟨_, _, _, answer, _, _⟩ | ⟨answer, _, _⟩ := table.perform_issues allows command
  · obtain rfl : table.items.fresh = handle := by simpa [answer] using issued
    cases fate with
    | unissued => rfl
    | live key yield => simp [Fits, get?] at fits
    | stale => exact absurd fits.1 (Nat.lt_irrefl _)
  · rw [answer] at issued
    cases issued

/-- No command takes a handle back. -/
theorem fresh_le_perform (table : Table K Y) (allows : Allocator) (command : Command K Y) :
    table.items.fresh.index ≤ (table.perform allows command).state.items.fresh.index := by
  obtain ⟨_, _, _, _, next, _⟩ | ⟨_, kept, _⟩ := table.perform_issues allows command
  · omega
  · exact Nat.le_of_eq (congrArg Handle.index kept.symm)

/-- A stale handle stays stale, whatever is inserted. -/
theorem Fits.perform_of_stale (fits : table.Fits handle .stale) (allows : Allocator)
    (command : Command K Y) :
    (Fate.stale : Fate K Y).after handle command (table.perform allows command).answer = .stale ∧
      (table.perform allows command).state.Fits handle .stale := by
  have grows := table.fresh_le_perform allows command
  have other : (table.perform allows command).answer.issued? ≠ some handle := by
    intro issued
    cases fits.unissued_of_issued issued
  obtain ⟨old, missing⟩ := fits
  refine ⟨Fate.after_of_ne nofun other, by omega, ?_⟩
  obtain ⟨_, _, _, answer, _, stored⟩ | ⟨_, _, empty⟩ := table.perform_issues allows command
  · rw [stored, if_neg, missing]
    rintro rfl
    exact other answer
  · exact empty handle missing

/-- An unissued handle stays so, unless it is the one that an insertion answers. -/
theorem Fits.perform_of_unissued (fits : table.Fits handle .unissued) (allows : Allocator)
    (command : Command K Y) :
    (table.perform allows command).state.Fits handle
      ((Fate.unissued : Fate K Y).after handle command (table.perform allows command).answer) := by
  obtain ⟨key, yield, asked, answer, next, stored⟩ | ⟨answer, kept, _⟩ :=
    table.perform_issues allows command
  · by_cases new : table.items.fresh = handle
    · have live : (Fate.unissued : Fate K Y).after handle command
          (table.perform allows command).answer = .live key yield := by
        simp [Fate.after, asked, answer, new]
      rw [live, Fits, stored, if_pos new.symm]
    · have away : handle.index ≠ table.items.fresh.index := fun same =>
        new (congrArg Handle.mk same.symm)
      rw [Fate.after_of_ne nofun (by simpa [answer] using new)]
      rw [Fits] at fits ⊢
      omega
  · rw [Fate.after_of_ne nofun (by simp [answer]), Fits, kept]
    exact fits

/-! ## Histories of runs -/

/-- A run answers its first command and then the others. -/
theorem answer_run_cons (table : Table K Y) (allows : Allocator) (command : Command K Y)
    (rest : List (Allocator × Command K Y)) :
    (table.run ((allows, command) :: rest)).answer =
      (table.perform allows command).answer ::
        ((table.perform allows command).state.run rest).answer := rfl

/-- A history begins with the first command and its reply. -/
theorem history_cons (table : Table K Y) (allows : Allocator) (command : Command K Y)
    (rest : List (Allocator × Command K Y)) :
    table.history ((allows, command) :: rest) =
      (command, (table.perform allows command).answer) ::
        (table.perform allows command).state.history rest := rfl

/-- The history of a run is that of its first part and that of the rest from there. -/
theorem history_append (table : Table K Y) (commands later : List (Allocator × Command K Y)) :
    table.history (commands ++ later) =
      table.history commands ++ (table.run commands).state.history later := by
  induction commands generalizing table with
  | nil => rfl
  | cons step rest ih =>
    obtain ⟨allows, command⟩ := step
    rw [List.cons_append, history_cons, ih, history_cons]
    rfl

/-- A stale handle stays stale in every run. -/
theorem Fits.run_of_stale (fits : table.Fits handle .stale)
    (commands : List (Allocator × Command K Y)) :
    (Fate.stale : Fate K Y).afterAll handle (table.history commands) = .stale := by
  induction commands generalizing table with
  | nil => rfl
  | cons step rest ih =>
    obtain ⟨allows, command⟩ := step
    obtain ⟨stale, stays⟩ := fits.perform_of_stale allows command
    rw [history_cons, Fate.afterAll, List.foldl_cons, stale]
    exact ih stays

/-- The handles that a run answers were not given out before, and each is answered once. -/
theorem issued_run (table : Table K Y) (commands : List (Allocator × Command K Y)) :
    (∀ handle ∈ (table.run commands).answer.filterMap Reply.issued?,
        table.items.fresh.index ≤ handle.index) ∧
      ((table.run commands).answer.filterMap Reply.issued?).Nodup := by
  induction commands generalizing table with
  | nil => exact ⟨nofun, List.nodup_nil⟩
  | cons step rest ih =>
    obtain ⟨allows, command⟩ := step
    obtain ⟨later, distinct⟩ := ih (table.perform allows command).state
    have grows := table.fresh_le_perform allows command
    rw [answer_run_cons]
    obtain ⟨_, _, _, answer, next, _⟩ | ⟨answer, _, _⟩ := table.perform_issues allows command
    · rw [List.filterMap_cons_some answer]
      refine ⟨?_, List.nodup_cons.mpr ⟨fun again => ?_, distinct⟩⟩
      · intro handle member
        rcases List.mem_cons.mp member with rfl | member
        · exact Nat.le_refl _
        · exact Nat.le_trans grows (later handle member)
      · have behind := later _ again
        omega
    · rw [List.filterMap_cons_none answer]
      exact ⟨fun handle member => Nat.le_trans grows (later handle member), distinct⟩

/-! ## Live handles -/

variable [LawfulStorable K]

/-- What a command leaves under a handle that names a pair: nothing if it removes the item, and
otherwise the pair with the yield that it writes. -/
theorem WellFormed.get?_perform (wellFormed : table.WellFormed)
    (allows : Allocator) (command : Command K Y) {key : K} {yield : Y}
    (named : table.get? handle = some (key, yield)) :
    (table.perform allows command).state.get? handle =
      if command.removes handle key yield then none
      else some (key, command.written handle yield) := by
  have admitted : ∀ wantedKey wantedYield, handle ∈ table.matching wantedKey wantedYield ↔
      Storable.admits wantedKey key && Storable.admits wantedYield yield := by
    intro wantedKey wantedYield
    rw [wellFormed.mem_matching_iff, admits_eq_get?, named]
    rfl
  have inserts : ∀ (heldKey : Held K) (heldYield : Held Y),
      (table.insertHeld allows heldKey heldYield).state.get? handle = some (key, yield) := by
    intro heldKey heldYield
    obtain ⟨_, _, stored⟩ | ⟨_, _, same⟩ := table.insertHeld_issues allows heldKey heldYield
    · have old : handle ≠ table.items.fresh := by
        rintro rfl
        simp [get?] at named
      rw [stored, if_neg old, named]
    · rw [same, named]
  cases command with
  | insert newKey newYield => exact inserts _ _
  | insertOwned newKey newYield => exact inserts _ _
  | remove wantedKey wantedYield =>
    change ((table.matching wantedKey wantedYield).foldl Table.discard table).get? handle = _
    rw [get?_foldl_discard, named]
    exact if_congr (admitted wantedKey wantedYield) rfl rfl
  | removeItem other =>
    change ([other].foldl Table.discard table).get? handle = _
    rw [get?_foldl_discard, named]
    simp [Command.removes, Command.written, eq_comm]
  | reset =>
    change ((table.matching none none).foldl Table.discard table).get? handle = _
    rw [get?_foldl_discard, named, if_pos ((admitted none none).mpr rfl)]
    rfl
  | rebuild request =>
    exact ((sameContents_rebuild table allows request).get? handle).trans named
  | updateYield other change =>
    change (table.updateYield other change).2.get? handle = _
    rw [get?_updateYield, named]
    by_cases here : other = handle <;> simp [Command.removes, Command.written, here]

/-- A live handle names its pair, until a command removes it. -/
theorem Fits.perform_of_live {key : K} {yield : Y} (fits : table.Fits handle (.live key yield))
    (wellFormed : table.WellFormed) (allows : Allocator) (command : Command K Y) :
    (table.perform allows command).state.Fits handle
      ((Fate.live key yield).after handle command (table.perform allows command).answer) := by
  have grows := table.fresh_le_perform allows command
  have named := wellFormed.get?_perform allows command fits
  have old : handle.index < table.items.fresh.index := by
    by_contra unissued
    rw [Fits, get?_of_fresh_le (Nat.le_of_not_lt unissued)] at fits
    cases fits
  rw [Fate.after]
  split at named
  · next removed =>
    rw [if_pos removed]
    exact ⟨by omega, named⟩
  · next stays =>
    rw [if_neg stays]
    exact named

/-- After a command the table treats a handle as the command and its reply say. -/
theorem Fits.perform {fate : Fate K Y} (fits : table.Fits handle fate)
    (wellFormed : table.WellFormed) (allows : Allocator) (command : Command K Y) :
    (table.perform allows command).state.Fits handle
      (fate.after handle command (table.perform allows command).answer) := by
  cases fate with
  | unissued => exact fits.perform_of_unissued allows command
  | live key yield => exact fits.perform_of_live wellFormed allows command
  | stale =>
    obtain ⟨stale, stays⟩ := fits.perform_of_stale allows command
    rwa [stale]

/-- After a run the table treats a handle as the history of the run says. -/
theorem Fits.run {fate : Fate K Y} (fits : table.Fits handle fate) (wellFormed : table.WellFormed)
    (commands : List (Allocator × Command K Y)) :
    (table.run commands).state.Fits handle (fate.afterAll handle (table.history commands)) := by
  induction commands generalizing table fate with
  | nil => exact fits
  | cons step rest ih =>
    obtain ⟨allows, command⟩ := step
    exact ih (fits.perform wellFormed allows command) (wellFormed.perform allows command)

/-- Handles over whole runs. No handle is answered twice. A live handle names the pair inserted under
it with the yield as last written, and its bucket is the one whose chain has it. Any other handle names
nothing and changes nothing, and a stale handle stays stale in every continuation of the run. -/
theorem names_iff_live_of_run {allows : Allocator} {strategy : Strategy} {options : TableOptions}
    (made : (make allows strategy options).1 = .ok table)
    (commands : List (Allocator × Command K Y)) (handle : Handle) :
    let reached := (table.run commands).state
    let fate := Fate.unissued.afterAll handle (table.history commands)
    ((table.run commands).answer.filterMap Reply.issued?).Nodup ∧
      (∀ allows command, (reached.perform allows command).answer.issued? = some handle →
        fate = .unissued) ∧
      (∀ key yield, fate = .live key yield → reached.Names handle key yield) ∧
      ((∀ key yield, fate ≠ .live key yield) → reached.Inert handle) ∧
      (fate = .stale → ∀ later,
        Fate.unissued.afterAll handle (table.history (commands ++ later)) = .stale) := by
  intro reached fate
  have start := wellFormed_of_make made
  have wellFormed : reached.WellFormed := start.run commands
  have unissued : table.Fits handle .unissued := by
    rw [eq_ofSize_of_make made]
    exact Nat.zero_le _
  have fits : reached.Fits handle fate := unissued.run start commands
  refine ⟨(table.issued_run commands).2, fun _ _ => fits.unissued_of_issued, ?_, ?_, ?_⟩
  · intro key yield live
    rw [live] at fits
    exact wellFormed.names fits
  · intro idle
    apply inert_of_get?_eq_none
    cases known : fate with
    | unissued =>
      rw [known] at fits
      exact get?_of_fresh_le fits
    | live key yield => exact absurd known (idle key yield)
    | stale =>
      rw [known] at fits
      exact fits.2
  · intro stale later
    rw [stale] at fits
    have first : Fate.unissued.afterAll handle (table.history commands) = .stale := stale
    rw [history_append, Fate.afterAll_append, first]
    exact fits.run_of_stale later

set_option maxRecDepth 1024 in
/-- Two items in one chain: the first keeps its pair through a write and two rebuilds, and the handle of
the second stays stale although an equal pair is inserted again. -/
theorem names_iff_live_of_run_constant :
    let commands : List (Allocator × Command UnsignedInt UnsignedInt) :=
      [(fun _ => true, .insertOwned ⟨1⟩ ⟨10⟩), (fun _ => true, .insert ⟨2⟩ ⟨20⟩),
        (fun _ => true, .updateYield ⟨0⟩ fun yield => ⟨yield.value + 5⟩),
        (fun _ => false, .rebuild 64), (fun _ => true, .rebuild 20),
        (fun _ => true, .remove (some ⟨2⟩) none), (fun _ => true, .insert ⟨2⟩ ⟨20⟩)]
    let start : Table UnsignedInt UnsignedInt := ofSize (fun _ => 7) .standard 16
    (make (fun _ => true) (fun _ => 7) .standard).1 = .ok start ∧
      (start.run commands).state.Names ⟨0⟩ ⟨1⟩ ⟨15⟩ ∧
      (start.run commands).state.Inert ⟨1⟩ ∧
      (start.run commands).state.Names ⟨2⟩ ⟨2⟩ ⟨20⟩ := by
  intro commands start
  have made : (make (fun _ => true) (fun _ => 7) .standard).1 = .ok start := rfl
  have first : Fate.unissued.afterAll ⟨0⟩ (start.history commands) = .live ⟨1⟩ ⟨15⟩ := by cbv
  have second : Fate.unissued.afterAll ⟨1⟩ (start.history commands) = .stale := by cbv
  have third : Fate.unissued.afterAll ⟨2⟩ (start.history commands) = .live ⟨2⟩ ⟨20⟩ := by cbv
  refine ⟨made, (names_iff_live_of_run made commands ⟨0⟩).2.2.1 ⟨1⟩ ⟨15⟩ first,
    (names_iff_live_of_run made commands ⟨1⟩).2.2.2.1 ?_,
    (names_iff_live_of_run made commands ⟨2⟩).2.2.1 ⟨2⟩ ⟨20⟩ third⟩
  rw [second]
  intro key yield live
  cases live

end Table

end ChainedMultimap
