import ChainedMultimap.Proofs.Copies
import ChainedMultimap.Proofs.Lifetime
import Mathlib

/-!
# Ownership

Whether a table copies what it is given or keeps references decides nothing but how values are held.
Runs under different copy flags, in which insertions may also be moves, answer the same, log the same
and reach tables that no search or walk tells apart.

How a value is held can be told from the history of the run. A key is a reference exactly if the
insertion under its handle lent it to a table that does not copy keys; so is a yield, unless something
was written through the handle since.
-/

namespace ChainedMultimap

variable {K Y : Type}

/-! ## Tables alike -/

namespace Table

variable [Storable K] [Storable Y]

/-- Two tables that differ in nothing but how they hold their values and those to come. -/
structure Alike (left right : Table K Y) : Prop where
  /-- Reading every value as a copy makes them one: items, links, heads and bucket indices. -/
  copied : right.copied = left.copied
  /-- There are as many buckets. -/
  bucketCount : right.bucketCount = left.bucketCount
  /-- There are as many pairs. -/
  size : right.size = left.size
  /-- The same handles have been given out. -/
  fresh : right.items.fresh = left.items.fresh
  /-- The chains are the same. -/
  chain : right.chain = left.chain
  /-- The lengths of the chains are the same. -/
  chainLength : right.chainLength = left.chainLength
  /-- The handles in all chains are the same. -/
  handles : right.handles = left.handles
  /-- The same pairs are under the same handles. -/
  get? : right.get? = left.get?
  /-- The same keys are. -/
  key? : right.key? = left.key?
  /-- The same yields are. -/
  yield? : right.yield? = left.yield?
  /-- The items under them are in the same buckets. -/
  bucket? : right.bucket? = left.bucket?
  /-- Searches answer the same item. -/
  lookup : right.lookup = left.lookup
  /-- Searches find the same items. -/
  matching : right.matching = left.matching
  /-- The same pairs are found stored. -/
  contains : right.contains = left.contains
  /-- Walks take the same steps. -/
  next : right.next = left.next
  /-- Walks visit the same items. -/
  walk : right.walk = left.walk
  /-- Walks are equally long. -/
  walkLength : right.walkLength = left.walkLength
  /-- The same handles are listed with the same pairs. -/
  toList : right.toList = left.toList

/-- Tables with the same reading are alike, since whatever can be read off a table can be read off its
reading. -/
theorem alike_of_copied_eq {left right : Table K Y} (same : right.copied = left.copied) :
    Alike left right := by
  have read {Answer : Type} (answer : Table K Y → Answer)
      (kept : ∀ table : Table K Y, answer table.copied = answer table) :
      answer right = answer left := by
    rw [← kept right, same, kept left]
  exact
    { copied := same
      bucketCount := read _ bucketCount_copied
      size := read _ size_copied
      fresh := read (·.items.fresh) fun table => Arena.fresh_map Item.copied table.items
      chain := read _ chain_copied
      chainLength := read _ chainLength_copied
      handles := read _ handles_copied
      get? := read _ get?_copied
      key? := read _ key?_copied
      yield? := read _ yield?_copied
      bucket? := read _ bucket?_copied
      lookup := read _ lookup_copied
      matching := read _ matching_copied
      contains := read _ contains_copied
      next := read _ next_copied
      walk := read _ walk_copied
      walkLength := read _ walkLength_copied
      toList := read _ toList_copied }

/-- Two outcomes of runs that differ in nothing but how values are held. -/
structure SameAnswers (left right : Outcome (Table K Y) (List (Reply K Y))) : Prop where
  /-- All replies are the same, but for how the pairs that are handed back are held. -/
  replies : right.answer.map Reply.copied = left.answer.map Reply.copied
  /-- The same is logged. -/
  log : right.log = left.log
  /-- The tables that are left are alike. -/
  state : Alike left.state right.state

/-- Commands that ask for the same, but for how pairs are to be held, come to the same on tables with
the same reading. -/
theorem sameAnswers_of_copied_eq {left right : Table K Y} (same : right.copied = left.copied)
    {commands others : List (Allocator × Command K Y)}
    (asked : others.map (fun step => (step.1, step.2.copied)) =
      commands.map fun step => (step.1, step.2.copied)) :
    SameAnswers (left.run commands) (right.run others) := by
  have outcome : (right.run others).map Table.copied (List.map Reply.copied) =
      (left.run commands).map Table.copied (List.map Reply.copied) := by
    rw [← run_copied, ← run_copied, same, asked]
  obtain ⟨replies, state, log⟩ := Outcome.mk.inj outcome
  exact ⟨replies, log, alike_of_copied_eq state⟩

end Table

/-! ## How a value came to be held -/

/-- Whether a command inserts a pair that the caller keeps. -/
def Command.lends : Command K Y → Bool
  | .insert _ _ => true
  | _ => false

/-- Whether a command writes through a handle. -/
def Command.writes (command : Command K Y) (handle : Handle) : Bool :=
  match command with
  | .updateYield other _ => other = handle
  | _ => false

/-- A command inserted under a handle, and no other one of a history did. -/
structure Inserted (history : List (Command K Y × Reply K Y)) (handle : Handle)
    (before : List (Command K Y × Reply K Y)) (command : Command K Y)
    (since : List (Command K Y × Reply K Y)) : Prop where
  /-- The command was answered the handle. -/
  split : history = before ++ (command, .inserted (.ok handle)) :: since
  /-- No command before it or since was. -/
  elsewhere : ∀ step ∈ before ++ since, step.2.issued? ≠ some handle

namespace Table

variable {table : Table K Y} {handle : Handle} {key : Held K} {yield : Held Y}

/-- What is held after discarding was held before. -/
theorem held?_of_foldl_discard {order : List Handle}
    (stored : (order.foldl discard table).held? handle = some (key, yield)) :
    table.held? handle = some (key, yield) := by
  rw [held?_foldl_discard] at stored
  split at stored
  · cases stored
  · exact stored

variable [Storable K] [Storable Y]

/-- What is held after an insertion was held before it, or is what it inserted under the handle that it
answers. -/
theorem held?_insertHeld {allows : Allocator} {newKey : Held K} {newYield : Held Y}
    (stored : (table.insertHeld allows newKey newYield).state.held? handle = some (key, yield)) :
    table.held? handle = some (key, yield) ∨
      ((table.insertHeld allows newKey newYield).answer = .ok handle ∧
        newKey = key ∧ newYield = yield) := by
  have growth := sameContents_grow table allows
  obtain ⟨_, outcome⟩ | ⟨_, failure, _, outcome⟩ | ⟨_, _, outcome⟩ :=
    table.insertHeld_cases allows newKey newYield
  · rw [outcome] at stored
    exact .inl stored
  · rw [outcome] at stored
    exact .inl (growth.held? ▸ stored)
  · rw [outcome] at stored ⊢
    rw [held?_link, growth.fresh, growth.held?] at stored
    split at stored
    · next new =>
      obtain ⟨rfl, rfl⟩ := Prod.mk.inj (Option.some.inj stored)
      exact .inr ⟨congrArg Except.ok new.symm, rfl, rfl⟩
    · exact .inl stored

/-- What is held after a command was held before it, the key as it was and the yield as the table's own
if the command wrote it; or the command inserted it. -/
theorem held?_perform {allows : Allocator} {command : Command K Y}
    (stored : (table.perform allows command).state.held? handle = some (key, yield)) :
    (∃ former, table.held? handle = some (key, former) ∧
      yield.isOwned = (former.isOwned || command.writes handle)) ∨
    ((table.perform allows command).answer = .inserted (.ok handle) ∧
      command.pair?.map Prod.fst = some key.value ∧
      key.isOwned = (!command.lends || table.copyKeys) ∧
      yield.isOwned = (!command.lends || table.copyYields)) := by
  have unwritten (idle : command.writes handle = false)
      (before : table.held? handle = some (key, yield)) :
      ∃ former, table.held? handle = some (key, former) ∧
        yield.isOwned = (former.isOwned || command.writes handle) :=
    ⟨yield, before, by rw [idle, Bool.or_false]⟩
  cases command with
  | insert newKey newYield =>
    obtain before | ⟨answer, rfl, rfl⟩ := held?_insertHeld stored
    · exact .inl (unwritten rfl before)
    · refine .inr ⟨congrArg Reply.inserted answer, ?_, Held.isOwned_of _ _, Held.isOwned_of _ _⟩
      rw [Held.value_of]
      rfl
  | insertOwned newKey newYield =>
    obtain before | ⟨answer, rfl, rfl⟩ := held?_insertHeld stored
    · exact .inl (unwritten rfl before)
    · exact .inr ⟨congrArg Reply.inserted answer, rfl, rfl, rfl⟩
  | remove wantedKey wantedYield => exact .inl (unwritten rfl (held?_of_foldl_discard stored))
  | removeItem other =>
    have before : ([other].foldl discard table).held? handle = some (key, yield) := stored
    exact .inl (unwritten rfl (held?_of_foldl_discard before))
  | reset => exact .inl (unwritten rfl (held?_of_foldl_discard stored))
  | rebuild request =>
    exact .inl (unwritten rfl ((sameContents_rebuild table allows request).held? ▸ stored))
  | updateYield other change =>
    change (table.updateYield other change).2.held? handle = _ at stored
    rw [held?_updateYield] at stored
    split at stored
    · next here =>
      obtain ⟨⟨formerKey, former⟩, before, written⟩ := Option.map_eq_some_iff.mp stored
      obtain ⟨rfl, rfl⟩ := Prod.mk.inj written
      refine .inl ⟨former, before, ?_⟩
      rw [Held.isOwned_update, Command.writes, decide_eq_true here, Bool.or_true]
    · next away => exact .inl (unwritten (decide_eq_false away) stored)

/-- What is held after a run was held before it, the key as it was and the yield as the table's own if
the run wrote it; or the run inserted it, and how it is held depends on that insertion and on the writes
since. -/
theorem held?_run {commands : List (Allocator × Command K Y)}
    (stored : (table.run commands).state.held? handle = some (key, yield)) :
    (∃ former, table.held? handle = some (key, former) ∧
      yield.isOwned = (former.isOwned || (table.history commands).any (·.1.writes handle))) ∨
    ∃ before command since,
      table.history commands = before ++ (command, .inserted (.ok handle)) :: since ∧
      command.pair?.map Prod.fst = some key.value ∧
      key.isOwned = (!command.lends || table.copyKeys) ∧
      yield.isOwned = (!command.lends || table.copyYields || since.any (·.1.writes handle)) := by
  induction commands generalizing table with
  | nil => exact .inl ⟨yield, stored, (Bool.or_false _).symm⟩
  | cons step rest ih =>
    obtain ⟨allows, command⟩ := step
    have choices := sameChoices_perform table allows command
    rw [history_cons]
    -- What the rest of the run was handed, the first command had found or has inserted.
    obtain ⟨between, held, owned⟩ | ⟨before, later, since, split, asked, keyOwned, yieldOwned⟩ :=
      ih stored
    · obtain ⟨former, stored, written⟩ | ⟨answer, asked, keyOwned, yieldOwned⟩ := held?_perform held
      · refine .inl ⟨former, stored, ?_⟩
        rw [owned, written, List.any_cons, Bool.or_assoc]
      · refine .inr ⟨[], command, (table.perform allows command).state.history rest, ?_, asked,
          keyOwned, ?_⟩
        · rw [answer, List.nil_append]
        · rw [owned, yieldOwned]
    · rw [choices.copyKeys] at keyOwned
      rw [choices.copyYields] at yieldOwned
      refine .inr ⟨(command, (table.perform allows command).answer) :: before, later, since, ?_, asked,
        keyOwned, yieldOwned⟩
      rw [split, List.cons_append]

/-- The replies of a history are the answers of its run. -/
theorem map_snd_history (table : Table K Y) (commands : List (Allocator × Command K Y)) :
    (table.history commands).map Prod.snd = (table.run commands).answer := by
  induction commands generalizing table with
  | nil => rfl
  | cons step rest ih =>
    obtain ⟨allows, command⟩ := step
    rw [history_cons, List.map_cons, ih, answer_run_cons]

/-- As no handle is answered twice, the insertion that was answered a handle is the only one. -/
theorem inserted_of_history {commands : List (Allocator × Command K Y)}
    {before since : List (Command K Y × Reply K Y)} {command : Command K Y}
    (split : table.history commands = before ++ (command, .inserted (.ok handle)) :: since) :
    Inserted (table.history commands) handle before command since := by
  refine ⟨split, fun step member issued => ?_⟩
  have answered : (Reply.issued? ∘ Prod.snd) (command, (.inserted (.ok handle) : Reply K Y)) =
      some handle := rfl
  -- The handles answered are distinct, so the one in the middle is not among the others.
  have distinct := (table.issued_run commands).2
  rw [← map_snd_history, split, List.filterMap_map, List.filterMap_append,
    List.filterMap_cons_some answered, List.nodup_middle, ← List.filterMap_append,
    List.nodup_cons] at distinct
  exact distinct.1 (List.mem_filterMap.mpr ⟨step, member, issued⟩)

/-- Whether a table can be made does not depend on the copy flags. -/
theorem make_of_flags {allows : Allocator} {strategy : Strategy} {options : TableOptions}
    (made : (make allows strategy options).1 = .ok table) (copyKeys copyYields : Bool) :
    (make allows strategy { options with copyKeys := copyKeys, copyYields := copyYields }).1 =
      .ok { table with copyKeys := copyKeys, copyYields := copyYields } := by
  obtain ⟨accepted, reserved, rfl⟩ := make_eq_ok_iff.mp made
  exact make_eq_ok_iff.mpr ⟨accepted, reserved, rfl⟩

/-- What the copy flags decide, and what they do not.

The same commands under other copy flags, some insertions perhaps being moves instead, come at every
point to the same replies, the same records and a table that is alike: the runs differ in how values
are held and in nothing else. A key is held as a reference exactly if the only insertion under its
handle lent it to a table that does not copy keys. A yield is, exactly if that insertion lent it to a
table that does not copy yields and no command has written through the handle since. Rebuilding and
growing leave everything held as it is, and removing an item hands its pair back as it is held. -/
theorem ownership_of_run {allows : Allocator} {strategy : Strategy} {options : TableOptions}
    (made : (make allows strategy options).1 = .ok table) (copyKeys copyYields : Bool)
    {commands others : List (Allocator × Command K Y)}
    (asked : others.map (fun step => (step.1, step.2.copied)) =
      commands.map fun step => (step.1, step.2.copied)) :
    let reached := (table.run commands).state
    (∃ twin : Table K Y,
      (make allows strategy { options with copyKeys := copyKeys, copyYields := copyYields }).1 =
        .ok twin ∧
      ∀ count, SameAnswers (table.run (commands.take count)) (twin.run (others.take count))) ∧
    (∀ handle key yield, reached.held? handle = some (key, yield) →
      ∃ before command since, Inserted (table.history commands) handle before command since ∧
        command.pair?.map Prod.fst = some key.value ∧
        (key.isOwned = false ↔ command.lends ∧ options.copyKeys = false) ∧
        (yield.isOwned = false ↔ command.lends ∧ options.copyYields = false ∧
          ∀ step ∈ since, step.1.writes handle = false)) ∧
    (∀ available request, (reached.rebuild available request).state.held? = reached.held?) ∧
    (∀ available, (reached.grow available).state.held? = reached.held?) ∧
    ∀ handle, (reached.removeItem handle).1 = reached.held? handle := by
  intro reached
  have alike : ({ table with copyKeys := copyKeys, copyYields := copyYields } : Table K Y).copied =
      table.copied := rfl
  have prefixes (count : Nat) : (others.take count).map (fun step => (step.1, step.2.copied)) =
      (commands.take count).map fun step => (step.1, step.2.copied) := by
    rw [List.map_take, asked, List.map_take]
  refine ⟨⟨_, make_of_flags made copyKeys copyYields,
      fun count => sameAnswers_of_copied_eq alike (prefixes count)⟩,
    fun handle key yield stored => ?_,
    fun available request => (sameContents_rebuild reached available request).held?,
    fun available => (sameContents_grow reached available).held?, reached.removeItem_answer⟩
  obtain rfl := eq_ofSize_of_make made
  obtain ⟨former, before, -⟩ | ⟨before, command, since, split, lent, keyOwned, yieldOwned⟩ :=
    held?_run stored
  · simp [held?, ofSize] at before
  · refine ⟨before, command, since, inserted_of_history split, lent, ?_, ?_⟩
    · rw [keyOwned]
      simp [ofSize]
    · rw [yieldOwned]
      simp [ofSize, and_assoc]

/-- Two pairs lent to a table that copies nothing, one of them written, and the same run on a table that
copies keys, where the first pair is moved in: in the one table the second pair and the first key are
references, and the replies are the same. -/
theorem ownership_of_run_lent :
    let plentiful : Allocator := fun _ => true
    let options : TableOptions := ⟨16, .half, false, false⟩
    let start : Table UnsignedInt UnsignedInt := ofSize (fun _ => 7) options 16
    let later : List (Allocator × Command UnsignedInt UnsignedInt) :=
      [(plentiful, .insert ⟨2⟩ ⟨20⟩), (plentiful, .updateYield ⟨0⟩ fun yield => ⟨yield.value + 5⟩),
        (plentiful, .rebuild 20)]
    let commands := (plentiful, .insert ⟨1⟩ ⟨10⟩) :: later
    let others := (plentiful, .insertOwned ⟨1⟩ ⟨10⟩) :: later
    let reached := (start.run commands).state
    (make plentiful (fun _ => 7) options).1 = .ok start ∧
      others.map (fun step => (step.1, step.2.copied)) =
        commands.map (fun step => (step.1, step.2.copied)) ∧
      (∃ twin : Table UnsignedInt UnsignedInt,
        (make plentiful (fun _ => 7) { options with copyKeys := true, copyYields := false }).1 =
          .ok twin ∧
        ∀ count, SameAnswers (start.run (commands.take count)) (twin.run (others.take count))) ∧
      reached.held? ⟨0⟩ = some (.borrowed ⟨1⟩, .owned ⟨15⟩) ∧
      reached.held? ⟨1⟩ = some (.borrowed ⟨2⟩, .borrowed ⟨20⟩) ∧
      (∃ before command since, Inserted (start.history commands) ⟨1⟩ before command since ∧
        command.lends ∧ ∀ step ∈ since, step.1.writes ⟨1⟩ = false) ∧
      (reached.removeItem ⟨0⟩).1 = some (.borrowed ⟨1⟩, .owned ⟨15⟩) := by
  intro plentiful options start later commands others reached
  have made : (make plentiful (fun _ => 7) options).1 = .ok start := by cbv
  have asked : others.map (fun step => (step.1, step.2.copied)) =
      commands.map (fun step => (step.1, step.2.copied)) := rfl
  have first : (start.run commands).state.held? ⟨0⟩ = some (.borrowed ⟨1⟩, .owned ⟨15⟩) := by cbv
  have second : (start.run commands).state.held? ⟨1⟩ = some (.borrowed ⟨2⟩, .borrowed ⟨20⟩) := by cbv
  obtain ⟨twin, origin, -, -, handedBack⟩ := ownership_of_run made true false asked
  obtain ⟨before, command, since, inserted, -, -, yieldLent⟩ := origin ⟨1⟩ _ _ second
  obtain ⟨lent, -, unwritten⟩ := yieldLent.mp rfl
  exact ⟨made, asked, twin, first, second, ⟨before, command, since, inserted, lent, unwritten⟩,
    (handedBack ⟨0⟩).trans first⟩

end Table

end ChainedMultimap
