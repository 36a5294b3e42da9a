import ChainedMultimap.Proofs.Pairs
import ChainedMultimap.Proofs.Runs
import Mathlib

/-!
# A table as a set of pairs

As long as no yield is written in place and no array is refused, every command acts on the set of
stored pairs alone: an insertion adds its pair unless the set has it, a removal takes the matching
pairs out and counts them, and a rebuild leaves the set as it is. A run is then a run on the set.
-/

namespace ChainedMultimap

variable {K Y : Type} [Storable K] [LawfulStorable K] [Storable Y] [LawfulStorable Y]

/-- What a command does to a set of pairs when no array is refused, and what it then answers. An
item that is removed by its handle is known to the set by the pair handed back. -/
inductive Effect : Pairs K Y → Command K Y → Reply K Y → Pairs K Y → Prop where
  | inserted {pairs command key yield handle} (asked : command.pair? = some (key, yield))
    (new : pairOf key yield ∉ pairs) :
    Effect pairs command (.inserted (.ok handle)) (insert (pairOf key yield) pairs)
  | duplicate {pairs command key yield} (asked : command.pair? = some (key, yield))
    (stored : pairOf key yield ∈ pairs) :
    Effect pairs command (.inserted (.error .duplicateEntry)) pairs
  | removed {pairs key yield} :
    Effect pairs (.remove key yield) (.removed (pairs.filter (Pairs.admits key yield ·)).card)
      (pairs.filter (¬ Pairs.admits key yield ·))
  | handedBack {pairs handle key yield} (stored : pairOf key.value yield.value ∈ pairs) :
    Effect pairs (.removeItem handle) (.handedBack (some (key, yield)))
      (pairs.erase (pairOf key.value yield.value))
  | nothingHandedBack {pairs handle} : Effect pairs (.removeItem handle) (.handedBack none) pairs
  | emptied {pairs} : Effect pairs .reset .emptied ∅
  | rebuilt {pairs request} : Effect pairs (.rebuild request) (.rebuilt (.ok ())) pairs

/-- The effects of commands one after another. -/
inductive Effects : Pairs K Y → List (Command K Y) → List (Reply K Y) → Pairs K Y → Prop where
  | none {pairs} : Effects pairs [] [] pairs
  | more {before between after command reply commands replies}
    (first : Effect before command reply between) (rest : Effects between commands replies after) :
    Effects before (command :: commands) (reply :: replies) after

/-- Whether a command leaves stored yields as they are. -/
def Command.keepsYields {K Y : Type} : Command K Y → Bool
  | .updateYield _ _ => false
  | _ => true

namespace Table

variable {table : Table K Y}

/-- An insertion adds its pair to the set, unless the pair is there already. -/
theorem WellFormed.effect_insertHeld (wellFormed : table.WellFormed) {allows : Allocator}
    {key : Held K} {yield : Held Y} {command : Command K Y}
    (asked : command.pair? = some (key.value, yield.value))
    (granted : (Reply.inserted (table.insertHeld allows key yield).answer : Reply K Y).isRefused =
      false) :
    Effect table.pairs command (.inserted (table.insertHeld allows key yield).answer)
      (table.insertHeld allows key yield).state.pairs := by
  have growth := (sameContents_grow table allows).pairs
  have stored := wellFormed.contains_iff_mem_pairs key.value yield.value
  cases present : table.contains (some key.value) (some yield.value) with
  | true =>
    rw [insertHeld_of_stored present]
    exact .duplicate asked (stored.mp present)
  | false =>
    rw [insertHeld_of_granted present granted, pairs_link, growth]
    exact .inserted asked fun there => by simp [stored.mpr there] at present

/-- A command acts on the set of pairs alone. -/
theorem WellFormed.effect_perform (wellFormed : table.WellFormed) (distinct : table.Distinct)
    {allows : Allocator} {command : Command K Y}
    (granted : (table.perform allows command).answer.isRefused = false)
    (keeping : command.keepsYields) :
    Effect table.pairs command (table.perform allows command).answer
      (table.perform allows command).state.pairs := by
  cases command with
  | insert key yield =>
    exact wellFormed.effect_insertHeld (by simp [Command.pair?]) granted
  | insertOwned key yield => exact wellFormed.effect_insertHeld rfl granted
  | remove key yield =>
    change Effect _ _ (.removed (table.remove key yield).1) (table.remove key yield).2.pairs
    rw [wellFormed.count_remove distinct, wellFormed.pairs_remove]
    exact .removed
  | removeItem handle =>
    change Effect _ _ (.handedBack (table.removeItem handle).1) (table.discard handle).pairs
    cases held : table.held? handle with
    | none =>
      rw [Table.discard, removeItem_of_held?_eq_none held]
      exact .nothingHandedBack
    | some stored =>
      have named : table.pairAt? handle = some (pairOf stored.1.value stored.2.value) := by
        rw [pairAt?_eq_map_held?, held, Option.map_some]
      rw [removeItem_answer, held, distinct.pairs_discard named]
      exact .handedBack (mem_pairs.mpr ⟨handle, named⟩)
  | reset =>
    change Effect _ _ .emptied (table.remove none none).2.pairs
    rw [wellFormed.pairs_remove, Finset.filter_false_of_mem]
    · exact .emptied
    · simp
  | rebuild request =>
    have kept := (sameContents_rebuild table allows request).pairs
    have answer : (table.rebuild allows request).answer = .ok () := by
      cases reserved : allows (bucketCountFor request) with
      | true => rw [rebuild_of_reserved reserved]
      | false =>
        rw [Table.perform, rebuild_of_refused reserved] at granted
        cases granted
    change Effect _ _ (.rebuilt (table.rebuild allows request).answer)
      (table.rebuild allows request).state.pairs
    rw [kept, answer]
    exact .rebuilt
  | updateYield handle change => simp [Command.keepsYields] at keeping

/-- An insert never stores a pair a second time. -/
theorem Distinct.insertHeld (distinct : table.Distinct) (wellFormed : table.WellFormed)
    (allows : Allocator) (key : Held K) (yield : Held Y) :
    (table.insertHeld allows key yield).state.Distinct := by
  have growth := sameContents_grow table allows
  have stored := wellFormed.contains_iff_mem_pairs key.value yield.value
  obtain ⟨_, outcome⟩ | ⟨_, failure, _, outcome⟩ | ⟨new, _, outcome⟩ :=
    table.insertHeld_cases allows key yield
  · rwa [outcome]
  · rw [outcome]
    exact growth.distinct distinct
  · rw [outcome]
    apply (growth.distinct distinct).link
    rw [growth.pairs, ← stored, new]
    exact Bool.false_ne_true

/-- A command that leaves stored yields as they are keeps stored pairs apart. -/
theorem Distinct.perform (distinct : table.Distinct) (wellFormed : table.WellFormed)
    (allows : Allocator) {command : Command K Y} (keeping : command.keepsYields) :
    (table.perform allows command).state.Distinct := by
  cases command with
  | insert key yield => exact distinct.insertHeld wellFormed allows _ _
  | insertOwned key yield => exact distinct.insertHeld wellFormed allows _ _
  | remove key yield => exact distinct.foldl_discard _
  | removeItem handle => exact distinct.foldl_discard [handle]
  | reset => exact distinct.foldl_discard _
  | rebuild request => exact (sameContents_rebuild table allows request).distinct distinct
  | updateYield handle change => simp [Command.keepsYields] at keeping

/-- A run of such commands acts on the set of pairs alone and keeps stored pairs apart. -/
theorem WellFormed.effects_run (wellFormed : table.WellFormed) (distinct : table.Distinct)
    {commands : List (Allocator × Command K Y)}
    (granted : ∀ reply ∈ (table.run commands).answer, reply.isRefused = false)
    (keeping : ∀ step ∈ commands, step.2.keepsYields) :
    Effects table.pairs (commands.map Prod.snd) (table.run commands).answer
        (table.run commands).state.pairs ∧
      (table.run commands).state.Distinct := by
  induction commands generalizing table with
  | nil => exact ⟨.none, distinct⟩
  | cons step rest ih =>
    obtain ⟨allows, command⟩ := step
    simp only [Table.run, List.forall_mem_cons] at granted keeping
    have first := wellFormed.effect_perform distinct granted.1 keeping.1
    have later := ih (wellFormed.perform allows command)
      (distinct.perform wellFormed allows keeping.1) granted.2 keeping.2
    exact ⟨.more first later.1, later.2⟩

/-- A new table stores no pair. -/
theorem pairs_of_make {allows : Allocator} {strategy : Strategy} {options : TableOptions}
    (made : (make allows strategy options).1 = .ok table) : table.pairs = ∅ ∧ table.Distinct := by
  have nothing : ∀ handle, table.pairAt? handle = none := by
    intro handle
    rw [eq_ofSize_of_make made]
    simp [pairAt?, get?, ofSize]
  refine ⟨?_, fun first _ _ here => ?_⟩
  · ext pair
    simp [mem_pairs, nothing]
  · simp [nothing] at here

/-- A run on a table that could be made is a run on a set of pairs, as long as no array is refused and
no yield is written in place. At any point no two stored pairs are equal, the size is that of the
set, a search finds a match exactly if the set has one, and a pair of the set is refused without any
change. -/
theorem effects_of_run {allows : Allocator} {strategy : Strategy} {options : TableOptions}
    (made : (make allows strategy options).1 = .ok table)
    {commands : List (Allocator × Command K Y)}
    (granted : ∀ reply ∈ (table.run commands).answer, reply.isRefused = false)
    (keeping : ∀ step ∈ commands, step.2.keepsYields) :
    let done := table.run commands
    let reached := done.state
    Effects ∅ (commands.map Prod.snd) done.answer reached.pairs ∧
      (∀ first second firstStored secondStored, reached.get? first = some firstStored →
        reached.get? second = some secondStored → Storable.same firstStored.1 secondStored.1 →
          Storable.same firstStored.2 secondStored.2 → first = second) ∧
      reached.size = reached.pairs.card ∧
      (∀ key yield, (reached.lookup key yield).isSome ↔
        ∃ pair ∈ reached.pairs, Pairs.admits key yield pair) ∧
      (∀ key yield handle, reached.lookup key yield = some handle →
        ∃ stored, reached.get? handle = some stored ∧ Storable.admits key stored.1 ∧
          Storable.admits yield stored.2) ∧
      (∀ key yield, reached.contains key yield ↔
        ∃ pair ∈ reached.pairs, Pairs.admits key yield pair) ∧
      (∀ allows key yield, pairOf key.value yield.value ∈ reached.pairs →
        reached.insertHeld allows key yield = ⟨.error .duplicateEntry, reached, []⟩) ∧
      ∀ handle, (reached.removeItem handle).1 = reached.held? handle := by
  intro done reached
  have start := wellFormed_of_make made
  obtain ⟨empty, apart⟩ := pairs_of_make made
  have wellFormed : reached.WellFormed := start.run commands
  obtain ⟨effects, distinct⟩ := start.effects_run apart granted keeping
  rw [empty] at effects
  refine ⟨effects, ?_, distinct.card_pairs.symm, fun _ _ => wellFormed.isSome_lookup_iff_pairs,
    ?_, fun _ _ => wellFormed.isSome_lookup_iff_pairs, ?_, reached.removeItem_answer⟩
  · intro first second firstStored secondStored here there sameKey sameYield
    have alike : pairOf firstStored.1 firstStored.2 = pairOf secondStored.1 secondStored.2 :=
      Prod.ext (Storable.Class.of_eq_of.mpr sameKey) (Storable.Class.of_eq_of.mpr sameYield)
    refine distinct first second (pairOf firstStored.1 firstStored.2) ?_ ?_
    · rw [pairAt?, here, Option.map_some]
    · rw [pairAt?, there, Option.map_some, alike]
  · intro key yield handle found
    obtain ⟨pair, held, keyAdmitted, yieldAdmitted⟩ := admits_iff.mp (admits_of_lookup found)
    exact ⟨(pair.1.value, pair.2.value), by rw [get?_eq_map_held?, held, Option.map_some],
      keyAdmitted, yieldAdmitted⟩
  · intro allows key yield stored
    have present := (wellFormed.contains_iff_mem_pairs key.value yield.value).mpr stored
    rw [Table.insertHeld, if_pos present]

/-- Two connections in both directions and the two zeros collide in one bucket: of four insertions one
is of a duplicate, and a removal by the key of one connection leaves the other. -/
theorem effects_of_run_constant :
    let outward : Connection := ⟨⟨1, 80⟩, ⟨2, 443⟩, 6⟩
    let other : Connection := ⟨⟨1, 80⟩, ⟨3, 443⟩, 6⟩
    let commands : List (Allocator × Command Connection Double) :=
      [(fun _ => true, .insert outward ⟨0⟩), (fun _ => true, .insertOwned outward.reversed ⟨0⟩),
        (fun _ => true, .insert outward.reversed ⟨0x8000000000000000⟩),
        (fun _ => true, .insert other ⟨0⟩), (fun _ => true, .rebuild 100),
        (fun _ => true, .remove (some outward.reversed) none)]
    let start : Table Connection Double := ofSize (fun _ => 7) .standard 16
    (make (fun _ => true) (fun _ => 7) .standard).1 = .ok start ∧
      (∀ reply ∈ (start.run commands).answer, reply.isRefused = false) ∧
      (∀ step ∈ commands, step.2.keepsYields) ∧
      (start.run commands).answer = [.inserted (.ok ⟨0⟩), .inserted (.error .duplicateEntry),
        .inserted (.ok ⟨1⟩), .inserted (.ok ⟨2⟩), .rebuilt (.ok ()), .removed 2] ∧
      Effects ∅ (commands.map Prod.snd) (start.run commands).answer
        (start.run commands).state.pairs ∧
      (start.run commands).state.size = (start.run commands).state.pairs.card := by
  intro outward other commands start
  have made : (make (fun _ => true) (fun _ => 7) .standard).1 = .ok start := rfl
  have replies : (start.run commands).answer = [.inserted (.ok ⟨0⟩),
      .inserted (.error .duplicateEntry), .inserted (.ok ⟨1⟩), .inserted (.ok ⟨2⟩),
      .rebuilt (.ok ()), .removed 2] := by cbv
  have granted : ∀ reply ∈ (start.run commands).answer, reply.isRefused = false := by
    simp [replies, Reply.isRefused]
  have keeping : ∀ step ∈ commands, step.2.keepsYields := by simp [commands, Command.keepsYields]
  have holds := effects_of_run made granted keeping
  exact ⟨made, granted, keeping, replies, holds.1, holds.2.2.1⟩

end Table

end ChainedMultimap
