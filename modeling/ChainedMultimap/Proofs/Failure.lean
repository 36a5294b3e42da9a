import ChainedMultimap.Proofs.Keyed
import ChainedMultimap.Proofs.Runs
import Mathlib

/-!
# What failing operations leave behind

A refused pair and a rebuild without memory leave the table as it was. An insertion whose growth runs
out of memory leaves the table of the doublings that succeeded, which is the one that rebuilding for
each of those sizes in turn gives. It stores what was stored before, and its searches, walks and
removals are right, as they are for every table that can be reached.
-/

namespace ChainedMultimap.Table

variable {K Y : Type} {table : Table K Y} {allows : Allocator} {count : Nat}

/-! ## Growth without memory -/

/-- A growth that has doubled the buckets some times is still crowded then, and fails because the next
bucket array cannot be reserved. -/
structure FailsAfter (table : Table K Y) (allows : Allocator) (count : Nat) : Prop where
  /-- The entries have reached the occupancy ratio before every doubling and after the last one. -/
  crowded : ∀ step ≤ count, table.ratio.isReached table.size (2 ^ step * table.bucketCount)
  /-- The largest bucket array is not reached. -/
  below : 2 ^ count * table.bucketCount < maxBuckets
  /-- Every doubled bucket array could be reserved. -/
  reserved : ∀ step < count, allows (2 ^ (step + 1) * table.bucketCount)
  /-- The next one cannot. -/
  refused : allows (2 ^ (count + 1) * table.bucketCount) = false

/-- One more doubling may as well come first. -/
theorem two_pow_succ_mul (exponent buckets : Nat) :
    2 ^ (exponent + 1) * buckets = 2 ^ exponent * (2 * buckets) := by
  rw [Nat.pow_succ, Nat.mul_assoc]

/-- A growth fails after no doubling exactly if the first one cannot be reserved. -/
theorem failsAfter_zero : table.FailsAfter allows 0 ↔
    table.isCrowded ∧ table.bucketCount < maxBuckets ∧ allows (2 * table.bucketCount) = false := by
  constructor
  · rintro ⟨crowded, below, _, refused⟩
    exact ⟨by simpa [isCrowded] using crowded, by simpa using below, by simpa using refused⟩
  · rintro ⟨crowded, below, refused⟩
    exact ⟨by simpa [isCrowded] using crowded, by simpa using below, nofun, by simpa using refused⟩

variable [Storable K]

/-- Below the upper limit doubling doubles the bucket count. -/
theorem bucketCount_doubled (wellFormed : table.WellFormed)
    (below : table.bucketCount < maxBuckets) : table.doubled.bucketCount = 2 * table.bucketCount := by
  rw [doubled, bucketCount_rethread, (wellFormed.admissible.double below).bucketCountFor_eq]

/-- A growth fails after some doublings exactly if it doubles once and fails after the others from
there. -/
theorem failsAfter_succ (wellFormed : table.WellFormed) : table.FailsAfter allows (count + 1) ↔
    table.isCrowded ∧ table.bucketCount < maxBuckets ∧ allows (2 * table.bucketCount) ∧
      table.doubled.FailsAfter allows count := by
  have kept := sameContents_doubled table
  constructor
  · rintro ⟨crowded, below, reserved, refused⟩
    have room : table.bucketCount < maxBuckets :=
      Nat.lt_of_le_of_lt (Nat.le_mul_of_pos_left _ (Nat.two_pow_pos _)) below
    have twice := bucketCount_doubled wellFormed room
    refine ⟨by simpa [isCrowded] using crowded 0 (Nat.zero_le _), room,
      by simpa using reserved 0 (Nat.succ_pos _), ⟨?_, ?_, ?_, ?_⟩⟩
    · intro step early
      rw [kept.ratio, kept.size, twice, ← two_pow_succ_mul]
      exact crowded (step + 1) (Nat.succ_le_succ early)
    · rwa [twice, ← two_pow_succ_mul]
    · intro step early
      rw [twice, ← two_pow_succ_mul]
      exact reserved (step + 1) (Nat.succ_lt_succ early)
    · rwa [twice, ← two_pow_succ_mul]
  · rintro ⟨crowded, room, first, later, below, reserved, refused⟩
    have twice := bucketCount_doubled wellFormed room
    rw [twice, ← two_pow_succ_mul] at below refused
    refine ⟨?_, below, ?_, refused⟩
    · rintro (_ | step) early
      · simpa [isCrowded] using crowded
      · have reached := later step (Nat.le_of_succ_le_succ early)
        rwa [kept.ratio, kept.size, twice, ← two_pow_succ_mul] at reached
    · rintro (_ | step) early
      · simpa using first
      · have allowed := reserved step (Nat.lt_of_succ_lt_succ early)
        rwa [twice, ← two_pow_succ_mul] at allowed

/-- A growth that fails does so after some number of doublings. -/
theorem WellFormed.exists_failsAfter (wellFormed : table.WellFormed) {failure : TableError}
    (failed : (table.grow allows).answer = .error failure) :
    ∃ count, table.FailsAfter allows count := by
  induction table using @grow_induction K Y _ allows with
  | calm table calm =>
    rw [grow_of_calm calm] at failed
    cases failed
  | full table crowded full =>
    rw [grow_of_full crowded full] at failed
    cases failed
  | refused table crowded below refused =>
    have room := Nat.lt_of_not_le below
    rw [(wellFormed.admissible.double room).bucketCountFor_eq] at refused
    exact ⟨0, failsAfter_zero.mpr ⟨crowded, room, refused⟩⟩
  | reserved table crowded below reserved ih =>
    have room := Nat.lt_of_not_le below
    rw [(grow_of_reserved crowded below reserved).1] at failed
    obtain ⟨count, fails⟩ := ih wellFormed.doubled failed
    rw [(wellFormed.admissible.double room).bucketCountFor_eq] at reserved
    exact ⟨count + 1, (failsAfter_succ wellFormed).mpr ⟨crowded, room, reserved, fails⟩⟩

/-- The commands that rebuild a table for the double of its bucket count, for the double of that, and
so on. -/
def doublings (table : Table K Y) (allows : Allocator) (count : Nat) :
    List (Allocator × Command K Y) :=
  (List.range count).map fun step => (allows, .rebuild (2 ^ (step + 1) * table.bucketCount))

/-- Of several doublings the first one doubles the table, and the others go on from there. -/
theorem doublings_succ (wellFormed : table.WellFormed) (room : table.bucketCount < maxBuckets) :
    table.doublings allows (count + 1) =
      (allows, .rebuild (2 * table.bucketCount)) :: table.doubled.doublings allows count := by
  rw [doublings, doublings, List.range_succ_eq_map, List.map_cons, List.map_map,
    bucketCount_doubled wellFormed room]
  simp [Function.comp_def, two_pow_succ_mul]

variable [Storable Y]

/-- What a growth comes to that fails after some doublings. -/
theorem WellFormed.grow_of_failsAfter (wellFormed : table.WellFormed)
    (fails : table.FailsAfter allows count) :
    let rebuilt := table.run (table.doublings allows count)
    (table.grow allows).answer =
        .error (.allocationFailure (2 * (table.grow allows).state.bucketCount)) ∧
      (table.grow allows).state = rebuilt.state ∧
      rebuilt.answer = List.replicate count (.rebuilt (.ok ())) := by
  induction count generalizing table with
  | zero =>
    obtain ⟨crowded, room, refused⟩ := failsAfter_zero.mp fails
    have rounded := (wellFormed.admissible.double room).bucketCountFor_eq
    rw [grow_of_refused crowded (Nat.not_le_of_lt room) (rounded.symm ▸ refused), rounded]
    exact ⟨rfl, rfl, rfl⟩
  | succ count ih =>
    obtain ⟨crowded, room, reserved, later⟩ := (failsAfter_succ wellFormed).mp fails
    have rounded := (wellFormed.admissible.double room).bucketCountFor_eq
    have allowed : allows (bucketCountFor (2 * table.bucketCount)) := rounded.symm ▸ reserved
    have rebuilt : table.perform allows (.rebuild (2 * table.bucketCount)) =
        ⟨.rebuilt (.ok ()), table.doubled,
          [.tableResizing table.bucketCount (bucketCountFor (2 * table.bucketCount))]⟩ := by
      rw [Table.perform, rebuild_of_reserved allowed]
      rfl
    obtain ⟨answer, state⟩ := grow_of_reserved crowded (Nat.not_le_of_lt room) allowed
    obtain ⟨failed, left, replies⟩ :=
      ih wellFormed.doubled later
    rw [answer, state, doublings_succ wellFormed room]
    simp only [Table.run, rebuilt]
    exact ⟨failed, left, by rw [replies, List.replicate_succ]⟩

/-! ## What a table stores -/

/-- Whether a table stores a pair that equals a given one in both components. -/
def Stores (table : Table K Y) (key : K) (yield : Y) : Prop :=
  ∃ handle stored, table.get? handle = some stored ∧
    compare key stored.1 = .eq ∧ compare yield stored.2 = .eq

/-- A pair is stored exactly if some handle finds what the pair admits. -/
theorem stores_iff_admits {key : K} {yield : Y} :
    table.Stores key yield ↔ ∃ handle, table.admits (some key) (some yield) handle := by
  refine exists_congr fun handle => ?_
  rw [admits_eq_get?]
  cases table.get? handle <;> simp [Storable.admits, Storable.same_iff_compare]

/-- With the same contents the same pairs are stored. -/
theorem SameContents.stores_iff {before after : Table K Y} (same : SameContents before after)
    {key : K} {yield : Y} : after.Stores key yield ↔ before.Stores key yield := by
  simp only [Stores, same.get?]

/-- What searches, walks and removals answer is what the table stores. -/
structure Truthful (table : Table K Y) : Prop where
  /-- A search answers an item exactly if one passes its filters. -/
  isSome_lookup : ∀ key yield,
    (table.lookup key yield).isSome ↔ ∃ handle, table.admits key yield handle
  /-- The item that a search answers passes its filters. -/
  admits_lookup : ∀ key yield handle, table.lookup key yield = some handle →
    table.admits key yield handle
  /-- A walk without a key visits every item once. -/
  walk_none : (table.walk none none).Nodup ∧
    ∀ handle, handle ∈ table.walk none none ↔ (table.get? handle).isSome
  /-- A walk with a key visits items with the key alone, none of them twice, and some if there are
  any. -/
  walk_some : ∀ key, (table.walk none (some key)).Nodup ∧
    (∀ handle ∈ table.walk none (some key), table.hasKey key handle) ∧
    (table.walk none (some key) = [] ↔ ∀ handle, table.hasKey key handle = false)
  /-- A removal answers how many items pass its filters. -/
  count_remove : ∀ key yield,
    (table.remove key yield).1 = table.items.live.countP (table.admits key yield)
  /-- A removal empties the handles of those items and of no other. -/
  held?_remove : ∀ key yield handle, (table.remove key yield).2.held? handle =
    if table.admits key yield handle then none else table.held? handle
  /-- A removal by handle hands back what is held there, and empties this handle and no other. -/
  removeItem : ∀ handle, (table.removeItem handle).1 = table.held? handle ∧
    ∀ other, (table.removeItem handle).2.held? other =
      if handle = other then none else table.held? other

namespace WellFormed

variable [LawfulStorable K]

/-- A search finds as many items as pass its filters. -/
theorem length_matching (wellFormed : table.WellFormed) (key : Option K) (yield : Option Y) :
    (table.matching key yield).length = table.items.live.countP (table.admits key yield) := by
  rw [wellFormed.matching_eq, ← List.countP_eq_length_filter, wellFormed.perm_live.countP_eq]

/-- A well-formed table answers what it stores. -/
theorem truthful (wellFormed : table.WellFormed) : table.Truthful where
  isSome_lookup _ _ := wellFormed.isSome_lookup
  admits_lookup _ _ _ := admits_of_lookup
  walk_none := by
    rw [wellFormed.walk_none]
    refine ⟨wellFormed.threads.nodup_handles, fun handle => ?_⟩
    rw [wellFormed.mem_handles, get?, Option.isSome_map]
  walk_some key := by
    refine ⟨?_, ?_, wellFormed.walk_some_eq_nil_iff key⟩ <;> rw [wellFormed.walk_some]
    · exact (wellFormed.threads.distinct _).sublist (table.block_infix key).sublist
    · exact fun handle => List.mem_takeWhile_imp
  count_remove := wellFormed.length_matching
  held?_remove key yield handle := by
    rw [Table.remove, held?_foldl_discard]
    exact if_congr wellFormed.mem_matching_iff rfl rfl
  removeItem handle := ⟨table.removeItem_answer handle, table.held?_discard handle⟩

/-- A pair is found stored exactly if it equals one that is. -/
theorem contains_iff_stores (wellFormed : table.WellFormed) (key : K) (yield : Y) :
    table.contains (some key) (some yield) ↔ table.Stores key yield := by
  rw [contains, wellFormed.isSome_lookup, stores_iff_admits]

end WellFormed

/-! ## Insertions without memory -/

/-- The outcome of an insertion whose growth fails after some doublings. -/
structure Abandoned (before : Table K Y) (allows : Allocator) (count : Nat)
    (done : Outcome (Table K Y) (Reply K Y)) : Prop where
  /-- It answers that twice as many buckets as there are now could not be reserved. -/
  answer : done.answer = .inserted (.error (.allocationFailure (2 * done.state.bucketCount)))
  /-- The table is the one that explicit rebuilds to each doubled size leave. -/
  state : done.state = (before.run (before.doublings allows count)).state
  /-- All these rebuilds succeed. -/
  rebuilds : (before.run (before.doublings allows count)).answer =
    List.replicate count (.rebuilt (.ok ()))
  /-- Every item is still there, with its pair under its handle, and no other. -/
  contents : SameContents before done.state
  /-- Whatever is run on the table then, its searches, walks and removals are right. -/
  truthful : ∀ later, (done.state.run later).state.Truthful

section Insertions

variable [LawfulStorable K] {key : Held K} {yield : Held Y}

/-- Inserting a stored pair reports the duplicate and leaves the table as it was. -/
theorem WellFormed.insertHeld_of_stores (wellFormed : table.WellFormed)
    (stored : table.Stores key.value yield.value) :
    table.insertHeld allows key yield = ⟨.error .duplicateEntry, table, []⟩ :=
  insertHeld_of_stored ((wellFormed.contains_iff_stores _ _).mpr stored)

/-- The insertion of a pair that is not stored succeeds or is abandoned as its growth succeeds or
fails. -/
theorem WellFormed.insertHeld_of_new (wellFormed : table.WellFormed) (allows : Allocator)
    (new : ¬table.Stores key.value yield.value) :
    let done := table.insertHeld allows key yield
    ((∃ handle, done.answer = .ok handle) ∧ ¬∃ count, table.FailsAfter allows count) ∨
    ((∃ requested, done.answer = .error (.allocationFailure requested)) ∧
      (∃ count, table.FailsAfter allows count) ∧
      ∀ count, table.FailsAfter allows count →
        table.Abandoned allows count ⟨.inserted done.answer, done.state, done.log⟩) := by
  have unfound : table.contains (some key.value) (some yield.value) = false :=
    Bool.eq_false_iff.mpr (new ∘ (wellFormed.contains_iff_stores _ _).mp)
  cases growth : (table.grow allows).answer with
  | ok _ =>
    rw [insertHeld_of_grown unfound growth]
    refine .inl ⟨⟨_, rfl⟩, ?_⟩
    rintro ⟨count, fails⟩
    rw [(wellFormed.grow_of_failsAfter fails).1] at growth
    cases growth
  | error failure =>
    rw [insertHeld_of_failed unfound growth]
    obtain ⟨count, fails⟩ := wellFormed.exists_failsAfter growth
    obtain rfl := Except.error.inj (growth.symm.trans (wellFormed.grow_of_failsAfter fails).1)
    refine .inr ⟨⟨_, rfl⟩, ⟨count, fails⟩, fun count fails => ?_⟩
    obtain ⟨_, state, rebuilds⟩ := wellFormed.grow_of_failsAfter fails
    exact
      { answer := rfl
        state := state
        rebuilds := rebuilds
        contents := sameContents_grow table allows
        truthful := fun later => ((wellFormed.grow allows).run later).truthful }

end Insertions

/-- What failing operations leave behind, on a table reached by any commands under any allocators.

An insertion answers that its pair is stored exactly if a pair that equals it in both components is,
and then nothing has changed. The insertion of any other pair fails exactly if its growth does, after
some number of doublings, and leaves the table of these doublings without the pair. A rebuild fails
exactly if its bucket array cannot be reserved, and then nothing has changed. -/
theorem failures_of_run [LawfulStorable K] {allows : Allocator} {strategy : Strategy}
    {options : TableOptions} (made : (make allows strategy options).1 = .ok table)
    (commands : List (Allocator × Command K Y)) (available : Allocator) :
    let reached := (table.run commands).state
    (∀ command key yield, command.pair? = some (key, yield) →
      let done := reached.perform available command
      (done.answer = .inserted (.error .duplicateEntry) ↔ reached.Stores key yield) ∧
      (reached.Stores key yield → done = ⟨.inserted (.error .duplicateEntry), reached, []⟩) ∧
      (¬reached.Stores key yield →
        ((∃ failure, done.answer = .inserted (.error failure)) ↔
          ∃ count, reached.FailsAfter available count) ∧
        ∀ count, reached.FailsAfter available count →
          reached.Abandoned available count done ∧ ¬done.state.Stores key yield)) ∧
    (∀ request, (reached.rebuild available request).answer = .ok () ↔
      available (bucketCountFor request)) ∧
    ∀ request, available (bucketCountFor request) = false →
      reached.perform available (.rebuild request) =
        ⟨.rebuilt (.error (.allocationFailure (bucketCountFor request))), reached,
          [.tableResizing reached.bucketCount (bucketCountFor request)]⟩ := by
  intro reached
  have wellFormed : reached.WellFormed := (wellFormed_of_make made).run commands
  refine ⟨fun command key yield asked => ?_, fun request => ?_, fun request refused => ?_⟩
  · obtain ⟨heldKey, heldYield, rfl, rfl, performed⟩ := perform_of_pair? asked reached available
    dsimp only
    rw [performed]
    by_cases stored : reached.Stores heldKey.value heldYield.value
    · rw [wellFormed.insertHeld_of_stores stored]
      exact ⟨iff_of_true rfl stored, fun _ => rfl, fun new => absurd stored new⟩
    · obtain ⟨⟨handle, answer⟩, steady⟩ | ⟨⟨requested, answer⟩, fails, abandoned⟩ :=
        wellFormed.insertHeld_of_new available stored
      · rw [answer]
        refine ⟨iff_of_false nofun stored, fun there => absurd there stored, fun _ =>
          ⟨iff_of_false nofun steady, fun count fails => absurd ⟨count, fails⟩ steady⟩⟩
      · refine ⟨iff_of_false ?_ stored, fun there => absurd there stored, fun _ =>
          ⟨iff_of_true ?_ fails, fun count fails => ⟨abandoned count fails, ?_⟩⟩⟩
        · rw [answer]
          nofun
        · exact ⟨_, congrArg Reply.inserted answer⟩
        · exact stored ∘ (abandoned count fails).contents.stores_iff.mp
  · cases reserved : available (bucketCountFor request) with
    | true => simp [rebuild_of_reserved reserved]
    | false => simp [rebuild_of_refused reserved]
  · rw [perform, rebuild_of_refused refused]

/-- One item crowds 16, 32 and 64 buckets, of which 64 cannot be reserved: a second pair is abandoned
after one doubling, while the stored pair and a rebuild are refused without any change. -/
theorem failures_of_run_scarce :
    let options : TableOptions := ⟨16, ⟨0x3c800000⟩, true, true⟩
    let start : Table UnsignedInt UnsignedInt := ofSize (fun _ => 7) options 16
    let commands : List (Allocator × Command UnsignedInt UnsignedInt) :=
      [(fun _ => true, .insert ⟨1⟩ ⟨10⟩)]
    let scarce : Allocator := fun count => count ≤ 32
    let reached := (start.run commands).state
    let done := reached.perform scarce (.insertOwned ⟨2⟩ ⟨20⟩)
    (make (fun _ => true) (fun _ => 7) options).1 = .ok start ∧
      done.answer = .inserted (.error (.allocationFailure 64)) ∧
      ¬reached.Stores ⟨2⟩ ⟨20⟩ ∧ reached.FailsAfter scarce 1 ∧ reached.Abandoned scarce 1 done ∧
      reached.Stores ⟨1⟩ ⟨10⟩ ∧
      reached.perform scarce (.insert ⟨1⟩ ⟨10⟩) =
        ⟨.inserted (.error .duplicateEntry), reached, []⟩ ∧
      (reached.perform scarce (.rebuild 100)).answer =
        .rebuilt (.error (.allocationFailure 64)) := by
  intro options start commands scarce reached done
  have made : (make (fun _ => true) (fun _ => 7) options).1 = .ok start := by cbv
  have ratio : (start.run commands).state.ratio = options.ratio := by cbv
  have size : (start.run commands).state.size = 1 := by cbv
  have buckets : (start.run commands).state.bucketCount = 16 := by cbv
  have found : (start.run commands).state.get? ⟨0⟩ = some (⟨1⟩, ⟨10⟩) := by cbv
  have answer : ((start.run commands).state.perform scarce (.insertOwned ⟨2⟩ ⟨20⟩)).answer =
      .inserted (.error (.allocationFailure 64)) := by cbv
  have stored : reached.Stores ⟨1⟩ ⟨10⟩ := ⟨⟨0⟩, (⟨1⟩, ⟨10⟩), found, rfl, rfl⟩
  have fails : reached.FailsAfter scarce 1 := by
    constructor <;> rw [buckets]
    · rw [ratio, size]
      decide
    · decide
    · decide
    · decide
  obtain ⟨insertions, -, rebuilds⟩ := failures_of_run made commands scarce
  have new : ¬reached.Stores ⟨2⟩ ⟨20⟩ := by
    rw [← (insertions (.insertOwned ⟨2⟩ ⟨20⟩) _ _ rfl).1]
    intro duplicate
    cases answer.symm.trans duplicate
  refine ⟨made, answer, new, fails,
    (((insertions (.insertOwned ⟨2⟩ ⟨20⟩) _ _ rfl).2.2 new).2 1 fails).1, stored,
    (insertions (.insert ⟨1⟩ ⟨10⟩) _ _ rfl).2.1 stored, ?_⟩
  rw [rebuilds 100 rfl]
  rfl

end ChainedMultimap.Table
