import ChainedMultimap.Proofs.Keyed
import ChainedMultimap.Proofs.Runs
import Mathlib

/-!
# Tables that differ in their hash function

Two tables are twins when they hold the same under the same handles, have as many buckets, and keep the
items of every key in the same order. Their chains may have nothing else in common. Twins answer every
command alike and stay twins, and so do the tables of two runs of the same commands under different
strategies.
-/

namespace ChainedMultimap.Table

variable {K Y : Type} [Storable K] {left right : Table K Y}

/-- Two tables whose answers do not tell them apart. -/
structure Twins (left right : Table K Y) : Prop where
  /-- The left table is well formed. -/
  wellFormedLeft : left.WellFormed
  /-- The right table is well formed. -/
  wellFormedRight : right.WellFormed
  /-- The pairs under all handles are the same. -/
  held? : right.held? = left.held?
  /-- The same handles have been given out. -/
  fresh : right.items.fresh = left.items.fresh
  /-- There are as many buckets. -/
  bucketCount : right.bucketCount = left.bucketCount
  /-- The occupancy ratio is the same. -/
  ratio : right.ratio = left.ratio
  /-- Keys are copied or not alike. -/
  copyKeys : right.copyKeys = left.copyKeys
  /-- Yields are copied or not alike. -/
  copyYields : right.copyYields = left.copyYields
  /-- The items of every key are in the same order. -/
  keyed : right.keyed = left.keyed

namespace Twins

/-- Twins have the same items, though not in the same order. -/
theorem perm_handles (twins : Twins left right) : right.handles.Perm left.handles := by
  rw [List.perm_ext_iff_of_nodup twins.wellFormedRight.threads.nodup_handles
    twins.wellFormedLeft.threads.nodup_handles]
  intro handle
  rw [twins.wellFormedRight.mem_handles, twins.wellFormedLeft.mem_handles, ← isSome_held?,
    ← isSome_held?, twins.held?]

/-- Twins have as many items as each other. -/
theorem size (twins : Twins left right) : right.size = left.size := by
  rw [← twins.wellFormedRight.length_handles, ← twins.wellFormedLeft.length_handles,
    twins.perm_handles.length_eq]

/-- Twins are crowded at the same moments. -/
theorem isCrowded (twins : Twins left right) : right.isCrowded = left.isCrowded := by
  rw [Table.isCrowded, Table.isCrowded, twins.ratio, twins.size, twins.bucketCount]

/-! ## Changing and discarding -/

/-- Twins whose yield is written under one handle stay twins. -/
theorem updateYield (twins : Twins left right) (handle : Handle) (change : Y → Y) :
    Twins (left.updateYield handle change).2 (right.updateYield handle change).2 where
  wellFormedLeft := twins.wellFormedLeft.updateYield handle change
  wellFormedRight := twins.wellFormedRight.updateYield handle change
  held? := by
    funext other
    rw [held?_updateYield, held?_updateYield, twins.held?]
  fresh := by simpa [Table.updateYield] using twins.fresh
  bucketCount := twins.bucketCount
  ratio := twins.ratio
  copyKeys := twins.copyKeys
  copyYields := twins.copyYields
  keyed := by
    funext key
    rw [twins.wellFormedRight.keyed_updateYield, twins.wellFormedLeft.keyed_updateYield, twins.keyed]

/-- Twins from which the same items are discarded, in whatever order, stay twins. -/
theorem foldl_discard (twins : Twins left right) {leftOrder rightOrder : List Handle}
    (distinct : leftOrder.Nodup) (perm : rightOrder.Perm leftOrder)
    (members : ∀ handle ∈ leftOrder, handle ∈ left.handles) :
    Twins (leftOrder.foldl Table.discard left) (rightOrder.foldl Table.discard right) := by
  have distinctRight : rightOrder.Nodup := perm.nodup_iff.mpr distinct
  have membersRight : ∀ handle ∈ rightOrder, handle ∈ right.handles := by
    intro handle member
    exact twins.perm_handles.mem_iff.mpr (members handle (perm.mem_iff.mp member))
  have leftKept := sameBuckets_foldl_discard leftOrder left
  have rightKept := sameBuckets_foldl_discard rightOrder right
  refine
    { wellFormedLeft := twins.wellFormedLeft.foldl_discard distinct members
      wellFormedRight := twins.wellFormedRight.foldl_discard distinctRight membersRight
      held? := ?_
      fresh := by rw [fresh_foldl_discard, fresh_foldl_discard, twins.fresh]
      bucketCount := by rw [rightKept.bucketCount, leftKept.bucketCount, twins.bucketCount]
      ratio := by rw [rightKept.ratio, leftKept.ratio, twins.ratio]
      copyKeys := by rw [rightKept.copyKeys, leftKept.copyKeys, twins.copyKeys]
      copyYields := by rw [rightKept.copyYields, leftKept.copyYields, twins.copyYields]
      keyed := ?_ }
  · funext handle
    simp [held?_foldl_discard, perm.mem_iff, twins.held?]
  · funext key
    rw [twins.wellFormedRight.keyed_foldl_discard distinctRight membersRight,
      twins.wellFormedLeft.keyed_foldl_discard distinct members, twins.keyed]
    simp [perm.mem_iff]

/-- Twins stay twins when an item is discarded from both. -/
theorem discard (twins : Twins left right) (handle : Handle) :
    Twins (left.discard handle) (right.discard handle) := by
  cases held : left.held? handle with
  | none =>
    have missing : right.held? handle = none := by rw [twins.held?, held]
    rwa [Table.discard, Table.discard, removeItem_of_held?_eq_none held,
      removeItem_of_held?_eq_none missing]
  | some pair =>
    have members : ∀ other ∈ [handle], other ∈ left.handles := by
      rw [List.forall_mem_singleton, twins.wellFormedLeft.mem_handles, ← isSome_held?, held,
        Option.isSome_some]
    exact twins.foldl_discard (List.nodup_singleton handle) (.refl _) members

/-! ## Searching -/

section Searching

variable [Storable Y]

/-- What a filter admits is the same in twins. -/
theorem admits (twins : Twins left right) (key : Option K) (yield : Option Y) :
    right.admits key yield = left.admits key yield := by
  funext handle
  rw [admits_eq_held?, admits_eq_held?, twins.held?]

/-- With a key filter, searches of twins answer the same item. -/
theorem lookup_some (twins : Twins left right) (key : K) (yield : Option Y) :
    right.lookup (some key) yield = left.lookup (some key) yield := by
  rw [lookup_eq_head?, lookup_eq_head?, matching_some, matching_some, twins.keyed, twins.admits]

variable [LawfulStorable K]

/-- Searches of twins find the same items, though not in the same order. -/
theorem perm_matching (twins : Twins left right) (key : Option K) (yield : Option Y) :
    (right.matching key yield).Perm (left.matching key yield) := by
  rw [List.perm_ext_iff_of_nodup (twins.wellFormedRight.nodup_matching key yield)
    (twins.wellFormedLeft.nodup_matching key yield)]
  intro handle
  rw [twins.wellFormedRight.mem_matching_iff, twins.wellFormedLeft.mem_matching_iff, twins.admits]

/-- A search finds something in one twin exactly if it does in the other. -/
theorem isSome_lookup (twins : Twins left right) (key : Option K) (yield : Option Y) :
    (right.lookup key yield).isSome = (left.lookup key yield).isSome := by
  rw [Bool.eq_iff_iff, twins.wellFormedRight.isSome_lookup, twins.wellFormedLeft.isSome_lookup,
    twins.admits]

/-- A pair is stored in one twin exactly if it is in the other. -/
theorem contains (twins : Twins left right) (key : Option K) (yield : Option Y) :
    right.contains key yield = left.contains key yield := twins.isSome_lookup key yield

end Searching

/-! ## Growing and linking -/

variable [LawfulStorable K]

/-- Twins threaded into arrays of one admissible count stay twins. -/
theorem rethread (twins : Twins left right) {buckets : Nat} (admissible : IsBucketCount buckets) :
    Twins (left.rethread buckets left.handles) (right.rethread buckets right.handles) := by
  have leftKept := sameContents_rethread left buckets left.handles
  have rightKept := sameContents_rethread right buckets right.handles
  refine
    { wellFormedLeft := twins.wellFormedLeft.rethread admissible
      wellFormedRight := twins.wellFormedRight.rethread admissible
      held? := by rw [rightKept.held?, leftKept.held?, twins.held?]
      fresh := by rw [rightKept.fresh, leftKept.fresh, twins.fresh]
      bucketCount := by rw [bucketCount_rethread, bucketCount_rethread]
      ratio := by rw [rightKept.ratio, leftKept.ratio, twins.ratio]
      copyKeys := by rw [rightKept.copyKeys, leftKept.copyKeys, twins.copyKeys]
      copyYields := by rw [rightKept.copyYields, leftKept.copyYields, twins.copyYields]
      keyed := ?_ }
  funext key
  rw [twins.wellFormedRight.keyed_rethread admissible.pos,
    twins.wellFormedLeft.keyed_rethread admissible.pos, twins.keyed]

/-- Rebuilt twins answer alike and stay twins. -/
theorem rebuild (twins : Twins left right) (allows : Allocator) (request : Nat) :
    (right.rebuild allows request).answer = (left.rebuild allows request).answer ∧
      Twins (left.rebuild allows request).state (right.rebuild allows request).state := by
  cases reserved : allows (bucketCountFor request) with
  | true =>
    rw [rebuild_of_reserved reserved, rebuild_of_reserved reserved]
    exact ⟨rfl, twins.rethread (isBucketCount_bucketCountFor request)⟩
  | false =>
    rw [rebuild_of_refused reserved, rebuild_of_refused reserved]
    exact ⟨rfl, twins⟩

/-- Twins that double their buckets stay twins. -/
theorem doubled (twins : Twins left right) : Twins left.doubled right.doubled := by
  rw [Table.doubled, Table.doubled, twins.bucketCount]
  exact twins.rethread (isBucketCount_bucketCountFor _)

/-- Twins grow alike: they give one answer and stay twins. -/
theorem grow (twins : Twins left right) (allows : Allocator) :
    (right.grow allows).answer = (left.grow allows).answer ∧
      Twins (left.grow allows).state (right.grow allows).state := by
  induction left using @grow_induction K Y _ allows generalizing right with
  | calm left calm =>
    rw [grow_of_calm calm, grow_of_calm (twins.isCrowded ▸ calm)]
    exact ⟨rfl, twins⟩
  | full left crowded full =>
    rw [grow_of_full crowded full,
      grow_of_full (twins.isCrowded ▸ crowded) (twins.bucketCount ▸ full)]
    exact ⟨rfl, twins⟩
  | refused left crowded below refused =>
    have refusedRight : allows (bucketCountFor (2 * right.bucketCount)) = false := by
      rw [twins.bucketCount, refused]
    rw [grow_of_refused crowded below refused,
      grow_of_refused (twins.isCrowded ▸ crowded) (twins.bucketCount ▸ below) refusedRight,
      twins.bucketCount]
    exact ⟨rfl, twins⟩
  | reserved left crowded below reserved ih =>
    have reservedRight : allows (bucketCountFor (2 * right.bucketCount)) := by
      rw [twins.bucketCount, reserved]
    obtain ⟨leftAnswer, leftState⟩ := grow_of_reserved crowded below reserved
    obtain ⟨rightAnswer, rightState⟩ :=
      grow_of_reserved (twins.isCrowded ▸ crowded) (twins.bucketCount ▸ below) reservedRight
    rw [leftAnswer, rightAnswer, leftState, rightState]
    exact ih twins.doubled

/-- Twins that link one pair stay twins. -/
theorem link (twins : Twins left right) (key : Held K) (yield : Held Y) :
    Twins (left.link key yield) (right.link key yield) where
  wellFormedLeft := twins.wellFormedLeft.link key yield
  wellFormedRight := twins.wellFormedRight.link key yield
  held? := by
    funext other
    rw [held?_link, held?_link, twins.fresh, twins.held?]
  fresh := by rw [fresh_link, fresh_link, twins.fresh]
  bucketCount := by
    rw [(sameBuckets_link right key yield).bucketCount, (sameBuckets_link left key yield).bucketCount,
      twins.bucketCount]
  ratio := twins.ratio
  copyKeys := twins.copyKeys
  copyYields := twins.copyYields
  keyed := by
    funext wanted
    rw [twins.wellFormedRight.keyed_link, twins.wellFormedLeft.keyed_link, twins.fresh, twins.keyed]

/-! ## Commands -/

variable [Storable Y]

/-- Twins remove as many items as each other and stay twins. -/
theorem remove (twins : Twins left right) (key : Option K) (yield : Option Y) :
    (right.remove key yield).1 = (left.remove key yield).1 ∧
      Twins (left.remove key yield).2 (right.remove key yield).2 := by
  refine ⟨(twins.perm_matching key yield).length_eq, ?_⟩
  exact twins.foldl_discard (twins.wellFormedLeft.nodup_matching key yield)
    (twins.perm_matching key yield) fun _ => twins.wellFormedLeft.mem_handles_of_mem_matching

/-- Twins that insert one pair give one answer and stay twins. -/
theorem insertHeld (twins : Twins left right) (allows : Allocator) (key : Held K) (yield : Held Y) :
    (right.insertHeld allows key yield).answer = (left.insertHeld allows key yield).answer ∧
      Twins (left.insertHeld allows key yield).state (right.insertHeld allows key yield).state := by
  obtain ⟨answer, grown⟩ := twins.grow allows
  have stored := twins.contains (some key.value) (some yield.value)
  obtain ⟨duplicate, outcome⟩ | ⟨new, failure, failed, outcome⟩ | ⟨new, succeeded, outcome⟩ :=
    left.insertHeld_cases allows key yield
  · rw [outcome, insertHeld_of_stored (stored.trans duplicate)]
    exact ⟨rfl, twins⟩
  · rw [outcome, insertHeld_of_failed (stored.trans new) (answer.trans failed)]
    exact ⟨rfl, grown⟩
  · rw [outcome, insertHeld_of_grown (stored.trans new) (answer.trans succeeded), twins.fresh]
    exact ⟨rfl, grown.link key yield⟩

/-- Twins answer every command alike and stay twins. -/
theorem perform (twins : Twins left right) (allows : Allocator) (command : Command K Y) :
    (right.perform allows command).answer = (left.perform allows command).answer ∧
      Twins (left.perform allows command).state (right.perform allows command).state := by
  cases command with
  | insert key yield =>
    obtain ⟨answer, inserted⟩ :=
      twins.insertHeld allows (.of left.copyKeys key) (.of left.copyYields yield)
    simp only [Table.perform, insert, twins.copyKeys, twins.copyYields]
    exact ⟨congrArg Reply.inserted answer, inserted⟩
  | insertOwned key yield =>
    obtain ⟨answer, inserted⟩ := twins.insertHeld allows (.owned key) (.owned yield)
    exact ⟨congrArg Reply.inserted answer, inserted⟩
  | remove key yield =>
    obtain ⟨count, removed⟩ := twins.remove key yield
    exact ⟨congrArg Reply.removed count, removed⟩
  | removeItem handle =>
    have answer : (right.removeItem handle).1 = (left.removeItem handle).1 := by
      rw [removeItem_answer, removeItem_answer, twins.held?]
    exact ⟨congrArg Reply.handedBack answer, twins.discard handle⟩
  | reset => exact ⟨rfl, (twins.remove none none).2⟩
  | rebuild request =>
    obtain ⟨answer, rebuilt⟩ := twins.rebuild allows request
    exact ⟨congrArg Reply.rebuilt answer, rebuilt⟩
  | updateYield handle change =>
    have answer : (right.updateYield handle change).1 = (left.updateYield handle change).1 := by
      simp only [Table.updateYield, ← isSome_held?, twins.held?]
    exact ⟨congrArg Reply.updated answer, twins.updateYield handle change⟩

/-- Runs of the same commands on twins give the same replies and end in twins. -/
theorem run (twins : Twins left right) (commands : List (Allocator × Command K Y)) :
    (right.run commands).answer = (left.run commands).answer ∧
      Twins (left.run commands).state (right.run commands).state := by
  induction commands generalizing left right with
  | nil => exact ⟨rfl, twins⟩
  | cons step rest ih =>
    obtain ⟨allows, command⟩ := step
    obtain ⟨reply, performed⟩ := twins.perform allows command
    obtain ⟨replies, reached⟩ := ih performed
    exact ⟨congrArg₂ List.cons reply replies, reached⟩

end Twins

/-- Tables made with the same options under two strategies are twins. -/
theorem twins_of_make [Storable Y] {allows : Allocator} {first second : Strategy}
    {options : TableOptions} (madeLeft : (make allows first options).1 = .ok left)
    (madeRight : (make allows second options).1 = .ok right) : Twins left right := by
  have wellFormedLeft := wellFormed_of_make madeLeft
  have wellFormedRight := wellFormed_of_make madeRight
  rw [eq_ofSize_of_make madeLeft] at wellFormedLeft ⊢
  rw [eq_ofSize_of_make madeRight] at wellFormedRight ⊢
  refine ⟨wellFormedLeft, wellFormedRight, ?_, rfl, ?_, rfl, rfl, rfl, ?_⟩
  · funext handle
    simp [held?, ofSize]
  · simp [bucketCount, ofSize]
  · funext key
    rw [keyed, keyed, (threads_ofSize first options _).chain_eq,
      (threads_ofSize second options _).chain_eq]
    rfl

variable [Storable Y] [LawfulStorable K]

/-- No answer but the order of a walk depends on the hash function. The same commands on tables made
with the same options under two strategies give the same replies; then sizes, bucket counts and the
contents of all handles agree, the same searches succeed, and a search or a walk with a key starts at
the same item. -/
theorem answers_of_strategies {allows : Allocator} {first : Strategy} {options : TableOptions}
    (made : (make allows first options).1 = .ok left) (second : Strategy)
    (commands : List (Allocator × Command K Y)) :
    ∃ right : Table K Y, (make allows second options).1 = .ok right ∧
      (right.run commands).answer = (left.run commands).answer ∧
      let one := (left.run commands).state
      let other := (right.run commands).state
      one.strategy = first ∧ other.strategy = second ∧
      other.size = one.size ∧
      other.bucketCount = one.bucketCount ∧
      (∀ key yield, other.contains key yield = one.contains key yield) ∧
      (∀ handle, other.held? handle = one.held? handle) ∧
      (∀ handle, other.get? handle = one.get? handle) ∧
      (∀ handle, other.key? handle = one.key? handle) ∧
      (∀ handle, other.yield? handle = one.yield? handle) ∧
      other.walkLength none = one.walkLength none ∧
      (∀ key yield, other.lookup (some key) yield = one.lookup (some key) yield) ∧
      (∀ key, other.next none (some key) = one.next none (some key)) ∧
      ∀ yield, (other.lookup none yield).isSome = (one.lookup none yield).isSome := by
  have madeRight := make_of_make made second
  obtain ⟨replies, twins⟩ := (twins_of_make made madeRight).run commands
  refine ⟨_, madeRight, replies, ?_, (sameChoices_run commands _).strategy, twins.size,
    twins.bucketCount, twins.contains, congrFun twins.held?, ?_, ?_, ?_, ?_, twins.lookup_some,
    ?_, twins.isSome_lookup none⟩
  · rw [(sameChoices_run commands left).strategy, eq_ofSize_of_make made]
    rfl
  · intro handle
    rw [get?_eq_map_held?, get?_eq_map_held?, twins.held?]
  · intro handle
    rw [key?_eq_map_held?, key?_eq_map_held?, twins.held?]
  · intro handle
    rw [yield?, yield?, get?_eq_map_held?, get?_eq_map_held?, twins.held?]
  · rw [twins.wellFormedRight.walkLength_none, twins.wellFormedLeft.walkLength_none, twins.size]
  · intro key
    rw [next, next, first_some, first_some, twins.keyed]

set_option maxRecDepth 1024 in
/-- A constant hash puts three items into one chain and a sum of bytes puts them into two. The replies
agree, and so does the start of a search by key, also after a rebuild. -/
theorem answers_of_strategies_constant :
    let sum : Strategy := fun bytes => bytes.foldl (fun total byte => total + byte.toUInt32) 0
    let commands : List (Allocator × Command UnsignedInt UnsignedInt) :=
      [(fun _ => true, .insert ⟨2⟩ ⟨10⟩), (fun _ => true, .insertOwned ⟨1⟩ ⟨20⟩),
        (fun _ => true, .insert ⟨2⟩ ⟨30⟩), (fun _ => false, .rebuild 64),
        (fun _ => true, .rebuild 20), (fun _ => true, .insert ⟨2⟩ ⟨30⟩)]
    let left : Table UnsignedInt UnsignedInt := ofSize (fun _ => 7) .standard 16
    (make (fun _ => true) (fun _ => 7) .standard).1 = .ok left ∧
      ∃ right : Table UnsignedInt UnsignedInt, (make (fun _ => true) sum .standard).1 = .ok right ∧
        (right.run commands).answer = [.inserted (.ok ⟨0⟩), .inserted (.ok ⟨1⟩),
          .inserted (.ok ⟨2⟩), .rebuilt (.error (.allocationFailure 64)), .rebuilt (.ok ()),
          .inserted (.error .duplicateEntry)] ∧
        (right.run commands).state.lookup (some ⟨2⟩) none = some ⟨0⟩ ∧
        (left.run commands).state.lookup (some ⟨2⟩) none = some ⟨0⟩ := by
  intro sum commands left
  have made : (make (fun _ => true) (fun _ => 7) .standard).1 = .ok left := rfl
  have answered : (left.run commands).answer = [.inserted (.ok ⟨0⟩), .inserted (.ok ⟨1⟩),
      .inserted (.ok ⟨2⟩), .rebuilt (.error (.allocationFailure 64)), .rebuilt (.ok ()),
      .inserted (.error .duplicateEntry)] := by
    cbv
  have found : (left.run commands).state.lookup (some ⟨2⟩) none = some ⟨0⟩ := by cbv
  obtain ⟨right, madeRight, replies, holds⟩ := answers_of_strategies made sum commands
  have searches := holds.2.2.2.2.2.2.2.2.2.2.1
  exact ⟨made, right, madeRight, replies.trans answered, (searches ⟨2⟩ none).trans found, found⟩

end ChainedMultimap.Table
