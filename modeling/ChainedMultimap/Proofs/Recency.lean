import ChainedMultimap.Proofs.Failure
import ChainedMultimap.Proofs.Lifetime
import Mathlib

/-!
# Which of two items stands first

Linking puts an item in front of its chain, so as long as the buckets stay the items of a chain
stand in the reverse of the order in which they were inserted. A doubling of the buckets parts every
chain in two and turns both parts around. Of two items on one chain the more recent one therefore
stands first exactly if the buckets have been doubled an even number of times since it was inserted.
-/

namespace ChainedMultimap

/-! ## Turning lists around -/

/-- Filtering a list that was turned around some times is filtering before turning. -/
theorem filter_reverse_iterate {α : Type} (test : α → Bool) (turns : Nat) (list : List α) :
    (List.reverse^[turns] list).filter test = List.reverse^[turns] (list.filter test) := by
  have commute : Function.Commute (List.filter test) List.reverse := fun list =>
    List.filter_reverse
  exact commute.iterate_right turns list

/-- Turned around as often as the whole, a part is still a part of it. -/
theorem sublist_reverse_iterate {α : Type} {part whole : List α} (within : part.Sublist whole)
    (turns : Nat) : (List.reverse^[turns] part).Sublist (List.reverse^[turns] whole) := by
  induction turns with
  | zero => exact within
  | succ turns ih =>
    rw [Function.iterate_succ_apply', Function.iterate_succ_apply']
    exact ih.reverse

/-- Turning a list around any number of times keeps its members. -/
theorem mem_reverse_iterate {α : Type} {list : List α} {member : α} (turns : Nat) :
    member ∈ List.reverse^[turns] list ↔ member ∈ list := by
  rcases Nat.even_or_odd turns with even | odd
  · rw [List.reverse_involutive.iterate_even even, id]
  · rw [List.reverse_involutive.iterate_odd odd, List.mem_reverse]

/-- Two members of a list stand in one order or the other. -/
theorem pair_sublist_or {α : Type} {list : List α} {left right : α} (different : left ≠ right)
    (first : left ∈ list) (second : right ∈ list) :
    [left, right].Sublist list ∨ [right, left].Sublist list := by
  obtain ⟨before, behind, rfl⟩ := List.append_of_mem first
  rcases List.mem_append.mp second with earlier | later
  · right
    exact (List.singleton_sublist.mpr earlier).append (List.singleton_sublist.mpr List.mem_cons_self)
  · left
    have behind : right ∈ behind := (List.mem_cons.mp later).resolve_left different.symm
    exact ((List.singleton_sublist.mpr behind).cons_cons left).trans
      (List.sublist_append_right before _)

/-- Two members of a list without repetitions do not stand in both orders. -/
theorem not_pair_sublist_of_nodup {α : Type} {list : List α} {left right : α} (distinct : list.Nodup)
    (order : [left, right].Sublist list) : ¬[right, left].Sublist list := by
  intro other
  induction list with
  | nil => cases order
  | cons head rest ih =>
    obtain ⟨absent, distinct⟩ := List.nodup_cons.mp distinct
    cases order with
    | cons _ inside =>
      cases other with
      | cons _ inside' => exact ih distinct inside inside'
      | cons_cons _ inside' => exact absent (inside.subset (by simp))
    | cons_cons _ inside =>
      cases other with
      | cons _ inside' => exact absent (inside'.subset (by simp))
      | cons_cons _ inside' => exact absent (inside'.subset (by simp))

/-- On a part of a list that was turned around some times, two members stand in their former order
exactly if the number of turns is even. -/
theorem pair_sublist_iff_even {α : Type} {part whole : List α} {left right : α} {turns : Nat}
    (distinct : whole.Nodup) (order : [left, right].Sublist whole)
    (within : part.Sublist (List.reverse^[turns] whole)) (first : left ∈ part)
    (second : right ∈ part) : [left, right].Sublist part ↔ Even turns := by
  have different : left ≠ right := by
    rintro rfl
    exact List.nodup_iff_sublist.mp distinct left order
  rcases Nat.even_or_odd turns with even | odd
  · rw [List.reverse_involutive.iterate_even even] at within
    refine iff_of_true ?_ even
    rcases pair_sublist_or different first second with kept | turned
    · exact kept
    · exact absurd (turned.trans within) (not_pair_sublist_of_nodup distinct order)
  · rw [List.reverse_involutive.iterate_odd odd] at within
    refine iff_of_false (fun kept => ?_) (Nat.not_even_iff_odd.mpr odd)
    have turned : [right, left].Sublist whole := by simpa using (kept.trans within).reverse
    exact not_pair_sublist_of_nodup distinct order turned

namespace Table

variable {K Y : Type} {table : Table K Y}

/-- Whether a handle has been given out. -/
def hasIssued (table : Table K Y) (handle : Handle) : Bool :=
  handle.index < table.items.fresh.index

/-- The items that a table had before some doublings of its buckets, as far as they are left, stand
on parts of the chains that were turned around with every doubling. -/
structure Turned (before after : Table K Y) (doublings : Nat) : Prop where
  /-- The buckets have been doubled that many times. -/
  bucketCount : after.bucketCount = 2 ^ doublings * before.bucketCount
  /-- No handle is given out anew. -/
  fresh : before.items.fresh.index ≤ after.items.fresh.index
  /-- The earlier items of a chain come from one former chain. -/
  chain : ∀ bucket, ((after.chain bucket).filter before.hasIssued).Sublist
    (List.reverse^[doublings] (before.chain (bucket % before.bucketCount)))

/-- Turns add up. -/
theorem Turned.trans {before between after : Table K Y} {first second : Nat}
    (one : Turned before between first) (other : Turned between after second) :
    Turned before after (first + second) where
  bucketCount := by rw [other.bucketCount, one.bucketCount, Nat.pow_add]; ring
  fresh := one.fresh.trans other.fresh
  chain bucket := by
    have earlier : (after.chain bucket).filter before.hasIssued =
        ((after.chain bucket).filter between.hasIssued).filter before.hasIssued := by
      rw [List.filter_filter]
      apply List.filter_congr
      intro handle _
      have grows := one.fresh
      by_cases issued : handle.index < before.items.fresh.index
      · simp [hasIssued, issued, Nat.lt_of_lt_of_le issued grows]
      · simp [hasIssued, issued]
    have residue : bucket % between.bucketCount % before.bucketCount =
        bucket % before.bucketCount := by
      rw [one.bucketCount]
      exact Nat.mod_mod_of_dvd bucket (Nat.dvd_mul_left _ _)
    have outer := (other.chain bucket).filter before.hasIssued
    have inner := sublist_reverse_iterate (one.chain (bucket % between.bucketCount)) second
    rw [filter_reverse_iterate] at outer
    rw [residue, ← Function.iterate_add_apply, Nat.add_comm] at inner
    rw [earlier]
    exact outer.trans inner

variable [Storable K]

/-- Only buckets of the bucket array have chains. -/
theorem WellFormed.chain_of_le (wellFormed : table.WellFormed) {bucket : Nat}
    (outside : table.bucketCount ≤ bucket) : table.chain bucket = [] := by
  rw [List.eq_nil_iff_forall_not_mem]
  exact fun handle member => absurd (wellFormed.threads.lt_of_mem member) (Nat.not_lt_of_ge outside)

/-- Without a doubling the earlier items of a chain stand as they did. -/
theorem WellFormed.turned_of_sublist {before after : Table K Y} (wellFormed : after.WellFormed)
    (bucketCount : after.bucketCount = before.bucketCount)
    (fresh : before.items.fresh.index ≤ after.items.fresh.index)
    (within : ∀ bucket,
      ((after.chain bucket).filter before.hasIssued).Sublist (before.chain bucket)) :
    Turned before after 0 where
  bucketCount := by rw [bucketCount, Nat.pow_zero, Nat.one_mul]
  fresh := fresh
  chain bucket := by
    rcases Nat.lt_or_ge bucket before.bucketCount with inside | outside
    · rw [Nat.mod_eq_of_lt inside]
      exact within bucket
    · rw [wellFormed.chain_of_le (bucketCount ▸ outside)]
      exact List.nil_sublist _

/-! ## What operations do to the order of items -/

namespace WellFormed

/-- Without a doubling every table stands as it stood. -/
theorem turned_refl (wellFormed : table.WellFormed) : Turned table table 0 :=
  wellFormed.turned_of_sublist rfl (Nat.le_refl _) fun _ => List.filter_sublist

/-- A doubling parts every chain in two and turns both parts around. -/
theorem turned_doubled (wellFormed : table.WellFormed) (below : table.bucketCount < maxBuckets) :
    Turned table table.doubled 1 := by
  have twice := bucketCount_doubled wellFormed below
  have kept := sameContents_doubled table
  have residue : ∀ key, table.doubled.home key % table.bucketCount = table.home key := by
    intro key
    rw [wellFormed.doubled.home_eq_mod, wellFormed.home_eq_mod, twice, kept.strategy]
    exact Nat.mod_mod_of_dvd _ (Nat.dvd_mul_left _ _)
  refine ⟨by rw [twice, Nat.pow_one], Nat.le_of_eq (congrArg Handle.index kept.fresh.symm),
    fun bucket => List.filter_sublist.trans ?_⟩
  have positive := (isBucketCount_bucketCountFor (2 * table.bucketCount)).pos
  rw [Function.iterate_one, Table.doubled, wellFormed.chain_rethread positive,
    ← wellFormed.filter_home_handles]
  apply List.Sublist.reverse
  apply List.monotone_filter_right
  intro handle here
  obtain ⟨key, known, home⟩ := Option.map_eq_some_iff.mp (of_decide_eq_true here)
  have former : table.home key = bucket % table.bucketCount := by
    rw [← home]
    exact (residue key).symm
  exact decide_eq_true (by rw [known, Option.map_some, former])

/-- A growth turns the earlier items around with every doubling, whether it succeeds or not. -/
theorem turned_grow (wellFormed : table.WellFormed) (allows : Allocator) :
    ∃ doublings, Turned table (table.grow allows).state doublings := by
  let reached (between : Table K Y) : Prop :=
    between.WellFormed ∧ ∃ doublings, Turned table between doublings
  have kept : ∀ between, between.bucketCount < maxBuckets → reached between →
      reached between.doubled := by
    rintro between below ⟨sound, doublings, turned⟩
    exact ⟨sound.doubled, doublings + 1, turned.trans (sound.turned_doubled below)⟩
  exact (grow_kept allows kept ⟨wellFormed, 0, wellFormed.turned_refl⟩).2

/-- A link leaves the earlier items as they stand. -/
theorem turned_link (wellFormed : table.WellFormed) (key : Held K) (yield : Held Y) :
    Turned table (table.link key yield) 0 := by
  have next := fresh_link table key yield
  refine (wellFormed.link key yield).turned_of_sublist (sameBuckets_link table key yield).bucketCount
    (by rw [next]; exact Nat.le_succ _) fun bucket => ?_
  rw [wellFormed.chain_link]
  split
  · rw [List.filter_cons_of_neg (by simp [hasIssued])]
    exact List.filter_sublist
  · exact List.filter_sublist

/-- Discarding items leaves the others as they stand. -/
theorem turned_foldl_discard (wellFormed : table.WellFormed) {order : List Handle}
    (distinct : order.Nodup) (members : ∀ handle ∈ order, handle ∈ table.handles) :
    Turned table (order.foldl Table.discard table) 0 := by
  have fresh := fresh_foldl_discard order table
  refine (wellFormed.foldl_discard distinct members).turned_of_sublist
    (sameBuckets_foldl_discard order table).bucketCount
    (Nat.le_of_eq (congrArg Handle.index fresh.symm)) fun bucket => ?_
  rw [wellFormed.chain_foldl_discard distinct members]
  exact List.filter_sublist.trans List.filter_sublist

variable [Storable Y]

/-- A removal turns no chain around. -/
theorem turned_remove (wellFormed : table.WellFormed) (key : Option K) (yield : Option Y) :
    Turned table (table.remove key yield).2 0 :=
  wellFormed.turned_foldl_discard (wellFormed.nodup_matching key yield) fun _ found =>
    wellFormed.mem_handles_of_mem_matching found

/-- An insert turns the chains around with every doubling that it grows by. -/
theorem turned_insertHeld (wellFormed : table.WellFormed) (allows : Allocator) (key : Held K)
    (yield : Held Y) :
    ∃ doublings, Turned table (table.insertHeld allows key yield).state doublings := by
  obtain ⟨doublings, turned⟩ := wellFormed.turned_grow allows
  obtain ⟨_, outcome⟩ | ⟨_, failure, _, outcome⟩ | ⟨_, _, outcome⟩ :=
    table.insertHeld_cases allows key yield
  · rw [outcome]
    exact ⟨0, wellFormed.turned_refl⟩
  · rw [outcome]
    exact ⟨doublings, turned⟩
  · rw [outcome]
    exact ⟨doublings, turned.trans ((wellFormed.grow allows).turned_link key yield)⟩

/-- A command other than a rebuild turns the earlier items around with every doubling. -/
theorem turned_perform (wellFormed : table.WellFormed) (allows : Allocator) {command : Command K Y}
    (kept : ∀ request, command ≠ .rebuild request) :
    ∃ doublings, Turned table (table.perform allows command).state doublings := by
  cases command with
  | insert key yield => exact wellFormed.turned_insertHeld allows _ _
  | insertOwned key yield => exact wellFormed.turned_insertHeld allows _ _
  | remove key yield => exact ⟨0, wellFormed.turned_remove key yield⟩
  | removeItem handle =>
    obtain ⟨order, distinct, members, discarded⟩ := wellFormed.exists_discard_eq handle
    change ∃ doublings, Turned table (table.discard handle) doublings
    rw [discarded]
    exact ⟨0, wellFormed.turned_foldl_discard distinct members⟩
  | reset => exact ⟨0, wellFormed.turned_remove none none⟩
  | rebuild request => exact absurd rfl (kept request)
  | updateYield handle change =>
    have fresh := Arena.fresh_modify table.items handle fun item =>
      { item with yield := item.yield.update change }
    refine ⟨0, (wellFormed.updateYield handle change).turned_of_sublist rfl
      (Nat.le_of_eq (congrArg Handle.index fresh.symm)) fun bucket => ?_⟩
    rw [wellFormed.chain_updateYield]
    exact List.filter_sublist

/-- A run without rebuilds turns the earlier items around with every doubling. -/
theorem turned_run (wellFormed : table.WellFormed) {commands : List (Allocator × Command K Y)}
    (kept : ∀ step ∈ commands, ∀ request, step.2 ≠ .rebuild request) :
    ∃ doublings, Turned table (table.run commands).state doublings := by
  induction commands generalizing table with
  | nil => exact ⟨0, wellFormed.turned_refl⟩
  | cons step rest ih =>
    obtain ⟨allows, command⟩ := step
    rw [List.forall_mem_cons] at kept
    obtain ⟨first, turned⟩ := wellFormed.turned_perform allows kept.1
    obtain ⟨second, later⟩ := ih (wellFormed.perform allows command) kept.2
    exact ⟨first + second, turned.trans later⟩

end WellFormed

/-! ## The most recent item first -/

/-- On every chain the items stand in the reverse of the order in which they were inserted. -/
def MostRecentFirst (table : Table K Y) : Prop :=
  ∀ bucket, (table.chain bucket).Pairwise fun front behind => behind.index < front.index

/-- The most recent item comes first exactly if on every chain a younger handle stands before an
older one. -/
theorem WellFormed.mostRecentFirst_iff (wellFormed : table.WellFormed) :
    table.MostRecentFirst ↔ ∀ bucket newer older, older.index < newer.index →
      newer ∈ table.chain bucket → older ∈ table.chain bucket →
        [newer, older].Sublist (table.chain bucket) := by
  constructor
  · intro recent bucket newer older earlier first second
    have different : newer ≠ older := by
      rintro rfl
      exact Nat.lt_irrefl _ earlier
    rcases pair_sublist_or different first second with order | order
    · exact order
    · have later := List.pairwise_iff_forall_sublist.mp (recent bucket) order
      exact absurd later (Nat.not_lt_of_gt earlier)
  · intro pairs bucket
    refine List.pairwise_iff_forall_sublist.mpr fun {front behind} order => ?_
    have distinct := wellFormed.threads.distinct bucket
    by_contra earlier
    have different : front.index ≠ behind.index := by
      intro same
      obtain rfl : front = behind := congrArg Handle.mk same
      exact List.nodup_iff_sublist.mp distinct front order
    have turned := pairs bucket behind front (by omega) (order.subset (by simp))
      (order.subset (by simp))
    exact not_pair_sublist_of_nodup distinct order turned

/-! ## Since an insertion -/

/-- What an insertion leaves: the new item has the last handle given out and stands in front of its
chain. -/
structure JustInserted (born : Table K Y) (handle : Handle) : Prop where
  /-- The links of the table are in order. -/
  wellFormed : born.WellFormed
  /-- No handle has been given out since. -/
  fresh : born.items.fresh.index = handle.index + 1
  /-- Nothing stands before the item. -/
  front : ∃ bucket rest, born.chain bucket = handle :: rest

/-- Since the insertion of an item, those before it have stood behind it exactly if the doublings of
the buckets are even in number. -/
theorem JustInserted.newer_first_iff {born after : Table K Y} {newer older : Handle}
    {bucket doublings : Nat} (inserted : born.JustInserted newer) (turned : Turned born after doublings)
    (earlier : older.index < newer.index) (first : newer ∈ after.chain bucket)
    (second : older ∈ after.chain bucket) :
    [newer, older].Sublist (after.chain bucket) ↔ Even doublings := by
  have last := inserted.fresh
  have issuedNewer : born.hasIssued newer := decide_eq_true (by omega)
  have issuedOlder : born.hasIssued older := decide_eq_true (by omega)
  have within := turned.chain bucket
  have newerThere := List.mem_filter.mpr ⟨first, issuedNewer⟩
  have olderThere := List.mem_filter.mpr ⟨second, issuedOlder⟩
  have former : ∀ handle ∈ (after.chain bucket).filter born.hasIssued,
      handle ∈ born.chain (bucket % born.bucketCount) := by
    intro handle member
    exact (mem_reverse_iterate doublings).mp (within.subset member)
  have order : [newer, older].Sublist (born.chain (bucket % born.bucketCount)) := by
    obtain ⟨place, rest, front⟩ := inserted.front
    have here : newer ∈ born.chain place := by simp [front]
    have behind := former older olderThere
    rw [inserted.wellFormed.threads.eq_of_mem (former newer newerThere) here, front] at behind ⊢
    have different : older ≠ newer := by
      rintro rfl
      exact Nat.lt_irrefl _ earlier
    have behind := (List.mem_cons.mp behind).resolve_left different
    exact (List.singleton_sublist.mpr behind).cons_cons newer
  have distinct := inserted.wellFormed.threads.distinct (bucket % born.bucketCount)
  rw [← pair_sublist_iff_even distinct order within newerThere olderThere]
  constructor
  · intro stands
    have kept := stands.filter born.hasIssued
    rwa [List.filter_cons_of_pos issuedNewer, List.filter_cons_of_pos issuedOlder,
      List.filter_nil] at kept
  · intro stands
    exact stands.trans List.filter_sublist

variable [Storable Y]

/-- The table that the insertion of an item leaves, in a run of commands. -/
def afterInserting? (table : Table K Y) (handle : Handle) :
    List (Allocator × Command K Y) → Option (Table K Y)
  | [] => none
  | (allows, command) :: rest =>
    let done := table.perform allows command
    if done.answer.issued? = some handle then some done.state
    else done.state.afterInserting? handle rest

namespace WellFormed

/-- A command that answers a handle leaves its item in front of its chain. -/
theorem justInserted_perform (wellFormed : table.WellFormed) {allows : Allocator}
    {command : Command K Y} {handle : Handle}
    (issued : (table.perform allows command).answer.issued? = some handle) :
    (table.perform allows command).state.JustInserted handle := by
  have sound := wellFormed.perform allows command
  obtain ⟨key, yield, asked, answer, next, _⟩ | ⟨answer, _⟩ := table.perform_issues allows command
  · obtain rfl : table.items.fresh = handle := by simpa [answer] using issued
    refine ⟨sound, next, ?_⟩
    obtain ⟨heldKey, heldYield, _, _, performed⟩ := perform_of_pair? asked table allows
    rw [performed] at answer ⊢
    obtain ⟨_, outcome⟩ | ⟨_, failure, _, outcome⟩ | ⟨_, _, outcome⟩ :=
      table.insertHeld_cases allows heldKey heldYield
    · rw [outcome] at answer
      cases answer
    · rw [outcome] at answer
      cases answer
    · have grown := wellFormed.grow allows
      have front := grown.chain_link heldKey heldYield ((table.grow allows).state.home heldKey.value)
      rw [if_pos rfl, (sameContents_grow table allows).fresh] at front
      rw [outcome]
      exact ⟨_, _, front⟩
  · rw [answer] at issued
    cases issued

/-- An item that a run inserts and leaves has been turned around with every doubling since. -/
theorem exists_afterInserting? (wellFormed : table.WellFormed)
    {commands : List (Allocator × Command K Y)}
    (kept : ∀ step ∈ commands, ∀ request, step.2 ≠ .rebuild request) {handle : Handle}
    (new : table.items.fresh.index ≤ handle.index)
    (left : handle ∈ (table.run commands).state.handles) :
    ∃ born, table.afterInserting? handle commands = some born ∧ born.JustInserted handle ∧
      (∃ doublings, Turned table born doublings) ∧
      ∃ doublings, Turned born (table.run commands).state doublings := by
  induction commands generalizing table with
  | nil =>
    have found := wellFormed.mem_handles.mp left
    rw [Arena.get?_of_fresh_le new] at found
    cases found
  | cons step rest ih =>
    obtain ⟨allows, command⟩ := step
    rw [List.forall_mem_cons] at kept
    have sound := wellFormed.perform allows command
    obtain ⟨first, step⟩ := wellFormed.turned_perform allows kept.1
    rw [afterInserting?]
    by_cases issued : (table.perform allows command).answer.issued? = some handle
    · exact ⟨_, if_pos issued, wellFormed.justInserted_perform issued, ⟨first, step⟩,
        sound.turned_run kept.2⟩
    · have later : (table.perform allows command).state.items.fresh.index ≤ handle.index := by
        obtain ⟨_, _, _, answer, next, _⟩ | ⟨_, same, _⟩ := table.perform_issues allows command
        · have away : table.items.fresh.index ≠ handle.index := by
            intro same
            exact issued (answer.trans (congrArg (some ∘ Handle.mk) same))
          omega
        · rwa [same]
      obtain ⟨born, found, inserted, ⟨second, former⟩, turned⟩ := ih sound kept.2 later left
      exact ⟨born, (if_neg issued).trans found, inserted, ⟨first + second, step.trans former⟩,
        turned⟩

end WellFormed

/-! ## Whole runs -/

/-- Where the most recent item stands first, a search by key answers the most recent item with the
key. -/
theorem MostRecentFirst.lookup_eq_some_iff [LawfulStorable K] (recent : table.MostRecentFirst)
    (wellFormed : table.WellFormed) {key : K} {handle : Handle} :
    table.lookup (some key) none = some handle ↔ table.hasKey key handle ∧
      ∀ other, table.hasKey key other → other.index ≤ handle.index := by
  have members : ∀ other, table.hasKey key other ↔ other ∈ table.matching (some key) none := by
    intro other
    rw [wellFormed.mem_matching_iff, admits_some, Bool.and_eq_true, iff_and_self]
    intro keyed
    obtain ⟨stored, known, _⟩ := hasKey_iff.mp keyed
    have member := wellFormed.placed known
    obtain ⟨item, found⟩ := Option.isSome_iff_exists.mp (wellFormed.threads.found member)
    simp [admits, found, Item.admittedBy, Storable.admits]
  have sorted : (table.matching (some key) none).Pairwise fun front behind =>
      behind.index < front.index := by
    rw [matching, scope, List.flatMap_singleton]
    exact (recent _).filter _
  simp only [members, lookup_eq_head?]
  cases found : table.matching (some key) none with
  | nil => simp
  | cons first rest =>
    rw [found, List.pairwise_cons] at sorted
    rw [List.head?_cons, Option.some_inj]
    constructor
    · rintro rfl
      refine ⟨List.mem_cons_self, fun other member => ?_⟩
      rcases List.mem_cons.mp member with rfl | behind
      · exact Nat.le_refl _
      · exact Nat.le_of_lt (sorted.1 other behind)
    · rintro ⟨member, latest⟩
      rcases List.mem_cons.mp member with same | behind
      · exact same.symm
      · exact absurd (sorted.1 handle behind) (Nat.not_lt_of_ge (latest first List.mem_cons_self))

variable [LawfulStorable K]

/-- Which of two items of a chain stands first after a run without explicit rebuilds. Since the more
recent one was inserted, the bucket count has been multiplied by a power of two. The more recent one
stands first exactly if the exponent of that power is even: every growth turns the chains around.

So only as long as the buckets are as many as in the beginning is it certain that every chain has
the most recent item first. Where that is so, a search by key answers the most recent item with the
key. -/
theorem newer_first_iff_of_run {allows : Allocator} {strategy : Strategy} {options : TableOptions}
    (made : (make allows strategy options).1 = .ok table) {commands : List (Allocator × Command K Y)}
    (kept : ∀ step ∈ commands, ∀ request, step.2 ≠ .rebuild request) :
    let reached := (table.run commands).state
    (∀ bucket newer older, older.index < newer.index → newer ∈ reached.chain bucket →
      older ∈ reached.chain bucket →
        ∃ born doublings, table.afterInserting? newer commands = some born ∧
          reached.bucketCount = 2 ^ doublings * born.bucketCount ∧
          ([newer, older].Sublist (reached.chain bucket) ↔ Even doublings)) ∧
      (reached.bucketCount = table.bucketCount → reached.MostRecentFirst) ∧
      (reached.MostRecentFirst → ∀ key handle, reached.lookup (some key) none = some handle ↔
        reached.hasKey key handle ∧
          ∀ other, reached.hasKey key other → other.index ≤ handle.index) := by
  intro reached
  have start := wellFormed_of_make made
  have wellFormed : reached.WellFormed := start.run commands
  have first : table.items.fresh.index = 0 := by
    rw [eq_ofSize_of_make made]
    rfl
  have history : ∀ bucket newer, newer ∈ reached.chain bucket →
      ∃ born, table.afterInserting? newer commands = some born ∧ born.JustInserted newer ∧
        (∃ doublings, Turned table born doublings) ∧ ∃ doublings, Turned born reached doublings := by
    intro bucket newer member
    exact start.exists_afterInserting? kept (by rw [first]; exact Nat.zero_le _)
      (wellFormed.mem_handles.mpr (wellFormed.threads.found member))
  refine ⟨fun bucket newer older earlier here there => ?_, fun unchanged => ?_,
    fun recent key handle => recent.lookup_eq_some_iff wellFormed⟩
  · obtain ⟨born, known, inserted, -, doublings, turned⟩ := history bucket newer here
    exact ⟨born, doublings, known, turned.bucketCount,
      inserted.newer_first_iff turned earlier here there⟩
  · rw [wellFormed.mostRecentFirst_iff]
    intro bucket newer older earlier here there
    obtain ⟨born, -, inserted, ⟨former, before⟩, doublings, turned⟩ := history bucket newer here
    rw [inserted.newer_first_iff turned earlier here there]
    -- Had there been a doubling since, the buckets would be more than in the beginning.
    have both := before.trans turned
    have whole : 2 ^ (former + doublings) * table.bucketCount = 1 * table.bucketCount := by
      rw [← both.bucketCount, unchanged, Nat.one_mul]
    have positive : 0 < table.bucketCount := start.admissible.pos
    have none := Nat.pow_eq_one.mp (Nat.eq_of_mul_eq_mul_right positive whole)
    have still : doublings = 0 := by omega
    rw [still]
    exact Even.zero

/-- Two items crowd sixteen buckets, so a third item of the key comes after a doubling: the first
two, which stood with the more recent one in front, are turned around behind it. -/
theorem newer_first_iff_of_run_doubled :
    let options : TableOptions := ⟨16, ⟨0x3e000000⟩, true, true⟩
    let plentiful : Allocator := fun _ => true
    let two : List (Allocator × Command UnsignedInt UnsignedInt) :=
      [(plentiful, .insert ⟨1⟩ ⟨10⟩), (plentiful, .insertOwned ⟨1⟩ ⟨20⟩)]
    let three := two ++ [(plentiful, .insert ⟨1⟩ ⟨30⟩)]
    let start : Table UnsignedInt UnsignedInt := ofSize (fun _ => 7) options 16
    (make plentiful (fun _ => 7) options).1 = .ok start ∧
      (start.run two).state.MostRecentFirst ∧
      (start.run two).state.lookup (some ⟨1⟩) none = some ⟨1⟩ ∧
      (start.run three).state.chain 7 = [⟨2⟩, ⟨0⟩, ⟨1⟩] ∧
      ∃ born doublings, start.afterInserting? ⟨1⟩ three = some born ∧
        (start.run three).state.bucketCount = 2 ^ doublings * born.bucketCount ∧ ¬Even doublings := by
  intro options plentiful two three start
  have made : (make plentiful (fun _ => 7) options).1 = .ok start := by cbv
  have keptTwo : ∀ step ∈ two, ∀ request, step.2 ≠ .rebuild request := by simp [two]
  have keptThree : ∀ step ∈ three, ∀ request, step.2 ≠ .rebuild request := by simp [three, two]
  have unchanged : (start.run two).state.bucketCount = start.bucketCount := by cbv
  have found : (start.run two).state.lookup (some ⟨1⟩) none = some ⟨1⟩ := by cbv
  have chain : (start.run three).state.chain 7 = [⟨2⟩, ⟨0⟩, ⟨1⟩] := by cbv
  obtain ⟨-, recent, -⟩ := newer_first_iff_of_run made keptTwo
  obtain ⟨order, -, -⟩ := newer_first_iff_of_run made keptThree
  obtain ⟨born, doublings, known, count, first⟩ := order 7 ⟨1⟩ ⟨0⟩ (by decide) (by simp [chain])
    (by simp [chain])
  refine ⟨made, recent unchanged, found, chain, born, doublings, known, count, fun even => ?_⟩
  have stands := first.mpr even
  rw [chain] at stands
  exact absurd stands (by decide)

/-- Eight items of one key and then an item of another, with the standard options: the ninth
insertion doubles the buckets, and a search for the key that answered its most recent item answers
its oldest one from then on. -/
theorem not_mostRecentFirst_of_grown :
    let plentiful : Allocator := fun _ => true
    let eight : List (Allocator × Command UnsignedInt UnsignedInt) :=
      [1, 2, 3, 4, 5, 6, 7, 8].map fun yield => (plentiful, .insertOwned ⟨1⟩ ⟨yield⟩)
    let nine := eight ++ [(plentiful, .insertOwned ⟨2⟩ ⟨9⟩)]
    let start : Table UnsignedInt UnsignedInt := ofSize Lcg.hash .standard 16
    let reached := (start.run nine).state
    (make plentiful Lcg.hash .standard).1 = .ok start ∧
      (∀ step ∈ nine, ∃ key yield, step.2 = .insertOwned key yield) ∧
      (start.run eight).state.lookup (some ⟨1⟩) none = some ⟨7⟩ ∧
      reached.hasKey ⟨1⟩ ⟨7⟩ ∧ reached.lookup (some ⟨1⟩) none = some ⟨0⟩ ∧
      ¬reached.MostRecentFirst := by
  intro plentiful eight nine start reached
  have made : (make plentiful Lcg.hash .standard).1 = .ok start := by cbv
  have former : (start.run eight).state.lookup (some ⟨1⟩) none = some ⟨7⟩ := by cbv
  have found : (start.run nine).state.lookup (some ⟨1⟩) none = some ⟨0⟩ := by cbv
  have stored : (start.run nine).state.hasKey ⟨1⟩ ⟨7⟩ := by cbv
  refine ⟨made, by simp [nine, eight], former, stored, found, fun recent => ?_⟩
  have wellFormed : reached.WellFormed := (wellFormed_of_make made).run nine
  have latest := ((recent.lookup_eq_some_iff wellFormed).mp found).2 ⟨7⟩ stored
  exact absurd latest (by decide)

end Table

end ChainedMultimap
