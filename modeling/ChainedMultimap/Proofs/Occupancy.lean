import ChainedMultimap.Proofs.Failure
import ChainedMultimap.Proofs.Lifetime
import ChainedMultimap.Table.Checked
import Mathlib

/-!
# How far tables grow

An accepted ratio stands for a positive rational number, and a table is crowded when its entries have
reached that number times its buckets. Growing goes to the least doubling of the bucket count that the
entries do not crowd, or to the largest bucket count if they crowd them all. Growing for some entries
and then for others comes to growing for the larger number at once. Over a run without rebuilds the
bucket count is therefore told by the largest number of entries that an insertion met.
-/

namespace ChainedMultimap

namespace Ratio

variable {ratio : Ratio} {start entries count : Nat}

/-- The number that a finite positive ratio stands for. -/
def toRat (ratio : Ratio) : ℚ := ratio.significand * 2 ^ ratio.exponent

/-- One half stands for one half. -/
example : half.toRat = 1 / 2 := by
  have significand : half.significand = 2 ^ 23 := by decide
  have exponent : half.exponent = -24 := by decide
  rw [toRat, significand, exponent]
  norm_num

/-- A ratio is not negative. -/
theorem toRat_nonneg (ratio : Ratio) : 0 ≤ ratio.toRat := by
  rw [toRat]
  positivity

/-- An accepted ratio is positive. -/
theorem toRat_pos (accepted : ratio.isAccepted) : 0 < ratio.toRat := by
  have nonzero : ratio.magnitude.toNat ≠ 0 := by
    intro zero
    have same : ratio.magnitude = 0 := UInt32.toNat_inj.mp zero
    simp [isAccepted, same] at accepted
  have exponent : ratio.exponentField = ratio.magnitude.toNat / 2 ^ 23 := by
    simp [exponentField, Nat.shiftRight_eq_div_pow]
  have fraction : ratio.fractionField = ratio.magnitude.toNat % 2 ^ 23 := by
    rw [fractionField, UInt32.toNat_and]
    exact Nat.and_two_pow_sub_one_eq_mod _ 23
  have positive : 0 < ratio.significand := by
    rw [significand]
    split <;> omega
  rw [toRat]
  positivity

/-- Entries have reached the ratio when they are at least that many for each bucket. -/
theorem isReached_iff : ratio.isReached entries count ↔ ratio.toRat * count ≤ entries := by
  have scale : (2 : ℚ) ^ ratio.exponent.toNat =
      2 ^ ratio.exponent * 2 ^ (-ratio.exponent).toNat := by
    rw [← zpow_natCast, ← zpow_natCast, ← zpow_add₀ (by norm_num)]
    congr 1
    omega
  have unit : (0 : ℚ) < 2 ^ (-ratio.exponent).toNat := by positivity
  have scaled : ((ratio.significand * count * 2 ^ ratio.exponent.toNat : Nat) : ℚ) =
      ratio.toRat * count * 2 ^ (-ratio.exponent).toNat := by
    push_cast
    rw [scale, toRat]
    ring
  rw [isReached, decide_eq_true_iff, Nat.shiftLeft_eq, Nat.shiftLeft_eq, ← Nat.cast_le (α := ℚ),
    scaled, Nat.cast_mul, Nat.cast_pow, Nat.cast_ofNat]
  exact mul_le_mul_iff_left₀ unit

/-- No entries reach an accepted ratio. -/
theorem not_isReached_zero (accepted : ratio.isAccepted) (positive : 0 < count) :
    ¬ratio.isReached 0 count := by
  rw [isReached_iff, Nat.cast_zero, not_le]
  exact mul_pos (toRat_pos accepted) (Nat.cast_pos.mpr positive)

/-- The doublings of a bucket count, up to the largest bucket count, that some entries do not crowd. -/
def roomyCounts (ratio : Ratio) (start entries : Nat) : Set Nat :=
  {count | ∃ doublings, count = start * 2 ^ doublings ∧ count ≤ maxBuckets ∧
    (entries : ℚ) < ratio.toRat * count}

/-- Growing from a bucket count for some entries comes to the least doubling that they do not crowd,
or to the largest bucket count if there is none. -/
def GrowsTo (ratio : Ratio) (start entries count : Nat) : Prop :=
  IsLeast (ratio.roomyCounts start entries) count ∨
    ratio.roomyCounts start entries = ∅ ∧ count = maxBuckets

/-- The doublings of a bucket count are at least the count. -/
theorem le_of_mem_roomyCounts (roomy : count ∈ ratio.roomyCounts start entries) : start ≤ count := by
  obtain ⟨doublings, rfl, _⟩ := roomy
  exact Nat.le_mul_of_pos_right start (Nat.two_pow_pos doublings)

/-- A bucket count that the entries do not crowd is its own least doubling. -/
theorem growsTo_of_calm (calm : ¬ratio.isReached entries start) (bound : start ≤ maxBuckets) :
    ratio.GrowsTo start entries start := by
  rw [isReached_iff, not_le] at calm
  exact .inl ⟨⟨0, by simp, bound, calm⟩, fun count => le_of_mem_roomyCounts⟩

/-- The largest bucket count stays even if the entries crowd it. -/
theorem growsTo_of_full (crowded : ratio.isReached entries maxBuckets) :
    ratio.GrowsTo maxBuckets entries maxBuckets := by
  rw [isReached_iff] at crowded
  refine .inr ⟨Set.eq_empty_of_forall_notMem fun count roomy => ?_, rfl⟩
  have least := le_of_mem_roomyCounts roomy
  obtain ⟨doublings, _, bound, room⟩ := roomy
  obtain rfl : count = maxBuckets := Nat.le_antisymm bound least
  exact absurd room (not_lt_of_ge crowded)

/-- From a crowded bucket count the search goes on from its double. -/
theorem roomyCounts_two_mul (crowded : ratio.isReached entries start) :
    ratio.roomyCounts (2 * start) entries = ratio.roomyCounts start entries := by
  rw [isReached_iff] at crowded
  ext count
  constructor
  · rintro ⟨doublings, rfl, bound, room⟩
    exact ⟨doublings + 1, by ring, bound, room⟩
  · rintro ⟨_ | doublings, rfl, bound, room⟩
    · rw [pow_zero, Nat.mul_one] at room
      exact absurd room (not_lt_of_ge crowded)
    · exact ⟨doublings, by ring, bound, room⟩

/-- A crowded count grows to what its double grows to. -/
theorem growsTo_two_mul (crowded : ratio.isReached entries start) :
    ratio.GrowsTo (2 * start) entries count ↔ ratio.GrowsTo start entries count := by
  rw [GrowsTo, GrowsTo, roomyCounts_two_mul crowded]

/-- Growing never loses buckets. -/
theorem GrowsTo.le (grows : ratio.GrowsTo start entries count) (bound : start ≤ maxBuckets) :
    start ≤ count := by
  rcases grows with least | ⟨_, rfl⟩
  · exact le_of_mem_roomyCounts least.1
  · exact bound

/-- From the least doubling with room for some entries on, the doublings with room for others are those
with room for both. -/
theorem roomyCounts_max {more : Nat} (least : IsLeast (ratio.roomyCounts start entries) count) :
    ratio.roomyCounts start (max entries more) = ratio.roomyCounts count more := by
  obtain ⟨⟨doublings, first, _, room⟩, lowest⟩ := least
  ext other
  constructor
  · rintro ⟨further, rfl, bound, both⟩
    rw [Nat.cast_max, max_lt_iff] at both
    have later : count ≤ start * 2 ^ further := lowest ⟨further, rfl, bound, both.1⟩
    rcases Nat.le_total doublings further with ordered | ordered
    · refine ⟨further - doublings, ?_, bound, both.2⟩
      rw [first, Nat.mul_assoc, ← Nat.pow_add, Nat.add_sub_cancel' ordered]
    · have earlier : start * 2 ^ further ≤ count := by
        rw [first]
        exact Nat.mul_le_mul_left start (Nat.pow_le_pow_right (by decide) ordered)
      exact ⟨0, by omega, bound, both.2⟩
  · rintro ⟨further, rfl, bound, others⟩
    refine ⟨doublings + further, by rw [first, Nat.mul_assoc, Nat.pow_add], bound, ?_⟩
    have later : count ≤ count * 2 ^ further :=
      Nat.le_mul_of_pos_right count (Nat.two_pow_pos further)
    rw [Nat.cast_max, max_lt_iff]
    refine ⟨?_, others⟩
    calc (entries : ℚ) < ratio.toRat * count := room
      _ ≤ ratio.toRat * (count * 2 ^ further : Nat) :=
        mul_le_mul_of_nonneg_left (Nat.cast_le.mpr later) ratio.toRat_nonneg

/-- Growing for some entries and then for others comes to growing for the larger number at once. -/
theorem GrowsTo.trans {more final : Nat} (first : ratio.GrowsTo start entries count)
    (second : ratio.GrowsTo count more final) : ratio.GrowsTo start (max entries more) final := by
  rcases first with least | ⟨none, rfl⟩
  · rwa [GrowsTo, roomyCounts_max least]
  · right
    constructor
    · rw [Set.eq_empty_iff_forall_notMem] at none ⊢
      rintro count ⟨doublings, same, bound, room⟩
      rw [Nat.cast_max, max_lt_iff] at room
      exact none count ⟨doublings, same, bound, room.1⟩
    · rcases second with least | ⟨_, full⟩
      · obtain ⟨_, _, bound, _⟩ := least.1
        exact Nat.le_antisymm bound (le_of_mem_roomyCounts least.1)
      · exact full

end Ratio

namespace Table

variable {K Y : Type} [Storable K] {table : Table K Y} {allows : Allocator}

/-! ## One growth -/

namespace WellFormed

/-- A growth that succeeds goes to the least doubling that the entries do not crowd. -/
theorem growsTo_grow (wellFormed : table.WellFormed) (grown : (table.grow allows).answer = .ok ()) :
    table.ratio.GrowsTo table.bucketCount table.size (table.grow allows).state.bucketCount := by
  have bound := wellFormed.admissible.le_maxBuckets
  induction table using @grow_induction K Y _ allows with
  | calm table calm =>
    rw [grow_of_calm calm]
    exact Ratio.growsTo_of_calm calm bound
  | full table crowded full =>
    have limit : table.bucketCount = maxBuckets := Nat.le_antisymm bound full
    rw [grow_of_full crowded full, limit]
    exact Ratio.growsTo_of_full (limit ▸ crowded)
  | refused table crowded below refused =>
    rw [grow_of_refused crowded below refused] at grown
    cases grown
  | reserved table crowded below reserved ih =>
    obtain ⟨answer, state⟩ := grow_of_reserved crowded below reserved
    have kept := sameContents_doubled table
    have later := ih wellFormed.doubled (answer ▸ grown) wellFormed.doubled.admissible.le_maxBuckets
    rw [kept.ratio, kept.size, bucketCount_doubled wellFormed (Nat.lt_of_not_le below)] at later
    rw [state]
    exact (Ratio.growsTo_two_mul crowded).mp later

/-- A growth never loses buckets, whether it succeeds or fails. -/
theorem bucketCount_le_grow (wellFormed : table.WellFormed) (allows : Allocator) :
    table.bucketCount ≤ (table.grow allows).state.bucketCount := by
  let more (between : Table K Y) : Prop :=
    between.WellFormed ∧ table.bucketCount ≤ between.bucketCount
  have kept : ∀ between, between.bucketCount < maxBuckets → more between → more between.doubled := by
    rintro between below ⟨admissible, enough⟩
    have twice := bucketCount_doubled admissible below
    exact ⟨admissible.doubled, by omega⟩
  exact (grow_kept allows kept ⟨wellFormed, Nat.le_refl _⟩).2

/-- Growing ends within any number of doublings that reaches the largest bucket count. -/
theorem grow?_eq (wellFormed : table.WellFormed) {count : Nat}
    (enough : maxBuckets ≤ 2 ^ count * table.bucketCount) :
    table.grow? allows count = some (table.grow allows) := by
  induction count generalizing table with
  | zero =>
    rw [pow_zero, Nat.one_mul] at enough
    by_cases crowded : table.isCrowded
    · rw [grow?, if_pos crowded, if_pos enough, grow_of_full crowded enough]
    · rw [grow?, if_neg crowded, grow_of_calm crowded]
  | succ count ih =>
    by_cases crowded : table.isCrowded
    · by_cases full : maxBuckets ≤ table.bucketCount
      · rw [grow?, if_pos crowded, if_pos full, grow_of_full crowded full]
      · rw [grow?, if_pos crowded, if_neg full]
        cases reserved : allows (bucketCountFor (2 * table.bucketCount)) with
        | false => rw [rebuild_of_refused reserved, grow_of_refused crowded full reserved]
        | true =>
          have twice := bucketCount_doubled wellFormed (Nat.lt_of_not_le full)
          have later : table.doubled.grow? allows count = some (table.doubled.grow allows) := by
            apply ih wellFormed.doubled
            rwa [twice, ← two_pow_succ_mul]
          rw [rebuild_of_reserved reserved, grow_eq_of_reserved crowded full reserved]
          change (table.doubled.grow? allows count).map _ = _
          rw [later]
          rfl
    · rw [grow?, if_neg crowded, grow_of_calm crowded]

/-- From any bucket count, 26 doublings reach the largest one. -/
theorem grow?_bounded (wellFormed : table.WellFormed) (allows : Allocator) :
    table.grow? allows 26 = some (table.grow allows) :=
  wellFormed.grow?_eq (Nat.mul_le_mul_left (2 ^ 26) wellFormed.admissible.minBuckets_le)

/-! ## Commands -/

variable [Storable Y]

/-- An insertion is refused because its pair is stored, fails because an array cannot be reserved, or
succeeds and leaves the bucket count that its growth came to. -/
theorem growsTo_insertHeld (wellFormed : table.WellFormed) (allows : Allocator) (key : Held K)
    (yield : Held Y) :
    let done := table.insertHeld allows key yield
    ((∃ handle, done.answer = .ok handle) ∧
      table.ratio.GrowsTo table.bucketCount table.size done.state.bucketCount) ∨
    (∃ requested, allows requested = false ∧
      done.answer = .error (.allocationFailure requested) ∧
      table.bucketCount ≤ done.state.bucketCount) ∨
    (table.contains (some key.value) (some yield.value) = true ∧
      done = ⟨.error .duplicateEntry, table, []⟩) := by
  obtain ⟨stored, outcome⟩ | ⟨_, failure, failed, outcome⟩ | ⟨_, grown, outcome⟩ :=
    table.insertHeld_cases allows key yield
  · exact .inr (.inr ⟨stored, outcome⟩)
  · obtain ⟨request, rfl, refused⟩ := refused_of_grow failed
    rw [outcome]
    exact .inr (.inl ⟨bucketCountFor request, refused, rfl, wellFormed.bucketCount_le_grow allows⟩)
  · rw [outcome]
    refine .inl ⟨⟨_, rfl⟩, ?_⟩
    rw [(sameBuckets_link _ key yield).bucketCount]
    exact wellFormed.growsTo_grow grown

/-- A command other than a rebuild inserts a pair and leaves the bucket count that its growth came to,
or fails to reserve an array, or inserts nothing and leaves the bucket count as it was. -/
theorem growsTo_perform (wellFormed : table.WellFormed) (allows : Allocator)
    {command : Command K Y} (kept : ∀ request, command ≠ .rebuild request) :
    let done := table.perform allows command
    ((∃ handle, done.answer = .inserted (.ok handle)) ∧
      table.ratio.GrowsTo table.bucketCount table.size done.state.bucketCount) ∨
    (∃ requested, allows requested = false ∧
      done.answer = .inserted (.error (.allocationFailure requested)) ∧
      table.bucketCount ≤ done.state.bucketCount) ∨
    (done.answer.issued? = none ∧ done.state.bucketCount = table.bucketCount) := by
  cases asked : command.pair? with
  | some pair =>
    obtain ⟨heldKey, heldYield, _, _, performed⟩ := perform_of_pair? asked table allows
    dsimp only
    rw [performed]
    obtain ⟨⟨handle, answer⟩, grows⟩ | ⟨requested, refused, answer, more⟩ | ⟨_, outcome⟩ :=
      wellFormed.growsTo_insertHeld allows heldKey heldYield
    · exact .inl ⟨⟨handle, congrArg Reply.inserted answer⟩, grows⟩
    · exact .inr (.inl ⟨requested, refused, congrArg Reply.inserted answer, more⟩)
    · rw [outcome]
      exact .inr (.inr ⟨rfl, rfl⟩)
  | none =>
    refine .inr (.inr ?_)
    cases command with
    | insert | insertOwned => cases asked
    | remove key yield => exact ⟨rfl, (sameBuckets_foldl_discard _ table).bucketCount⟩
    | removeItem handle => exact ⟨rfl, (sameBuckets_discard table handle).bucketCount⟩
    | reset => exact ⟨rfl, (sameBuckets_foldl_discard _ table).bucketCount⟩
    | rebuild request => exact absurd rfl (kept request)
    | updateYield handle change => exact ⟨rfl, rfl⟩

/-- No command but a rebuild loses buckets. -/
theorem bucketCount_le_perform (wellFormed : table.WellFormed) (allows : Allocator)
    {command : Command K Y} (kept : ∀ request, command ≠ .rebuild request) :
    table.bucketCount ≤ (table.perform allows command).state.bucketCount := by
  obtain ⟨_, grows⟩ | ⟨_, _, _, more⟩ | ⟨_, same⟩ := wellFormed.growsTo_perform allows kept
  · exact grows.le wellFormed.admissible.le_maxBuckets
  · exact more
  · exact Nat.le_of_eq same.symm

/-- An insertion into an empty table does not grow it. -/
theorem bucketCount_perform_of_empty (wellFormed : table.WellFormed)
    (accepted : table.ratio.isAccepted) (empty : table.size = 0) (allows : Allocator)
    {command : Command K Y} {key : K} {yield : Y} (asked : command.pair? = some (key, yield)) :
    (table.perform allows command).state.bucketCount = table.bucketCount := by
  have calm : ¬table.isCrowded := by
    rw [isCrowded, empty]
    exact Ratio.not_isReached_zero accepted wellFormed.admissible.pos
  obtain ⟨heldKey, heldYield, _, _, performed⟩ := perform_of_pair? asked table allows
  rw [performed]
  obtain ⟨_, outcome⟩ | ⟨_, failure, _, outcome⟩ | ⟨_, _, outcome⟩ :=
    table.insertHeld_cases allows heldKey heldYield
  · rw [outcome]
  · rw [outcome, grow_of_calm calm]
  · rw [outcome, grow_of_calm calm]
    exact (sameBuckets_link table heldKey heldYield).bucketCount

end WellFormed

variable [Storable Y]

/-! ## Runs -/

/-- The largest number of entries that an insertion met which then succeeded, in a run of commands. -/
def peak (table : Table K Y) : List (Allocator × Command K Y) → Nat
  | [] => 0
  | (allows, command) :: rest =>
    let done := table.perform allows command
    max (if done.answer.issued?.isSome then table.size else 0) (done.state.peak rest)

/-- After a run without rebuilds in which every array could be reserved, the bucket count is the one
that growing for the largest number of entries comes to, be it met before the run or in it. -/
theorem WellFormed.growsTo_run (wellFormed : table.WellFormed) {start entries : Nat}
    (grown : table.ratio.GrowsTo start entries table.bucketCount)
    {commands : List (Allocator × Command K Y)}
    (kept : ∀ step ∈ commands, ∀ request, step.2 ≠ .rebuild request)
    (granted : ∀ requested,
      .inserted (.error (.allocationFailure requested)) ∉ (table.run commands).answer) :
    table.ratio.GrowsTo start (max entries (table.peak commands))
      (table.run commands).state.bucketCount := by
  induction commands generalizing table entries with
  | nil => rwa [peak, Nat.max_zero]
  | cons step rest ih =>
    obtain ⟨allows, command⟩ := step
    rw [List.forall_mem_cons] at kept
    simp only [answer_run_cons, List.mem_cons, not_or] at granted
    let done := table.perform allows command
    have ratio : done.state.ratio = table.ratio := (sameChoices_perform table allows command).ratio
    have later : ∀ met, table.ratio.GrowsTo start met done.state.bucketCount →
        table.ratio.GrowsTo start (max met (done.state.peak rest))
          (done.state.run rest).state.bucketCount := by
      intro met law
      rw [← ratio] at law ⊢
      exact ih (wellFormed.perform allows command) law kept.2 fun requested => (granted requested).2
    obtain ⟨⟨handle, answer⟩, grows⟩ | ⟨requested, _, answer, _⟩ | ⟨answer, same⟩ :=
      wellFormed.growsTo_perform allows kept.1
    · rw [peak, answer, Reply.issued?, Option.isSome_some, if_pos rfl, ← Nat.max_assoc]
      exact later _ (grown.trans grows)
    · exact absurd answer.symm (granted requested).1
    · rw [peak, answer, Option.isSome_none, if_neg Bool.false_ne_true, Nat.zero_max]
      exact later entries (same.symm ▸ grown)

/-- What the bucket count of a table becomes that was reached by any commands under any allocators.

The insertion of a pair that is not stored leaves the least doubling of the bucket count that the
entries before it do not crowd, or the largest bucket count, unless an array cannot be reserved. Growing
ends within 26 doublings. An empty table does not grow, and no command but a rebuild loses buckets.
After a run without rebuilds in which every array could be reserved, the bucket count is the least
doubling of the first one that the largest number of entries met by an insertion does not crowd, or the
largest bucket count. -/
theorem bucketCount_of_run [LawfulStorable K] {allows : Allocator} {strategy : Strategy}
    {options : TableOptions} (made : (make allows strategy options).1 = .ok table)
    (commands : List (Allocator × Command K Y)) :
    let reached := (table.run commands).state
    (∀ available command key yield, command.pair? = some (key, yield) → ¬reached.Stores key yield →
      let done := reached.perform available command
      ((∃ handle, done.answer = .inserted (.ok handle)) ∧
        options.ratio.GrowsTo reached.bucketCount reached.size done.state.bucketCount) ∨
      ∃ requested, available requested = false ∧
        done.answer = .inserted (.error (.allocationFailure requested))) ∧
    (∀ available, reached.grow? available 26 = some (reached.grow available)) ∧
    (∀ available command key yield, command.pair? = some (key, yield) → reached.size = 0 →
      (reached.perform available command).state.bucketCount = reached.bucketCount) ∧
    (∀ available command, (∀ request, command ≠ .rebuild request) →
      reached.bucketCount ≤ (reached.perform available command).state.bucketCount) ∧
    ((∀ step ∈ commands, ∀ request, step.2 ≠ .rebuild request) →
      (∀ requested,
        .inserted (.error (.allocationFailure requested)) ∉ (table.run commands).answer) →
      options.ratio.GrowsTo options.bucketCount (table.peak commands) reached.bucketCount) := by
  intro reached
  have start := wellFormed_of_make made
  have wellFormed : reached.WellFormed := start.run commands
  have ratio : table.ratio = options.ratio := by
    rw [eq_ofSize_of_make made]
    rfl
  have same : reached.ratio = options.ratio := (sameChoices_run commands table).ratio.trans ratio
  have accepted : options.ratio.isAccepted := isAccepted_of_make made
  refine ⟨fun available command key yield asked new => ?_, wellFormed.grow?_bounded,
    fun available command key yield asked empty => ?_,
    fun available command kept => wellFormed.bucketCount_le_perform available kept,
    fun kept granted => ?_⟩
  · obtain ⟨heldKey, heldYield, rfl, rfl, performed⟩ := perform_of_pair? asked reached available
    dsimp only
    rw [performed, ← same]
    obtain ⟨⟨handle, answer⟩, grows⟩ | ⟨requested, refused, answer, _⟩ | ⟨stored, _⟩ :=
      wellFormed.growsTo_insertHeld available heldKey heldYield
    · exact .inl ⟨⟨handle, congrArg Reply.inserted answer⟩, grows⟩
    · exact .inr ⟨requested, refused, congrArg Reply.inserted answer⟩
    · exact absurd ((wellFormed.contains_iff_stores _ _).mp stored) new
  · exact wellFormed.bucketCount_perform_of_empty (same ▸ accepted) empty available asked
  · have calm : table.ratio.GrowsTo table.bucketCount 0 table.bucketCount :=
      Ratio.growsTo_of_calm (Ratio.not_isReached_zero (ratio ▸ accepted) start.admissible.pos)
        start.admissible.le_maxBuckets
    have grown := start.growsTo_run calm kept granted
    rwa [Nat.zero_max, ratio, bucketCount_of_make made] at grown

set_option maxRecDepth 1024 in
/-- One item crowds less than 64 buckets: the second pair doubles 16 buckets twice at once, and
neither a refused pair nor removals and further pairs change the bucket count. -/
theorem bucketCount_of_run_crowded :
    let options : TableOptions := ⟨20, ⟨0x3d000000⟩, true, false⟩
    let plentiful : Allocator := fun _ => true
    let commands : List (Allocator × Command UnsignedInt UnsignedInt) :=
      [(plentiful, .insert ⟨1⟩ ⟨10⟩), (plentiful, .insertOwned ⟨1⟩ ⟨10⟩),
        (plentiful, .insert ⟨2⟩ ⟨20⟩), (plentiful, .remove (some ⟨1⟩) none),
        (plentiful, .insertOwned ⟨3⟩ ⟨30⟩), (plentiful, .reset)]
    let start : Table UnsignedInt UnsignedInt := ofSize (fun _ => 7) options 16
    let reached := (start.run commands).state
    (make plentiful (fun _ => 7) options).1 = .ok start ∧
      (∀ step ∈ commands, ∀ request, step.2 ≠ .rebuild request) ∧
      (∀ requested,
        .inserted (.error (.allocationFailure requested)) ∉ (start.run commands).answer) ∧
      options.bucketCount = 16 ∧ start.peak commands = 1 ∧ reached.bucketCount = 64 ∧
      options.ratio.GrowsTo 16 1 64 := by
  intro options plentiful commands start reached
  have made : (make plentiful (fun _ => 7) options).1 = .ok start := by cbv
  have kept : ∀ step ∈ commands, ∀ request, step.2 ≠ .rebuild request := by simp [commands]
  have replies : (start.run commands).answer = [.inserted (.ok ⟨0⟩),
      .inserted (.error .duplicateEntry), .inserted (.ok ⟨1⟩), .removed 1, .inserted (.ok ⟨2⟩),
      .emptied] := by cbv
  have granted : ∀ requested,
      .inserted (.error (.allocationFailure requested)) ∉ (start.run commands).answer := by
    simp [replies]
  have met : start.peak commands = 1 := by cbv
  have count : (start.run commands).state.bucketCount = 64 := by cbv
  have law := (bucketCount_of_run made commands).2.2.2.2 kept granted
  have hint : options.bucketCount = 16 := by decide
  rw [met, count, hint] at law
  exact ⟨made, kept, granted, hint, met, count, law⟩

end Table

end ChainedMultimap
