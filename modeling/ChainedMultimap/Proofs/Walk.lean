import ChainedMultimap.Proofs.WellFormed
import ChainedMultimap.Table.Walk
import Mathlib.Data.List.Basic

/-!
# The walk through all items

On a well-formed table a walk without a key visits all handles once, from the first bucket to the last
and from first to last in every chain.
-/

namespace ChainedMultimap.Table

variable {K Y : Type} {table : Table K Y} {handle : Handle}

/-- The handles on the chains from a bucket on. -/
def chainsFrom (table : Table K Y) (bucket : Nat) : List Handle :=
  (List.range' bucket (table.bucketCount - bucket)).flatMap table.chain

/-- The chains from a bucket on are its chain and those from the next one on. -/
theorem chainsFrom_of_lt {bucket : Nat} (inside : bucket < table.bucketCount) :
    table.chainsFrom bucket = table.chain bucket ++ table.chainsFrom (bucket + 1) := by
  have more : table.bucketCount - bucket = table.bucketCount - (bucket + 1) + 1 := by omega
  rw [chainsFrom, more, List.range'_succ, List.flatMap_cons, chainsFrom]

/-- Behind the last bucket there is no chain. -/
theorem chainsFrom_of_le {bucket : Nat} (outside : table.bucketCount ≤ bucket) :
    table.chainsFrom bucket = [] := by
  have done : table.bucketCount - bucket = 0 := by omega
  rw [chainsFrom, done, List.range'_zero, List.flatMap_nil]

/-- The handles in order are those before a bucket and those from it on. -/
theorem handles_eq_append {bucket : Nat} (inside : bucket ≤ table.bucketCount) :
    table.handles = (List.range bucket).flatMap table.chain ++ table.chainsFrom bucket := by
  have count : table.bucketCount = bucket + (table.bucketCount - bucket) := by omega
  rw [handles, chainsFrom, ← List.flatMap_append, List.range_eq_range', List.range_eq_range']
  conv_lhs => rw [count, ← List.range'_append_1, Nat.zero_add]

/-- The chain of a bucket is a part of the order of all handles. -/
theorem chain_infix_handles {bucket : Nat} (inside : bucket < table.bucketCount) :
    table.chain bucket <:+: table.handles := by
  rw [handles, List.flatMap_def]
  exact List.infix_of_mem_flatten (List.mem_map_of_mem (List.mem_range.mpr inside))

variable [Storable K]

namespace WellFormed

/-- The items of a bucket keep their order in the order of all chains. -/
theorem filter_home_handles (wellFormed : table.WellFormed) (bucket : Nat) :
    (table.handles.filter fun handle => (table.key? handle).map table.home = some bucket) =
      table.chain bucket := by
  let atHome (handle : Handle) : Bool := (table.key? handle).map table.home = some bucket
  have own : (table.chain bucket).filter atHome = table.chain bucket := by
    rw [List.filter_eq_self]
    intro handle member
    exact decide_eq_true (wellFormed.mem_chain.mp member)
  have apart : ∀ buckets : List Nat, bucket ∉ buckets →
      (buckets.flatMap table.chain).filter atHome = [] := by
    intro buckets absent
    rw [List.filter_flatMap, List.flatMap_eq_nil_iff]
    intro elsewhere listed
    rw [List.filter_eq_nil_iff]
    intro handle member here
    have home := wellFormed.mem_chain.mp member
    rw [of_decide_eq_true here, Option.some_inj] at home
    exact absent (home ▸ listed)
  change table.handles.filter atHome = _
  by_cases inside : bucket < table.bucketCount
  · have before : bucket ∉ List.range bucket := by simp
    have behind : bucket ∉ List.range' (bucket + 1) (table.bucketCount - (bucket + 1)) := by
      rw [List.mem_range'_1]
      omega
    rw [handles_eq_append (Nat.le_of_lt inside), chainsFrom_of_lt inside, List.filter_append,
      List.filter_append, chainsFrom, apart _ before, apart _ behind, List.nil_append,
      List.append_nil, own]
  · have empty : table.chain bucket = [] := by
      rw [List.eq_nil_iff_forall_not_mem]
      exact fun handle member => inside (wellFormed.threads.lt_of_mem member)
    rw [handles, apart _ (by simpa using inside), empty]

/-- From a bucket on, the first item is the first of the chains in turn. -/
theorem firstFrom_eq (wellFormed : table.WellFormed) (bucket : Nat) :
    table.firstFrom bucket = (table.chainsFrom bucket).head? := by
  have starts := wellFormed.threads.starts
  fun_induction firstFrom table bucket with
  | case1 bucket inside first head =>
    rw [chainsFrom_of_lt inside, List.head?_append, ← starts, head, Option.some_or]
  | case2 bucket inside empty ih =>
    rw [chainsFrom_of_lt inside, List.head?_append, ← starts, empty, Option.none_or, ih]
  | case3 bucket outside =>
    rw [chainsFrom_of_le (Nat.le_of_not_lt outside)]
    rfl

/-- From an item the walk goes on with the one behind it in the order of all chains. -/
theorem after_none (wellFormed : table.WellFormed) {before behind : List Handle}
    (split : table.handles = before ++ handle :: behind) :
    table.after handle none = behind.head? := by
  have distinct := wellFormed.threads.nodup_handles
  have member : handle ∈ table.handles := by simp [split]
  obtain ⟨item, found⟩ := Option.isSome_iff_exists.mp (wellFormed.mem_handles.mp member)
  obtain ⟨earlier, later, chain, _, next⟩ := wellFormed.exists_split found
  have here : handle ∈ table.chain item.bucket := by simp [chain]
  have inside := wellFormed.threads.lt_of_mem here
  have parts : table.handles = ((List.range item.bucket).flatMap table.chain ++ earlier) ++
      handle :: (later ++ table.chainsFrom (item.bucket + 1)) := by
    rw [handles_eq_append (Nat.le_of_lt inside), chainsFrom_of_lt inside, chain]
    simp
  have same : behind = later ++ table.chainsFrom (item.bucket + 1) := by
    rw [split, List.nodup_middle, List.nodup_cons, List.mem_append, not_or] at distinct
    rw [split, List.append_cons_inj_of_notMem distinct.1.1 distinct.1.2] at parts
    exact parts.2.2
  rw [same, after, found, List.head?_append]
  dsimp only
  rw [next]
  cases later with
  | nil => exact wellFormed.firstFrom_eq _
  | cons following rest => rfl

/-- A walk without a key that has visited some handles goes on with the first of the others. -/
theorem next_none (wellFormed : table.WellFormed) {before behind : List Handle}
    (split : table.handles = before ++ behind) :
    table.next before.getLast? none = behind.head? := by
  cases last : before.getLast? with
  | none =>
    obtain rfl := List.getLast?_eq_none_iff.mp last
    rw [next, first, wellFormed.firstFrom_eq, ← List.nil_append behind, ← split,
      handles_eq_append (Nat.zero_le _)]
    rfl
  | some handle =>
    obtain ⟨earlier, rfl⟩ := List.getLast?_eq_some_iff.mp last
    exact wellFormed.after_none (by simpa using split)

/-- A walk without a key that has visited some handles visits the others in order. -/
theorem walkUpTo_none (wellFormed : table.WellFormed) {before behind : List Handle}
    (split : table.handles = before ++ behind) (count : Nat) :
    table.walkUpTo none count before.getLast? = behind.take count := by
  induction count generalizing before behind with
  | zero => rfl
  | succ count ih =>
    rw [walkUpTo, wellFormed.next_none split]
    cases behind with
    | nil => rfl
    | cons handle rest =>
      have shifted : table.handles = (before ++ [handle]) ++ rest := by simpa using split
      have on := ih shifted
      rw [List.getLast?_concat] at on
      rw [List.head?_cons, List.take_succ_cons]
      exact congrArg (handle :: ·) on

/-- A walk without a key visits all handles in order. -/
theorem walk_none (wellFormed : table.WellFormed) : table.walk none none = table.handles := by
  have whole : table.handles = [] ++ table.handles := rfl
  have visited : table.walk none none = table.handles.take table.size :=
    wellFormed.walkUpTo_none whole table.size
  rw [visited, List.take_of_length_le (Nat.le_of_eq wellFormed.length_handles)]

/-- A walk without a key comes past every item. -/
theorem walkLength_none (wellFormed : table.WellFormed) : table.walkLength none = table.size := by
  rw [walkLength, wellFormed.walk_none, wellFormed.length_handles]

end WellFormed

end ChainedMultimap.Table
