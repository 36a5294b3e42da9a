import ChainedMultimap.Proofs.Search
import Mathlib.Data.Finset.Card
import Mathlib.Data.Finset.Dedup

/-!
# The set of stored pairs

Values that are the same are one class, and what a table stores is a set of pairs of classes. A search
answers what the set says, although with a key filter it reads a single chain. Linking adds a pair to
the set, removing takes the matching pairs out, and whatever changes links alone leaves the set as it
is.
-/

namespace ChainedMultimap

/-! ## Values up to sameness -/

namespace Storable

/-- Values that are the same are equivalent. -/
def setoid (α : Type) [Storable α] [LawfulStorable α] : Setoid α where
  r left right := same left right
  iseqv := ⟨same_refl, same_symm, same_trans⟩

/-- A value up to sameness. -/
def Class (α : Type) [Storable α] [LawfulStorable α] : Type := Quotient (setoid α)

namespace Class

variable {α : Type} [Storable α] [LawfulStorable α]

/-- The class of a value. -/
def of (value : α) : Class α := Quotient.mk (setoid α) value

/-- Two values have one class exactly if they are the same. -/
theorem of_eq_of {left right : α} : of left = of right ↔ same left right :=
  Quotient.eq (r := setoid α)

instance : DecidableEq (Class α) :=
  have : ∀ left right : α, Decidable ((setoid α).r left right) := fun left right =>
    inferInstanceAs (Decidable (same left right = true))
  inferInstanceAs (DecidableEq (Quotient (setoid α)))

/-- An absent filter admits every class, a present one its own. -/
def admits (filter : Option α) (class_ : Class α) : Bool :=
  match filter with
  | none => true
  | some wanted => of wanted = class_

/-- A filter admits a class as it admits its values. -/
@[simp] theorem admits_of (filter : Option α) (value : α) :
    admits filter (of value) = Storable.admits filter value := by
  cases filter with
  | none => rfl
  | some wanted =>
    rw [Bool.eq_iff_iff, admits, decide_eq_true_iff, of_eq_of]
    rfl

end Class

end Storable

open Storable (Class)

/-- A finite set of pairs of a key and a yield up to sameness. -/
abbrev Pairs (K Y : Type) [Storable K] [LawfulStorable K] [Storable Y] [LawfulStorable Y] : Type :=
  Finset (Class K × Class Y)

variable {K Y : Type} [Storable K] [LawfulStorable K] [Storable Y] [LawfulStorable Y]

/-- The pair of the classes of a key and a yield. -/
def pairOf (key : K) (yield : Y) : Class K × Class Y := (.of key, .of yield)

/-- Whether a pair passes the given filters. -/
def Pairs.admits (key : Option K) (yield : Option Y) (pair : Class K × Class Y) : Bool :=
  Class.admits key pair.1 && Class.admits yield pair.2

/-- Without filters every pair passes. -/
@[simp] theorem Pairs.admits_none (pair : Class K × Class Y) :
    Pairs.admits none none pair = true := by
  rw [admits, Class.admits, Class.admits, Bool.and_self]

/-- A key and a yield together admit their own pair alone. -/
theorem Pairs.admits_some {key : K} {yield : Y} {pair : Class K × Class Y} :
    Pairs.admits (some key) (some yield) pair ↔ pairOf key yield = pair := by
  simp [Pairs.admits, Class.admits, pairOf, Prod.ext_iff]

namespace Table

variable {table : Table K Y} {handle : Handle} {key : Option K} {yield : Option Y}

/-- The pair under a handle, up to sameness. -/
def pairAt? (table : Table K Y) (handle : Handle) : Option (Class K × Class Y) :=
  (table.get? handle).map fun stored => pairOf stored.1 stored.2

/-- The pairs under the given handles. -/
def pairsAt (table : Table K Y) (handles : List Handle) : Pairs K Y :=
  (handles.filterMap table.pairAt?).toFinset

/-- The set of stored pairs. -/
def pairs (table : Table K Y) : Pairs K Y := table.pairsAt table.items.live

/-- No two stored pairs are equal. -/
def Distinct (table : Table K Y) : Prop :=
  ∀ first second pair, table.pairAt? first = some pair → table.pairAt? second = some pair →
    first = second

/-- The pair under a handle is the pair of the classes of what is held under it. -/
theorem pairAt?_eq_map_held? (table : Table K Y) (handle : Handle) :
    table.pairAt? handle =
      (table.held? handle).map fun pair => pairOf pair.1.value pair.2.value := by
  rw [pairAt?, get?_eq_map_held?, Option.map_map]
  rfl

/-- A handle has a pair exactly if it finds an item. -/
theorem isSome_pairAt? (table : Table K Y) (handle : Handle) :
    (table.pairAt? handle).isSome = (table.items.get? handle).isSome := by
  rw [pairAt?_eq_map_held?, Option.isSome_map, isSome_held?]

/-- A pair is among those at some handles exactly if one of the handles has it. -/
theorem mem_pairsAt {handles : List Handle} {pair : Class K × Class Y} :
    pair ∈ table.pairsAt handles ↔ ∃ handle ∈ handles, table.pairAt? handle = some pair := by
  simp [pairsAt]

/-- A pair is in the table exactly if some handle has it. -/
theorem mem_pairs {pair : Class K × Class Y} :
    pair ∈ table.pairs ↔ ∃ handle, table.pairAt? handle = some pair := by
  rw [pairs, mem_pairsAt]
  refine exists_congr fun handle => and_iff_right_of_imp fun found => ?_
  rw [Arena.mem_live, ← isSome_pairAt?, found]
  rfl

/-- Distinct handles of a table without equal pairs name as many pairs. -/
theorem Distinct.card_pairsAt (distinct : table.Distinct) {handles : List Handle}
    (once : handles.Nodup) (found : ∀ handle ∈ handles, (table.items.get? handle).isSome) :
    (table.pairsAt handles).card = handles.length := by
  have different : (handles.filterMap table.pairAt?).Nodup :=
    once.filterMap fun first second pair here there => distinct first second pair here there
  rw [pairsAt, List.toFinset_card_of_nodup different, List.filterMap_length_eq_length]
  intro handle member
  rw [isSome_pairAt?]
  exact found handle member

/-- The set has as many pairs as the table has items. -/
theorem Distinct.card_pairs (distinct : table.Distinct) : table.pairs.card = table.size := by
  rw [pairs, distinct.card_pairsAt table.items.nodup_live fun _ => Arena.mem_live.mp,
    Arena.length_live, size]

/-- Whether a handle is admitted depends on the pair it names up to sameness. -/
theorem admits_iff_pairAt? : table.admits key yield handle ↔
    ∃ pair, table.pairAt? handle = some pair ∧ Pairs.admits key yield pair := by
  rw [admits_eq_held?, pairAt?_eq_map_held?]
  cases table.held? handle <;> simp [Pairs.admits, pairOf]

/-- A search answers a handle exactly if the set has a match. -/
theorem WellFormed.isSome_lookup_iff_pairs (wellFormed : table.WellFormed) :
    (table.lookup key yield).isSome ↔ ∃ pair ∈ table.pairs, Pairs.admits key yield pair := by
  rw [wellFormed.isSome_lookup]
  constructor
  · rintro ⟨handle, admitted⟩
    obtain ⟨pair, named, matching⟩ := admits_iff_pairAt?.mp admitted
    exact ⟨pair, mem_pairs.mpr ⟨handle, named⟩, matching⟩
  · rintro ⟨pair, stored, matching⟩
    obtain ⟨handle, named⟩ := mem_pairs.mp stored
    exact ⟨handle, admits_iff_pairAt?.mpr ⟨pair, named, matching⟩⟩

/-- A pair is found stored exactly if it is in the set. -/
theorem WellFormed.contains_iff_mem_pairs (wellFormed : table.WellFormed) (key : K) (yield : Y) :
    table.contains (some key) (some yield) ↔ pairOf key yield ∈ table.pairs := by
  rw [contains, wellFormed.isSome_lookup_iff_pairs]
  simp [Pairs.admits_some]

/-! ## What operations do to the set -/

/-- With the same contents every handle has the same pair. -/
theorem SameContents.pairAt? {before after : Table K Y} (same : SameContents before after)
    (handle : Handle) : after.pairAt? handle = before.pairAt? handle := by
  rw [Table.pairAt?, Table.pairAt?, same.get?]

/-- With the same contents two tables hold the same set of pairs. -/
theorem SameContents.pairs {before after : Table K Y} (same : SameContents before after) :
    after.pairs = before.pairs := by
  ext pair
  simp [mem_pairs, same.pairAt?]

/-- With the same contents no pair is held twice if none was. -/
theorem SameContents.distinct {before after : Table K Y} (same : SameContents before after)
    (distinct : before.Distinct) : after.Distinct := by
  intro first second pair here there
  rw [same.pairAt?] at here there
  exact distinct first second pair here there

/-- A linked pair is under the fresh handle, and every other handle has the pair it had. -/
theorem pairAt?_link (table : Table K Y) (key : Held K) (yield : Held Y) (other : Handle) :
    (table.link key yield).pairAt? other =
      if other = table.items.fresh then some (pairOf key.value yield.value)
      else table.pairAt? other := by
  rw [pairAt?_eq_map_held?, held?_link, pairAt?_eq_map_held?]
  split <;> rfl

/-- The fresh handle has no pair yet. -/
theorem pairAt?_fresh (table : Table K Y) : table.pairAt? table.items.fresh = none := by
  simp [pairAt?, get?]

/-- Linking adds the pair to the set. -/
theorem pairs_link (table : Table K Y) (key : Held K) (yield : Held Y) :
    (table.link key yield).pairs = Insert.insert (pairOf key.value yield.value) table.pairs := by
  ext pair
  rw [Finset.mem_insert, mem_pairs, mem_pairs]
  constructor
  · rintro ⟨handle, named⟩
    rw [pairAt?_link] at named
    split at named
    · exact .inl (Option.some.inj named).symm
    · exact .inr ⟨handle, named⟩
  · rintro (rfl | ⟨handle, named⟩)
    · exact ⟨table.items.fresh, by rw [pairAt?_link, if_pos rfl]⟩
    · have old : handle ≠ table.items.fresh := by
        rintro rfl
        simp [pairAt?_fresh] at named
      exact ⟨handle, by rw [pairAt?_link, if_neg old, named]⟩

/-- Linking a pair that is not in the set keeps stored pairs apart. -/
theorem Distinct.link (distinct : table.Distinct) {key : Held K} {yield : Held Y}
    (new : pairOf key.value yield.value ∉ table.pairs) : (table.link key yield).Distinct := by
  have unused : ∀ handle, table.pairAt? handle ≠ some (pairOf key.value yield.value) :=
    fun handle named => new (mem_pairs.mpr ⟨handle, named⟩)
  intro first second pair here there
  rw [pairAt?_link] at here there
  split at here <;> split at there
  · simp [*]
  · obtain rfl := Option.some.inj here
    exact absurd there (unused second)
  · obtain rfl := Option.some.inj there
    exact absurd here (unused first)
  · exact distinct first second pair here there

/-- Discarding a list of items leaves every other handle with its pair. -/
theorem pairAt?_foldl_discard (order : List Handle) (table : Table K Y) (other : Handle) :
    (order.foldl discard table).pairAt? other =
      if other ∈ order then none else table.pairAt? other := by
  rw [pairAt?_eq_map_held?, held?_foldl_discard, pairAt?_eq_map_held?]
  split <;> rfl

/-- Discarding items leaves no pair held twice. -/
theorem Distinct.foldl_discard (distinct : table.Distinct) (order : List Handle) :
    (order.foldl Table.discard table).Distinct := by
  intro first second pair here there
  rw [pairAt?_foldl_discard] at here there
  split at here
  · simp at here
  · split at there
    · simp at there
    · exact distinct first second pair here there

/-- Removing takes the matching pairs out of the set. -/
theorem WellFormed.pairs_remove (wellFormed : table.WellFormed) (key : Option K)
    (yield : Option Y) :
    (table.remove key yield).2.pairs = table.pairs.filter (¬ Pairs.admits key yield ·) := by
  ext pair
  rw [Finset.mem_filter, mem_pairs, mem_pairs]
  constructor
  · rintro ⟨handle, named⟩
    rw [Table.remove, pairAt?_foldl_discard] at named
    split at named
    · simp at named
    · next stays =>
      refine ⟨⟨handle, named⟩, fun matching => stays ?_⟩
      exact wellFormed.mem_matching_iff.mpr (admits_iff_pairAt?.mpr ⟨pair, named, matching⟩)
  · rintro ⟨⟨handle, named⟩, apart⟩
    have stays : handle ∉ table.matching key yield := by
      intro found
      obtain ⟨same, here, matching⟩ := admits_iff_pairAt?.mp (wellFormed.mem_matching_iff.mp found)
      obtain rfl : pair = same := Option.some.inj (named.symm.trans here)
      exact apart matching
    exact ⟨handle, by rw [Table.remove, pairAt?_foldl_discard, if_neg stays, named]⟩

/-- The handles that a search finds name the matching pairs. -/
theorem WellFormed.pairsAt_matching (wellFormed : table.WellFormed) (key : Option K)
    (yield : Option Y) :
    table.pairsAt (table.matching key yield) = table.pairs.filter (Pairs.admits key yield ·) := by
  ext pair
  rw [Finset.mem_filter, mem_pairsAt, mem_pairs]
  constructor
  · rintro ⟨handle, found, named⟩
    obtain ⟨same, here, matching⟩ := admits_iff_pairAt?.mp (wellFormed.mem_matching_iff.mp found)
    obtain rfl : pair = same := Option.some.inj (named.symm.trans here)
    exact ⟨⟨handle, named⟩, matching⟩
  · rintro ⟨⟨handle, named⟩, matching⟩
    exact ⟨handle, wellFormed.mem_matching_iff.mpr
      (admits_iff_pairAt?.mpr ⟨pair, named, matching⟩), named⟩

/-- Removing answers how many pairs it takes out of the set. -/
theorem WellFormed.count_remove (wellFormed : table.WellFormed) (distinct : table.Distinct)
    (key : Option K) (yield : Option Y) :
    (table.remove key yield).1 = (table.pairs.filter (Pairs.admits key yield ·)).card := by
  rw [← wellFormed.pairsAt_matching, distinct.card_pairsAt (wellFormed.nodup_matching key yield)]
  · rfl
  · intro handle found
    exact wellFormed.mem_handles.mp (wellFormed.mem_handles_of_mem_matching found)

/-- Discarding an item takes its pair out of the set. -/
theorem Distinct.pairs_discard (distinct : table.Distinct) {pair : Class K × Class Y}
    (named : table.pairAt? handle = some pair) :
    (table.discard handle).pairs = table.pairs.erase pair := by
  ext other
  have left : ∀ place, (table.discard handle).pairAt? place =
      if place = handle then none else table.pairAt? place := fun place => by
    simpa using pairAt?_foldl_discard [handle] table place
  rw [Finset.mem_erase, mem_pairs, mem_pairs]
  constructor
  · rintro ⟨place, there⟩
    rw [left] at there
    split at there
    · simp at there
    · next away =>
      refine ⟨?_, place, there⟩
      rintro rfl
      exact away (distinct place handle other there named)
  · rintro ⟨apart, place, there⟩
    refine ⟨place, ?_⟩
    rw [left, if_neg, there]
    rintro rfl
    exact apart (Option.some.inj (there.symm.trans named))

end Table

end ChainedMultimap
