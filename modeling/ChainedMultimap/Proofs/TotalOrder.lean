import ChainedMultimap.Proofs.Contract
import ChainedMultimap.Proofs.DoubleOrder

/-!
# Objects in order

Objects of every kind compare by fields, one after the other, and each field by a number. Such a
comparison puts all values in one line, up to values that compare equal, and no comparison tells
those apart. A sorted list has values that compare equal side by side, so dropping repeats from it
leaves one for every value of the list.
-/

namespace ChainedMultimap

/-- A comparison that puts all values of a type in one line, up to values that compare equal. -/
structure LinearComparison (α : Type) [Ord α] : Prop where
  /-- From the other side a comparison is reversed. -/
  swap : ∀ left right : α, compare right left = (compare left right).swap
  /-- A value that comes before another comes before all that the other comes before. -/
  lt_trans : ∀ left middle right : α, compare left middle = .lt → compare middle right = .lt →
    compare left right = .lt
  /-- Values that compare equal to one value compare equal. -/
  eq_trans : ∀ left middle right : α, compare left middle = .eq → compare middle right = .eq →
    compare left right = .eq
  /-- A value compares equal to itself. -/
  refl : ∀ value : α, compare value value = .eq
  /-- Values that compare equal compare alike with every value. -/
  congr : ∀ left right : α, compare left right = .eq →
    ∀ other, compare left other = compare right other

/-- Part of a list that stands for the whole: strictly ascending, with exactly one value for each.
-/
structure Represents {α : Type} [Ord α] (kept values : List α) : Prop where
  /-- Every value comes before those behind it. -/
  ascending : kept.Pairwise fun left right => compare left right = .lt
  /-- All values are from the list. -/
  subset : kept ⊆ values
  /-- Exactly one of the values compares equal to a value of the list. -/
  unique : ∀ value ∈ values, ∃! chosen, chosen ∈ kept ∧ compare value chosen = .eq

namespace Storable

variable {α : Type} [Storable α]

/-! ## Dropping repeats -/

/-- The loop that drops repeats keeps what it has kept and then drops the repeats that follow. -/
theorem eraseRepsBy_loop (first : α) (rest kept : List α) :
    List.eraseRepsBy.loop same first rest kept = kept.reverse ++ dropRepeats (first :: rest) := by
  rw [dropRepeats, List.eraseRepsBy]
  induction rest generalizing first kept with
  | nil => simp [List.eraseRepsBy.loop]
  | cons second rest ih =>
    rw [List.eraseRepsBy.loop, List.eraseRepsBy.loop]
    cases same first second with
    | false => rw [ih second (first :: kept), ih second [first]]; simp
    | true => exact ih first kept

/-- Of two neighbours that are the same the second is dropped. -/
theorem dropRepeats_cons_cons (first second : α) (rest : List α) :
    dropRepeats (first :: second :: rest) =
      if same first second then dropRepeats (first :: rest)
      else first :: dropRepeats (second :: rest) := by
  rw [dropRepeats, List.eraseRepsBy, List.eraseRepsBy.loop]
  cases same first second with
  | false => exact eraseRepsBy_loop second rest [first]
  | true => rfl

/-- Dropping repeats adds no value. -/
theorem dropRepeats_subset (values : List α) : dropRepeats values ⊆ values := by
  cases values with
  | nil => exact List.Subset.refl _
  | cons first rest =>
    induction rest generalizing first with
    | nil => exact List.Subset.refl _
    | cons second rest ih =>
      rw [dropRepeats_cons_cons]
      split
      · exact List.Subset.trans (ih first)
          (List.cons_subset_cons first (List.subset_cons_self second rest))
      · exact List.cons_subset_cons first (ih second)

variable [Std.TransOrd α]

/-- A value that is dropped is the same as one that is kept. -/
theorem exists_mem_dropRepeats {values : List α} {value : α} (member : value ∈ values) :
    ∃ chosen ∈ dropRepeats values, compare value chosen = .eq := by
  cases values with
  | nil => cases member
  | cons first rest =>
    induction rest generalizing first value with
    | nil => exact ⟨value, member, Std.ReflCmp.compare_self⟩
    | cons second rest ih =>
      rw [dropRepeats_cons_cons]
      cases repeated : same first second with
      | false =>
        rw [if_neg Bool.false_ne_true]
        rcases List.mem_cons.mp member with rfl | behind
        · exact ⟨value, List.mem_cons_self, Std.ReflCmp.compare_self⟩
        · obtain ⟨chosen, kept, equal⟩ := ih second behind
          exact ⟨chosen, List.mem_cons_of_mem first kept, equal⟩
      | true =>
        rw [if_pos rfl]
        have equal : compare second first = .eq :=
          Std.OrientedCmp.eq_symm (same_iff_compare.mp repeated)
        rcases List.mem_cons.mp member with rfl | behind
        · exact ih value List.mem_cons_self
        · rcases List.mem_cons.mp behind with rfl | behind
          · obtain ⟨chosen, kept, other⟩ := ih first List.mem_cons_self
            exact ⟨chosen, kept, Std.TransCmp.eq_trans equal other⟩
          · exact ih first (List.mem_cons_of_mem first behind)

/-- Without repeats a sorted list ascends strictly. -/
theorem pairwise_dropRepeats {values : List α}
    (sorted : values.Pairwise fun left right => (compare left right).isLE) :
    (dropRepeats values).Pairwise fun left right => compare left right = .lt := by
  cases values with
  | nil => exact List.Pairwise.nil
  | cons first rest =>
    induction rest generalizing first with
    | nil => exact List.pairwise_singleton _ first
    | cons second rest ih =>
      obtain ⟨below, others⟩ := List.pairwise_cons.mp sorted
      rw [dropRepeats_cons_cons]
      cases repeated : same first second with
      | false =>
        rw [if_neg Bool.false_ne_true]
        refine List.pairwise_cons.mpr ⟨fun chosen kept => ?_, ih second others⟩
        have different : compare first second ≠ .eq := fun equal => by
          rw [same_iff_compare.mpr equal] at repeated
          cases repeated
        have least := Ordering.isLE_iff_eq_lt_or_eq_eq.mp (below second List.mem_cons_self)
        have before : compare first second = .lt := least.resolve_right different
        rcases List.mem_cons.mp (dropRepeats_subset _ kept) with rfl | behind
        · exact before
        · exact Std.TransCmp.lt_of_lt_of_isLE before ((List.pairwise_cons.mp others).1 chosen behind)
      | true =>
        rw [if_pos rfl]
        exact ih first (sorted.sublist ((List.sublist_cons_self second rest).cons_cons first))

/-- A sorted list ascends. -/
theorem pairwise_sort (values : List α) :
    (sort values).Pairwise fun left right => (compare left right).isLE := by
  apply List.pairwise_mergeSort
  · intro left middle right first second
    exact Std.TransCmp.isLE_trans first second
  · intro left right
    have swapped : compare right left = (compare left right).swap := Std.OrientedCmp.eq_swap
    rw [swapped]
    cases compare left right <;> rfl

/-- A list that is sorted and then freed of repeats keeps one value for every value. -/
theorem represents_dropRepeats_sort (values : List α) :
    Represents (dropRepeats (sort values)) values where
  ascending := pairwise_dropRepeats (pairwise_sort values)
  subset := by
    intro value kept
    exact List.mem_mergeSort.mp (dropRepeats_subset _ kept)
  unique value member := by
    have apart : (dropRepeats (sort values)).Pairwise fun left right => compare left right ≠ .eq :=
      (pairwise_dropRepeats (pairwise_sort values)).imp fun before equal => by
        rw [before] at equal
        cases equal
    have symmetric : Std.Symm fun left right : α => compare left right ≠ .eq :=
      ⟨fun _ _ different equal => different (Std.OrientedCmp.eq_symm equal)⟩
    obtain ⟨chosen, kept, equal⟩ := exists_mem_dropRepeats (List.mem_mergeSort.mpr member)
    refine ⟨chosen, ⟨kept, equal⟩, fun other ⟨keptOther, equalOther⟩ => ?_⟩
    by_contra different
    have alike : compare other chosen = .eq :=
      Std.TransCmp.eq_trans (Std.OrientedCmp.eq_symm equalOther) equal
    exact apart.forall keptOther kept different alike

end Storable

/-! ## Every kind of object -/

/-- An oriented and transitive comparison is linear. -/
theorem LinearComparison.of_transOrd (α : Type) [Ord α] [Std.TransOrd α] : LinearComparison α where
  swap _ _ := Std.OrientedCmp.eq_swap
  lt_trans _ _ _ := Std.TransCmp.lt_trans
  eq_trans _ _ _ := Std.TransCmp.eq_trans
  refl _ := Std.ReflCmp.compare_self
  congr _ _ equal _ := Std.TransCmp.congr_left equal

instance : Std.TransOrd UnsignedInt := inferInstanceAs (Std.TransCmp (compareOn UnsignedInt.value))

instance : Std.TransOrd Double := inferInstanceAs (Std.TransCmp (compareOn Double.orderKey))

instance : Std.TransOrd FlowCounters :=
  inferInstanceAs (Std.TransCmp (compareLex _ (compareLex _ (compareLex _ (compareLex _
    (compareLex _ _))))))

instance : Std.TransCmp Connection.compareFields :=
  inferInstanceAs (Std.TransCmp (compareLex _ (compareLex _ (compareLex _ (compareLex _ _)))))

/-- Comparing by an image is as linear as the comparison of the images. -/
theorem transCmp_image {α β : Type} (compareImages : β → β → Ordering) [Std.TransCmp compareImages]
    (image : α → β) :
    Std.TransCmp fun left right => compareImages (image left) (image right) where
  eq_swap := Std.OrientedCmp.eq_swap
  isLE_trans := Std.TransCmp.isLE_trans

instance : Std.TransOrd Connection := transCmp_image Connection.compareFields Connection.canonical

instance : Std.TransOrd DirectedConnection :=
  transCmp_image Connection.compareFields DirectedConnection.connection

namespace ObjectKind

instance : (kind : ObjectKind) → Std.TransOrd kind.Value
  | connection => inferInstanceAs (Std.TransOrd Connection)
  | directedConnection => inferInstanceAs (Std.TransOrd DirectedConnection)
  | unsignedInt => inferInstanceAs (Std.TransOrd UnsignedInt)
  | double => inferInstanceAs (Std.TransOrd Double)
  | flowCounters => inferInstanceAs (Std.TransOrd FlowCounters)

/-- The objects of every kind are in one line, up to objects that compare equal and that no
comparison tells apart. Sorting a list of them and dropping each that is the same as the one before
therefore leaves exactly one for every object of the list. Doubles, not-a-numbers and both zeros
included, stand in the total order of the floating-point standard, and only equal encodings compare
equal. -/
theorem linearComparison_value :
    (∀ kind : ObjectKind, LinearComparison kind.Value ∧ ∀ values : List kind.Value,
      (Storable.sort values).Perm values ∧
        (Storable.sort values).Pairwise (fun left right => (compare left right).isLE) ∧
          Represents (Storable.dropRepeats (Storable.sort values)) values) ∧
    ∀ left right : Double, ((compare left right).isLE ↔ Double.TotallyOrdered left right) ∧
      (compare left right = .eq ↔ left = right) := by
  refine ⟨fun kind => ⟨LinearComparison.of_transOrd kind.Value, fun values => ?_⟩,
    fun left right => ⟨Double.isLE_compare_iff_totallyOrdered, Double.compare_eq_iff⟩⟩
  exact ⟨List.mergeSort_perm values _, Storable.pairwise_sort values,
    Storable.represents_dropRepeats_sort values⟩

end ObjectKind

end ChainedMultimap
