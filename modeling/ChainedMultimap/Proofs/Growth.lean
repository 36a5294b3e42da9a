import ChainedMultimap.Proofs.Contents

/-!
# What a growth and an insertion come to

A rebuild depends on whether its bucket array can be reserved. A growth stops at once if the table is
not crowded or has the largest bucket array, fails if the doubled array cannot be reserved, and
otherwise goes on from the doubled table. An insertion finds its pair stored, fails to grow, or grows
and links the pair.
-/

namespace ChainedMultimap.Table

variable {K Y : Type} [Storable K] {table : Table K Y} {allows : Allocator} {request : Nat}

/-- A rebuild whose array can be reserved threads all items into it. -/
theorem rebuild_of_reserved (reserved : allows (bucketCountFor request)) :
    table.rebuild allows request =
      ⟨.ok (), table.rethread (bucketCountFor request) table.handles,
        [.tableResizing table.bucketCount (bucketCountFor request)]⟩ := by
  rw [rebuild, if_pos reserved]

/-- A rebuild whose array is refused reports the refused count and leaves the table as it was. -/
theorem rebuild_of_refused (refused : allows (bucketCountFor request) = false) :
    table.rebuild allows request =
      ⟨.error (.allocationFailure (bucketCountFor request)), table,
        [.tableResizing table.bucketCount (bucketCountFor request)]⟩ := by
  rw [rebuild, if_neg (Bool.eq_false_iff.mp refused)]

/-- A table that is not crowded does not grow. -/
theorem grow_of_calm (calm : ¬table.isCrowded) : table.grow allows = ⟨.ok (), table, []⟩ := by
  rw [grow, if_neg calm]

/-- A crowded table at the upper limit warns and stays as it is. -/
theorem grow_of_full (crowded : table.isCrowded) (full : maxBuckets ≤ table.bucketCount) :
    table.grow allows = ⟨.ok (), table, [.tableAtMaximum table.bucketCount]⟩ := by
  rw [grow, if_pos crowded, dif_pos full]

/-- A crowded table whose doubled array is refused reports that and stays as it is. -/
theorem grow_of_refused (crowded : table.isCrowded) (below : ¬maxBuckets ≤ table.bucketCount)
    (refused : allows (bucketCountFor (2 * table.bucketCount)) = false) :
    table.grow allows =
      ⟨.error (.allocationFailure (bucketCountFor (2 * table.bucketCount))), table,
        [.tableResizing table.bucketCount (bucketCountFor (2 * table.bucketCount))]⟩ := by
  have rebuilt : table.rebuild allows (2 * table.bucketCount) = _ := rebuild_of_refused refused
  rw [grow, if_pos crowded, dif_neg below]
  dsimp only
  split
  · next failure failed =>
    rw [rebuilt] at failed ⊢
    rw [Except.error.inj failed]
  · next succeeded =>
    rw [rebuilt] at succeeded
    cases succeeded

/-- The table that a growth goes on from. -/
def doubled (table : Table K Y) : Table K Y :=
  table.rethread (bucketCountFor (2 * table.bucketCount)) table.handles

/-- A growth that can double goes on from the doubled table. -/
theorem grow_eq_of_reserved (crowded : table.isCrowded) (below : ¬maxBuckets ≤ table.bucketCount)
    (reserved : allows (bucketCountFor (2 * table.bucketCount))) :
    table.grow allows = ⟨(table.doubled.grow allows).answer, (table.doubled.grow allows).state,
      .tableResizing table.bucketCount (bucketCountFor (2 * table.bucketCount)) ::
        (table.doubled.grow allows).log⟩ := by
  have rebuilt : table.rebuild allows (2 * table.bucketCount) = _ := rebuild_of_reserved reserved
  rw [grow, if_pos crowded, dif_neg below]
  dsimp only
  split
  · next failure failed =>
    rw [rebuilt] at failed
    cases failed
  · next succeeded =>
    rw [rebuilt]
    rfl

/-- A crowded table whose doubled array is reserved ends as the doubled table ends. -/
theorem grow_of_reserved (crowded : table.isCrowded) (below : ¬maxBuckets ≤ table.bucketCount)
    (reserved : allows (bucketCountFor (2 * table.bucketCount))) :
    (table.grow allows).answer = (table.doubled.grow allows).answer ∧
      (table.grow allows).state = (table.doubled.grow allows).state := by
  rw [grow_eq_of_reserved crowded below reserved]
  exact ⟨rfl, rfl⟩

/-- A growth goes from double to double until it stops. -/
theorem grow_induction (allows : Allocator) {motive : Table K Y → Prop}
    (calm : ∀ table, ¬table.isCrowded → motive table)
    (full : ∀ table, table.isCrowded → maxBuckets ≤ table.bucketCount → motive table)
    (refused : ∀ table, table.isCrowded → ¬maxBuckets ≤ table.bucketCount →
      allows (bucketCountFor (2 * table.bucketCount)) = false → motive table)
    (reserved : ∀ table, table.isCrowded → ¬maxBuckets ≤ table.bucketCount →
      allows (bucketCountFor (2 * table.bucketCount)) → motive table.doubled → motive table)
    (table : Table K Y) : motive table := by
  fun_induction grow table allows with
  | case1 table crowded atLimit => exact full table crowded atLimit
  | case2 table crowded below rebuilt failure failed =>
    refine refused table crowded below (Bool.eq_false_iff.mpr fun allowed => ?_)
    simp [rebuilt, rebuild_of_reserved allowed] at failed
  | case3 table crowded below rebuilt succeeded closer grown ih =>
    cases allowed : allows (bucketCountFor (2 * table.bucketCount)) with
    | false => simp [rebuilt, rebuild_of_refused allowed] at succeeded
    | true =>
      refine reserved table crowded below allowed ?_
      simpa [rebuilt, rebuild_of_reserved allowed, doubled] using ih
  | case4 table quiet => exact calm table quiet

/-- Doubling the buckets changes no pair. -/
theorem sameContents_doubled (table : Table K Y) : SameContents table table.doubled :=
  sameContents_rethread table _ _

/-- What every doubling keeps, a growth keeps, whether it succeeds or not. -/
theorem grow_kept (allows : Allocator) {motive : Table K Y → Prop}
    (kept : ∀ between, between.bucketCount < maxBuckets → motive between → motive between.doubled)
    (start : motive table) : motive (table.grow allows).state := by
  induction table using @grow_induction K Y _ allows with
  | calm table calm => rwa [grow_of_calm calm]
  | full table crowded full => rwa [grow_of_full crowded full]
  | refused table crowded below refused => rwa [grow_of_refused crowded below refused]
  | reserved table crowded below reserved ih =>
    rw [(grow_of_reserved crowded below reserved).2]
    exact ih (kept table (Nat.lt_of_not_le below) start)

/-- Growing changes links alone, whether it succeeds or not. -/
theorem sameContents_grow (table : Table K Y) (allows : Allocator) :
    SameContents table (table.grow allows).state :=
  grow_kept allows (fun between _ same => same.trans (sameContents_doubled between)) (.refl table)

/-- A growth fails only because an array cannot be reserved. -/
theorem refused_of_grow {failure : TableError} (failed : (table.grow allows).answer = .error failure) :
    ∃ request, failure = .allocationFailure (bucketCountFor request) ∧
      allows (bucketCountFor request) = false := by
  induction table using @grow_induction K Y _ allows with
  | calm table calm =>
    rw [grow_of_calm calm] at failed
    cases failed
  | full table crowded full =>
    rw [grow_of_full crowded full] at failed
    cases failed
  | refused table crowded below refused =>
    rw [grow_of_refused crowded below refused] at failed
    exact ⟨_, (Except.error.inj failed).symm, refused⟩
  | reserved table crowded below reserved ih =>
    rw [(grow_of_reserved crowded below reserved).1] at failed
    exact ih failed

variable [Storable Y] {key : Held K} {yield : Held Y}

/-- A stored pair is refused, and the table stays as it is. -/
theorem insertHeld_of_stored (stored : table.contains (some key.value) (some yield.value) = true) :
    table.insertHeld allows key yield = ⟨.error .duplicateEntry, table, []⟩ := by
  rw [insertHeld, if_pos stored]

/-- An insert whose growth fails leaves what the growth left and links nothing. -/
theorem insertHeld_of_failed (new : table.contains (some key.value) (some yield.value) = false)
    {failure : TableError} (failed : (table.grow allows).answer = .error failure) :
    table.insertHeld allows key yield =
      ⟨.error failure, (table.grow allows).state, (table.grow allows).log⟩ := by
  rw [insertHeld, if_neg (Bool.eq_false_iff.mp new), store]
  cases growth : table.grow allows with
  | mk answer grown log =>
    rw [growth] at failed
    rw [show answer = .error failure from failed]

/-- An insert whose growth succeeds links the pair under the fresh handle. -/
theorem insertHeld_of_grown (new : table.contains (some key.value) (some yield.value) = false)
    (succeeded : (table.grow allows).answer = .ok ()) :
    table.insertHeld allows key yield =
      ⟨.ok table.items.fresh, (table.grow allows).state.link key yield,
        (table.grow allows).log⟩ := by
  rw [insertHeld, if_neg (Bool.eq_false_iff.mp new), store, ← (sameContents_grow table allows).fresh]
  cases growth : table.grow allows with
  | mk answer grown log =>
    rw [growth] at succeeded
    rw [show answer = .ok () from succeeded]

/-- An insertion finds the pair stored and changes nothing, or fails to grow and keeps what growth it
achieved, or grows and links the pair. -/
theorem insertHeld_cases (table : Table K Y) (allows : Allocator) (key : Held K) (yield : Held Y) :
    (table.contains (some key.value) (some yield.value) = true ∧
      table.insertHeld allows key yield = ⟨.error .duplicateEntry, table, []⟩) ∨
    (table.contains (some key.value) (some yield.value) = false ∧
      ∃ failure, (table.grow allows).answer = .error failure ∧
        table.insertHeld allows key yield =
          ⟨.error failure, (table.grow allows).state, (table.grow allows).log⟩) ∨
    (table.contains (some key.value) (some yield.value) = false ∧
      (table.grow allows).answer = .ok () ∧
        table.insertHeld allows key yield =
          ⟨.ok table.items.fresh, (table.grow allows).state.link key yield,
            (table.grow allows).log⟩) := by
  cases stored : table.contains (some key.value) (some yield.value) with
  | true => exact .inl ⟨rfl, insertHeld_of_stored stored⟩
  | false =>
    cases growth : (table.grow allows).answer with
    | error failure =>
      exact .inr (.inl ⟨rfl, failure, rfl, insertHeld_of_failed stored growth⟩)
    | ok done => exact .inr (.inr ⟨rfl, rfl, insertHeld_of_grown stored growth⟩)

end ChainedMultimap.Table
