import ChainedMultimap.Proofs.Checked
import ChainedMultimap.Proofs.Walk
import Mathlib

/-!
# The exact effect of a rebuild

A rebuild takes the items in the order of all chains and puts each in front of the chain of its new
bucket. A new chain therefore holds the items that belong there in the reverse of that order. For the
bucket count that a table already has this turns every chain around, and a second rebuild turns it
back.
-/

namespace ChainedMultimap.Table

variable {K Y : Type} [Storable K] {table : Table K Y}

/-- Threading items anew gives every key the bucket under the new mask. -/
theorem home_rethread (table : Table K Y) (buckets : Nat) (order : List Handle) (key : K) :
    (table.rethread buckets order).home key =
      (table.strategy (Storable.marshal key)).toNat &&& (buckets - 1) := by
  rw [home, mask_rethread, (sameContents_rethread table buckets order).strategy]

namespace WellFormed

/-- A rebuild for the bucket count that a table has turns every chain around. -/
theorem chain_rethread_bucketCount (wellFormed : table.WellFormed) (bucket : Nat) :
    (table.rethread table.bucketCount table.handles).chain bucket =
      (table.chain bucket).reverse := by
  have home : (table.rethread table.bucketCount table.handles).home = table.home := by
    funext key
    rw [home_rethread, wellFormed.mask, Nat.add_sub_cancel, Table.home]
  rw [wellFormed.chain_rethread wellFormed.admissible.pos, home, wellFormed.filter_home_handles]

/-- A second rebuild for the same bucket count turns every chain back. -/
theorem chain_rethread_twice (wellFormed : table.WellFormed) :
    let once := table.rethread table.bucketCount table.handles
    (once.rethread table.bucketCount once.handles).chain = table.chain := by
  intro once
  have count : once.bucketCount = table.bucketCount := bucketCount_rethread table _ _
  have turned : once.WellFormed := wellFormed.rethread wellFormed.admissible
  funext bucket
  calc (once.rethread table.bucketCount once.handles).chain bucket
      = (once.rethread once.bucketCount once.handles).chain bucket := by rw [count]
    _ = (once.chain bucket).reverse := turned.chain_rethread_bucketCount bucket
    _ = (table.chain bucket).reverse.reverse := by rw [wellFormed.chain_rethread_bucketCount]
    _ = table.chain bucket := List.reverse_reverse _

end WellFormed

variable [Storable Y]

/-- A rebuild whose bucket array can be reserved, on a table reached by any commands under any
allocators. Moving the items while the old chains are walked gives as many buckets as the request is
rounded to, each with the items that belong there under the new mask, in the reverse of the order of
all old chains. What the handles hold stays as it was. For the bucket count that the table has, every
chain is turned around, and by a second rebuild turned back. -/
theorem chains_of_rebuild {allows : Allocator} {strategy : Strategy} {options : TableOptions}
    (made : (make allows strategy options).1 = .ok table)
    (commands : List (Allocator × Command K Y)) {available : Allocator} {request : Nat}
    (reserved : available (bucketCountFor request)) :
    let reached := (table.run commands).state
    let done := reached.rebuild available request
    done.answer = .ok () ∧
      reached.rethread? (bucketCountFor request) = some done.state ∧
      done.state.bucketCount = bucketCountFor request ∧
      (∀ bucket, done.state.chain bucket =
        (reached.handles.filter fun handle => (reached.key? handle).map
          (fun key => (strategy (Storable.marshal key)).toNat &&& (bucketCountFor request - 1)) =
            some bucket).reverse) ∧
      SameContents reached done.state ∧
      (bucketCountFor request = reached.bucketCount →
        (∀ bucket, done.state.chain bucket = (reached.chain bucket).reverse) ∧
        ∀ later : Allocator, later (bucketCountFor request) →
          (done.state.rebuild later request).answer = .ok () ∧
            (done.state.rebuild later request).state.chain = reached.chain) ∧
      bucketCountFor reached.bucketCount = reached.bucketCount := by
  intro reached done
  have wellFormed : reached.WellFormed := (wellFormed_of_make made).run commands
  have positive := (isBucketCount_bucketCountFor request).pos
  have strategies : reached.strategy = strategy := by
    rw [(sameChoices_run commands table).strategy, eq_ofSize_of_make made]
    rfl
  have rebuilt : done = _ := rebuild_of_reserved reserved
  have state : done.state = reached.rethread (bucketCountFor request) reached.handles := by
    rw [rebuilt]
  have home : ∀ key, done.state.home key =
      (strategy (Storable.marshal key)).toNat &&& (bucketCountFor request - 1) := by
    intro key
    rw [state, home_rethread, strategies]
  refine ⟨by rw [rebuilt], ?_, ?_, fun bucket => ?_, sameContents_rebuild reached available request,
    fun same => ⟨fun bucket => ?_, fun later again => ⟨?_, ?_⟩⟩,
    wellFormed.admissible.bucketCountFor_eq⟩
  · rw [wellFormed.rethread?_eq positive, state]
  · rw [state, bucketCount_rethread]
  · simp only [← home]
    rw [state]
    exact wellFormed.chain_rethread positive bucket
  · rw [state, same]
    exact wellFormed.chain_rethread_bucketCount bucket
  · rw [rebuild_of_reserved again]
  · rw [rebuild_of_reserved again, state, same]
    exact wellFormed.chain_rethread_twice

/-- Three keys on two chains of 32 buckets: with 16 buckets all of them meet on one chain, in the
reverse of their former order, and two rebuilds for 32 buckets leave both chains as they are. -/
theorem chains_of_rebuild_merging :
    let sum : Strategy := fun bytes => bytes.foldl (fun total byte => total + byte.toUInt32) 0
    let options : TableOptions := ⟨32, .half, false, true⟩
    let scarce : Allocator := fun count => count ≤ 32
    let commands : List (Allocator × Command UnsignedInt UnsignedInt) :=
      [(scarce, .insert ⟨1⟩ ⟨10⟩), (scarce, .insertOwned ⟨17⟩ ⟨20⟩), (scarce, .insert ⟨33⟩ ⟨30⟩)]
    let start : Table UnsignedInt UnsignedInt := ofSize sum options 32
    let reached := (start.run commands).state
    let done := reached.rebuild scarce 20
    let once := reached.rebuild scarce 32
    (make scarce sum options).1 = .ok start ∧
      scarce (bucketCountFor 20) ∧ scarce (bucketCountFor 32) ∧
      reached.chain 1 = [⟨2⟩, ⟨0⟩] ∧ reached.chain 17 = [⟨1⟩] ∧
      done.state.bucketCount = 16 ∧
      done.state.chain 1 = [⟨1⟩, ⟨0⟩, ⟨2⟩] ∧
      SameContents reached done.state ∧
      once.state.chain 1 = [⟨0⟩, ⟨2⟩] ∧
      (once.state.rebuild scarce 32).state.chain = reached.chain := by
  intro sum options scarce commands start reached done once
  have made : (make scarce sum options).1 = .ok start := by cbv
  have count : (start.run commands).state.bucketCount = 32 := by cbv
  have first : (start.run commands).state.chain 1 = [⟨2⟩, ⟨0⟩] := by cbv
  have second : (start.run commands).state.chain 17 = [⟨1⟩] := by cbv
  have merged : ((start.run commands).state.rebuild scarce 20).state.chain 1 =
      [⟨1⟩, ⟨0⟩, ⟨2⟩] := by cbv
  obtain ⟨-, -, smaller, -, kept, -, -⟩ := chains_of_rebuild made commands
    (by decide : scarce (bucketCountFor 20))
  have reserved : scarce (bucketCountFor 32) := by decide
  obtain ⟨turned, restored⟩ := (chains_of_rebuild made commands reserved).2.2.2.2.2.1 count.symm
  refine ⟨made, by decide, reserved, first, second, smaller, merged, kept, ?_,
    (restored scarce reserved).2⟩
  rw [turned 1, first]
  rfl

end ChainedMultimap.Table
