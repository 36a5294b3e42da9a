import ChainedMultimap.Proofs.Lawful
import ChainedMultimap.Proofs.WellFormed

/-!
# What a search finds

On a well-formed table a search finds handles of items that match, each once. With lawful keys it
finds all of them, although with a key filter it reads one chain alone: items with the same key are
on the same chain.
-/

namespace ChainedMultimap.Table

variable {K Y : Type} [Storable K] {table : Table K Y} {handle : Handle} {key : Option K}
  {yield : Option Y}

/-- Keys that are the same have the same bucket. -/
theorem home_congr [LawfulStorable K] (table : Table K Y) {left right : K} (equal : Storable.same left right) :
    table.home left = table.home right := by
  rw [home, home, Storable.same_iff_marshal.mp equal]

variable [Storable Y]

/-- Whether a handle is admitted depends on the pair it names alone. -/
theorem admits_eq_held? (table : Table K Y) (key : Option K) (yield : Option Y) (handle : Handle) :
    table.admits key yield handle = ((table.held? handle).map fun pair =>
      Storable.admits key pair.1.value && Storable.admits yield pair.2.value).getD false := by
  simp [admits, held?, Item.admittedBy, Function.comp_def]

/-- Whether a handle passes the filters is read off the pair that it finds. -/
theorem admits_eq_get? (table : Table K Y) (key : Option K) (yield : Option Y) (handle : Handle) :
    table.admits key yield handle = ((table.get? handle).map fun pair =>
      Storable.admits key pair.1 && Storable.admits yield pair.2).getD false := by
  simp [admits, get?, Item.admittedBy, Function.comp_def]

/-- A handle passes the filters exactly if it finds a pair that does. -/
theorem admits_iff : table.admits key yield handle ↔
    ∃ pair, table.held? handle = some pair ∧ Storable.admits key pair.1.value ∧
      Storable.admits yield pair.2.value := by
  rw [admits_eq_held?]
  cases table.held? handle <;> simp

/-- A handle that stays is admitted as before. -/
theorem admits_foldl_discard {order : List Handle} (stays : handle ∉ order) :
    (order.foldl discard table).admits key yield handle = table.admits key yield handle := by
  rw [admits_eq_held?, admits_eq_held?, held?_foldl_discard, if_neg stays]

/-- Handles beside a discarded one are admitted as before. -/
theorem filter_admits_discard {handles : List Handle} (absent : handle ∉ handles) :
    handles.filter ((table.discard handle).admits key yield) =
      handles.filter (table.admits key yield) := by
  apply List.filter_congr
  intro other member
  have stays : handle ≠ other := by
    rintro rfl
    exact absent member
  rw [admits_eq_held?, admits_eq_held?, held?_discard, if_neg stays]

/-- A search without a key filter reads all chains in turn. -/
theorem matching_none (table : Table K Y) (yield : Option Y) :
    table.matching none yield = table.handles.filter (table.admits none yield) := by
  rw [matching, scope, handles, List.filter_flatMap]

/-- A search finds handles on the chains in scope that are admitted. -/
theorem mem_matching : handle ∈ table.matching key yield ↔
    (∃ bucket ∈ table.scope key, handle ∈ table.chain bucket) ∧
      table.admits key yield handle := by
  simp only [matching, List.mem_flatMap, List.mem_filter]
  constructor
  · rintro ⟨bucket, inScope, member, admitted⟩
    exact ⟨⟨bucket, inScope, member⟩, admitted⟩
  · rintro ⟨⟨bucket, inScope, member⟩, admitted⟩
    exact ⟨bucket, inScope, member, admitted⟩

namespace WellFormed

/-- What a search matches is in the table. -/
theorem mem_handles_of_mem_matching (wellFormed : table.WellFormed)
    (found : handle ∈ table.matching key yield) : handle ∈ table.handles := by
  obtain ⟨⟨bucket, _, member⟩, _⟩ := mem_matching.mp found
  exact wellFormed.threads.mem_handles.mpr ⟨bucket, member⟩

/-- A search finds no handle twice. -/
theorem nodup_matching (wellFormed : table.WellFormed) (key : Option K) (yield : Option Y) :
    (table.matching key yield).Nodup := by
  cases key with
  | none =>
    rw [matching_none]
    exact wellFormed.threads.nodup_handles.filter _
  | some wanted =>
    simpa [matching, scope] using (wellFormed.threads.distinct (table.home wanted)).filter _

end WellFormed

/-- What a search answers passes its filters. -/
theorem admits_of_lookup (found : table.lookup key yield = some handle) :
    table.admits key yield handle := by
  rw [lookup_eq_head?] at found
  exact (mem_matching.mp (List.mem_of_mem_head? found)).2

variable [LawfulStorable K]

/-- A search finds every match in the table. -/
theorem WellFormed.mem_matching_iff (wellFormed : table.WellFormed) :
    handle ∈ table.matching key yield ↔ table.admits key yield handle := by
  refine ⟨fun found => (mem_matching.mp found).2, fun admitted => ?_⟩
  refine mem_matching.mpr ⟨?_, admitted⟩
  obtain ⟨pair, held, keyAdmitted, _⟩ := admits_iff.mp admitted
  have known : table.key? handle = some pair.1.value := by simp [key?_eq_map_held?, held]
  have placed := wellFormed.placed known
  cases key with
  | none => exact ⟨_, List.mem_range.mpr (wellFormed.home_lt _), placed⟩
  | some wanted =>
    rw [← table.home_congr keyAdmitted] at placed
    exact ⟨_, List.mem_singleton_self _, placed⟩

/-- A search answers a handle exactly if a match is stored. -/
theorem WellFormed.isSome_lookup (wellFormed : table.WellFormed) :
    (table.lookup key yield).isSome ↔ ∃ handle, table.admits key yield handle := by
  rw [lookup_eq_head?, List.isSome_head?, ← List.length_pos_iff, List.length_pos_iff_exists_mem]
  exact exists_congr fun _ => wellFormed.mem_matching_iff

end ChainedMultimap.Table
