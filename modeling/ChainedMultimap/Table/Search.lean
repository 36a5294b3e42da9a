import ChainedMultimap.Table.Basic

/-!
# Finding items

A search reads the chains in which a match can lie: the chain of the key's bucket if a key is given,
and otherwise every chain. Filters that are left out match anything.
-/

namespace ChainedMultimap

variable {K Y : Type} [Storable K]

/-- The buckets in which an item with the given key can lie: the key's own, or all. -/
def Table.scope (table : Table K Y) (key : Option K) : List Nat :=
  match key with
  | none => List.range table.bucketCount
  | some key => [table.home key]

variable [Storable Y]

/-- Whether an item's key and yield pass the given filters. -/
def Item.admittedBy (item : Item K Y) (key : Option K) (yield : Option Y) : Bool :=
  Storable.admits key item.key.value && Storable.admits yield item.yield.value

namespace Table

/-- Whether the item under a handle passes the given filters. -/
def admits (table : Table K Y) (key : Option K) (yield : Option Y) (handle : Handle) : Bool :=
  ((table.items.get? handle).map fun item => item.admittedBy key yield).getD false

/-- The matching items, in the order of the chains in scope. -/
def matching (table : Table K Y) (key : Option K) (yield : Option Y) : List Handle :=
  (table.scope key).flatMap fun bucket => (table.chain bucket).filter (table.admits key yield)

/-- The first matching item. -/
def lookup (table : Table K Y) (key : Option K) (yield : Option Y) : Option Handle :=
  (table.scope key).findSome? fun bucket => (table.chain bucket).find? (table.admits key yield)

/-- Whether an item matches. -/
def contains (table : Table K Y) (key : Option K) (yield : Option Y) : Bool :=
  (table.lookup key yield).isSome

/-- A search finds the first of the matching items. -/
theorem lookup_eq_head? (table : Table K Y) (key : Option K) (yield : Option Y) :
    table.lookup key yield = (table.matching key yield).head? := by
  unfold lookup matching
  induction table.scope key with
  | nil => rfl
  | cons bucket rest ih =>
    rw [List.findSome?_cons, List.flatMap_cons, List.head?_append, List.head?_filter, ← ih]
    cases (table.chain bucket).find? (table.admits key yield) <;> rfl

end Table

end ChainedMultimap
