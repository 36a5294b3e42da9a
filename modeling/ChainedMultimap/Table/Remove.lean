import ChainedMultimap.Table.Search

/-!
# Removing items

An item is removed by linking its neighbours to each other and erasing it from the arena. Removing by
filter removes every match; the bucket array keeps its size.
-/

namespace ChainedMultimap.Table

variable {K Y : Type}

/-- Links the neighbours of an item to each other; a first item gives its place at the head of the
bucket to its successor. -/
def unlink (table : Table K Y) (item : Item K Y) : Table K Y :=
  let forward := match item.prev with
    | some before =>
      { table with items := table.items.modify before fun other =>
          { other with next := item.next } }
    | none => { table with heads := table.heads.setIfInBounds item.bucket item.next }
  match item.next with
  | some behind =>
    { forward with items := forward.items.modify behind fun other =>
        { other with prev := item.prev } }
  | none => forward

/-- Removes the item under a handle and hands back its key and yield as they were held. -/
def removeItem (table : Table K Y) (handle : Handle) : Option (Held K × Held Y) × Table K Y :=
  match table.items.get? handle with
  | none => (none, table)
  | some item =>
    let unlinked := table.unlink item
    (some (item.key, item.yield), { unlinked with items := unlinked.items.erase handle })

/-- Removes the item under a handle. -/
def discard (table : Table K Y) (handle : Handle) : Table K Y := (table.removeItem handle).2

variable [Storable K] [Storable Y]

/-- Removes every matching item and answers how many there were. -/
def remove (table : Table K Y) (key : Option K) (yield : Option Y) : Nat × Table K Y :=
  let found := table.matching key yield
  (found.length, found.foldl discard table)

/-- Removes every item. -/
def reset (table : Table K Y) : Table K Y := (table.remove none none).2

/-- Gives up a table, leaving only the record of it. -/
def destroy (table : Table K Y) : List LogRecord := [.tableDestroyed table.reset.bucketCount]

end ChainedMultimap.Table
