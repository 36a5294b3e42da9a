import ChainedMultimap.Table.Insert
import ChainedMultimap.Table.Remove
import ChainedMultimap.Table.Walk

/-!
# Checked operations

The operations on chains once more, one access at a time and changing the table while they walk it.
An access to an item or to a bucket that does not exist has no result, and neither has a loop over a
chain that has not ended after as many steps as the table has items, or a growth that has not stopped
after a given number of doublings. On a table whose links are in order every checked operation has a
result, the one of the operation it checks.
-/

namespace ChainedMultimap.Table

variable {K Y : Type}

/-- Reads a chain from a start on, following links to the end, which must come within `count`
steps. -/
def follow? (items : Arena (Item K Y)) : Nat → Option Handle → Option (List Handle)
  | _, none => some []
  | 0, some _ => none
  | count + 1, some handle => do
    let item ← items.get? handle
    let behind ← follow? items count item.next
    return handle :: behind

/-- Reads the chain of a bucket of the bucket array. -/
def chain? (table : Table K Y) (bucket : Nat) : Option (List Handle) := do
  let head ← table.heads[bucket]?
  follow? table.items table.size head

/-- Puts an existing item in front of the chain of a bucket of the bucket array, whose former first
item must exist. -/
def pushFront? (table : Table K Y) (handle : Handle) (bucket : Nat) : Option (Table K Y) := do
  let head ← table.heads[bucket]?
  let _ ← table.items.get? handle
  if let some former := head then
    let _ ← table.items.get? former
  return table.pushFront handle bucket

/-- Links the neighbours of an item to each other. The neighbours must exist, and so must the bucket
of a first item. -/
def unlink? (table : Table K Y) (item : Item K Y) : Option (Table K Y) := do
  match item.prev with
  | some before => let _ ← table.items.get? before
  | none => let _ ← table.heads[item.bucket]?
  if let some behind := item.next then
    let _ ← table.items.get? behind
  return table.unlink item

variable [Storable K]

/-- Stores a pair under the fresh handle, in front of the chain of the key's bucket. -/
def link? (table : Table K Y) (key : Held K) (yield : Held Y) : Option (Table K Y) :=
  let bucket := table.home key.value
  let items := table.items.add ⟨key, yield, none, none, bucket⟩
  { table with items := items }.pushFront? table.items.fresh bucket

/-- Moves the items of an old chain, from a start on, to the front of the chains of their keys'
buckets. The link to the next item is read before the item is moved, and the last one must come within
`count` steps. -/
def moveChain? (table : Table K Y) : Nat → Option Handle → Option (Table K Y)
  | _, none => some table
  | 0, some _ => none
  | count + 1, some handle => do
    let item ← table.items.get? handle
    let moved ← table.pushFront? handle (table.home item.key.value)
    moved.moveChain? count item.next

/-- Replaces the bucket array by an empty one and moves the items into it, walking the chains of the
old array in turn. -/
def rethread? (table : Table K Y) (buckets : Nat) : Option (Table K Y) :=
  (List.range table.bucketCount).foldlM
    (fun moved bucket => do
      let head ← table.heads[bucket]?
      moved.moveChain? table.size head)
    { table with heads := Array.replicate buckets none, mask := buckets - 1 }

/-- Doubles the buckets until the table is no longer crowded, has the largest bucket array, or cannot
reserve the next one, which must come to pass within `count` doublings. -/
def grow? (allows : Allocator) (count : Nat) (table : Table K Y) :
    Option (Outcome (Table K Y) (Except TableError Unit)) :=
  if table.isCrowded then
    if maxBuckets ≤ table.bucketCount then
      some ⟨.ok (), table, [.tableAtMaximum table.bucketCount]⟩
    else
      match count with
      | 0 => none
      | count + 1 =>
        let doubled := table.rebuild allows (2 * table.bucketCount)
        match doubled.answer with
        | .error failure => some ⟨.error failure, doubled.state, doubled.log⟩
        | .ok () => (doubled.state.grow? allows count).map fun grown =>
          { grown with log := doubled.log ++ grown.log }
  else some ⟨.ok (), table, []⟩

/-- Whether an item that a keyed walk has reached has the wanted key; the item must exist. -/
def hasKey? (table : Table K Y) (key : K) (handle : Handle) : Option Bool := do
  let item ← table.items.get? handle
  return Storable.same key item.key.value

/-- The next item of a walk, or none at its end. -/
def next? (table : Table K Y) (current : Option Handle) (key : Option K) :
    Option (Option Handle) :=
  match current with
  | none =>
    match key with
    | none => some (table.firstFrom 0)
    | some wanted => do
      let chain ← table.chain? (table.home wanted)
      return chain.find? (table.hasKey wanted)
  | some handle =>
    match table.items.get? handle with
    | none => some none
    | some item =>
      match item.next, key with
      | some next, none => some (some next)
      | some next, some wanted => do
        let matching ← table.hasKey? wanted next
        return if matching then some next else none
      | none, none => some (table.firstFrom (item.bucket + 1))
      | none, some _ => some none

/-- Moves a cursor to the next item, if there is one; the item reached must exist. -/
def Cursor.advance? (cursor : Cursor) (table : Table K Y) : Option (Option Handle × Cursor) :=
  if cursor.ended then some (none, cursor)
  else do
    match ← table.next? cursor.current none with
    | some handle =>
      let _ ← table.items.get? handle
      return (some handle, ⟨some handle, false⟩)
    | none => return (none, { cursor with ended := true })

variable [Storable Y]

/-- Removes the matching items of a chain from a start on, adding their number to `removed`. The link
to the next item is read before the item is removed, and the last one must come within `count`
steps. -/
def sweep? (key : Option K) (yield : Option Y) (removed : Nat) (table : Table K Y) :
    Nat → Option Handle → Option (Nat × Table K Y)
  | _, none => some (removed, table)
  | 0, some _ => none
  | count + 1, some handle => do
    let item ← table.items.get? handle
    if item.admittedBy key yield then
      let unlinked ← table.unlink? item
      let left := { unlinked with items := unlinked.items.erase handle }
      sweep? key yield (removed + 1) left count item.next
    else sweep? key yield removed table count item.next

/-- Removes every matching item, walking the chains in scope in turn, and answers how many there
were. -/
def remove? (table : Table K Y) (key : Option K) (yield : Option Y) : Option (Nat × Table K Y) :=
  (table.scope key).foldlM
    (fun (removed, table) bucket => do
      let head ← table.heads[bucket]?
      sweep? key yield removed table table.size head)
    (0, table)

end ChainedMultimap.Table
