import ChainedMultimap.Table.Basic

/-!
# Walking through a table

A walk goes from an item to the next one. Without a key it goes through all chains, first bucket
first. With a key it starts at the first item with that key in the chain of the key's bucket, and ends
before the first item with another key. The number of items bounds a walk.
-/

namespace ChainedMultimap.Table

variable {K Y : Type}

/-- The first item of the first chain that is not empty, from a bucket on. -/
def firstFrom (table : Table K Y) (bucket : Nat) : Option Handle :=
  if bucket < table.bucketCount then
    match table.head? bucket with
    | some handle => some handle
    | none => table.firstFrom (bucket + 1)
  else none
termination_by table.bucketCount - bucket

variable [Storable K]

/-- Whether the item under a handle has the given key. -/
def hasKey (table : Table K Y) (key : K) (handle : Handle) : Bool :=
  ((table.key? handle).map (Storable.same key)).getD false

/-- Where a walk starts: at the first item of all, or at the first item with the key in the chain of
the key's bucket. -/
def first (table : Table K Y) (key : Option K) : Option Handle :=
  match key with
  | none => table.firstFrom 0
  | some wanted => (table.chain (table.home wanted)).find? (table.hasKey wanted)

/-- Where a walk goes from an item: to the next item of the chain, which ends a keyed walk if it has
another key. At the end of a chain a keyed walk ends too, and any other goes on with the following
buckets. From a handle that names no item there is nowhere to go. -/
def after (table : Table K Y) (handle : Handle) (key : Option K) : Option Handle :=
  match table.items.get? handle with
  | none => none
  | some item =>
    match item.next, key with
    | some next, none => some next
    | some next, some wanted => if table.hasKey wanted next then some next else none
    | none, none => table.firstFrom (item.bucket + 1)
    | none, some _ => none

/-- The next item of a walk: its start if there is no current item. -/
def next (table : Table K Y) (current : Option Handle) (key : Option K) : Option Handle :=
  match current with
  | none => table.first key
  | some handle => table.after handle key

/-- The items of a walk from a current item on, at most `count` of them. -/
def walkUpTo (table : Table K Y) (key : Option K) : Nat → Option Handle → List Handle
  | 0, _ => []
  | count + 1, current =>
    match table.next current key with
    | none => []
    | some handle => handle :: table.walkUpTo key count (some handle)

/-- The items of a walk from a current item on. -/
def walk (table : Table K Y) (current : Option Handle) (key : Option K) : List Handle :=
  table.walkUpTo key table.size current

/-- The number of items on the walk for a key. -/
def walkLength (table : Table K Y) (key : Option K) : Nat := (table.walk none key).length

/-- A position in the walk through all items. -/
structure Cursor where
  /-- The item reached last. -/
  current : Option Handle
  /-- Whether the walk has ended. -/
  ended : Bool

namespace Cursor

/-- Before the first item. -/
def start : Cursor := ⟨none, false⟩

/-- Moves to the next item, if there is one; once a walk has ended it stays ended. -/
def advance (cursor : Cursor) (table : Table K Y) : Option Handle × Cursor :=
  if cursor.ended then (none, cursor)
  else match table.next cursor.current none with
    | some handle => (some handle, ⟨some handle, false⟩)
    | none => (none, { cursor with ended := true })

/-- The answers of `count` moves, and the position after them. -/
def advances (table : Table K Y) : Nat → Cursor → List (Option Handle) × Cursor
  | 0, cursor => ([], cursor)
  | count + 1, cursor =>
    let (reached, cursor) := cursor.advance table
    let (others, cursor) := advances table count cursor
    (reached :: others, cursor)

/-- The items from a position to the end of the walk, at most `count` of them. -/
def itemsUpTo (table : Table K Y) : Nat → Cursor → List Handle
  | 0, _ => []
  | count + 1, cursor =>
    match cursor.advance table with
    | (none, _) => []
    | (some handle, cursor) => handle :: itemsUpTo table count cursor

/-- A walk that has ended stays ended. -/
theorem advance_of_ended {cursor : Cursor} (ended : cursor.ended) (table : Table K Y) :
    cursor.advance table = (none, cursor) := by
  simp [advance, ended]

end Cursor

/-- All items in the order of the walk, with their keys and yields. -/
def toList (table : Table K Y) : List (Handle × K × Y) :=
  (Cursor.itemsUpTo table table.size .start).filterMap fun handle =>
    (table.get? handle).map fun pair => (handle, pair)

end ChainedMultimap.Table
