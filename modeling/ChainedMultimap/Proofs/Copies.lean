import ChainedMultimap.Proofs.Growth
import ChainedMultimap.Table.Walk
import Mathlib

/-!
# Tables as if they held copies alone

A table can be read as if every key and yield in it were its own copy. No operation looks at how a
value is held: it does to that reading what it does to the table, gives the same answers but for how
the values in them are held, and logs the same. So do whole runs. Tables with the same reading
therefore cannot be told apart by any search or walk, and stay so.
-/

namespace ChainedMultimap

/-- The value as the table's own copy. -/
def Held.copied {α : Type} (held : Held α) : Held α := .owned held.value

/-- A copy reads as the value it was taken of. -/
@[simp] theorem Held.value_copied {α : Type} (held : Held α) : held.copied.value = held.value := by
  rw [copied, value]

/-! ## Arenas -/

namespace Arena

variable {α β : Type}

/-- Changes every value. -/
def map (change : α → β) (arena : Arena α) : Arena β where
  slots := arena.slots.map (Option.map change)
  size := arena.size
  size_eq := by
    have taken : Option.isSome ∘ Option.map change = Option.isSome := by
      funext slot
      cases slot <;> rfl
    rw [arena.size_eq, Array.countP_map, taken]

/-- Arenas that have given out the same handles and find the same under all of them are one. -/
theorem eq_of_get? {left right : Arena α} (fresh : left.fresh = right.fresh)
    (same : ∀ handle, left.get? handle = right.get? handle) : left = right := by
  have slots : left.slots = right.slots := by
    have size : left.slots.size = right.slots.size := congrArg Handle.index fresh
    apply Array.ext size
    intro place inside inside'
    have found := same ⟨place⟩
    rwa [get?, get?, Array.getElem?_eq_getElem inside, Array.getElem?_eq_getElem inside',
      Option.join_some, Option.join_some] at found
  obtain ⟨places, count, count_eq⟩ := left
  obtain ⟨places', count', count_eq'⟩ := right
  obtain rfl : places = places' := slots
  obtain rfl : count = count' := count_eq.trans count_eq'.symm
  rfl

/-- Under a handle of a changed arena there is the changed value. -/
@[simp] theorem get?_map (change : α → β) (arena : Arena α) (handle : Handle) :
    (arena.map change).get? handle = (arena.get? handle).map change := by
  rw [get?, map, Array.getElem?_map, get?]
  cases arena.slots[handle.index]? <;> rfl

/-- Changing every value gives out no handle and takes none back. -/
@[simp] theorem fresh_map (change : α → β) (arena : Arena α) :
    (arena.map change).fresh = arena.fresh := by
  simp [fresh, map]

/-- Adding a changed value is changing what an addition leaves. -/
theorem add_map (change : α → β) (arena : Arena α) (value : α) :
    (arena.map change).add (change value) = (arena.add value).map change := by
  apply eq_of_get? (by simp)
  intro handle
  rw [get?_add, get?_map, get?_map, get?_add, fresh_map]
  split <;> rfl

/-- Erasing from a changed arena is changing what an erasure leaves. -/
theorem erase_map (change : α → β) (arena : Arena α) (handle : Handle) :
    (arena.map change).erase handle = (arena.erase handle).map change := by
  apply eq_of_get? (by simp)
  intro other
  rw [get?_erase, get?_map, get?_map, get?_erase]
  split <;> rfl

end Arena

/-! ## The reading -/

variable {K Y : Type}

/-- The item as if it held copies. -/
def Item.copied (item : Item K Y) : Item K Y :=
  { item with key := item.key.copied, yield := item.yield.copied }

/-- What a command asks for, with its pair moved into the table. -/
def Command.copied : Command K Y → Command K Y
  | .insert key yield => .insertOwned key yield
  | other => other

/-- The reply with what is handed back as copies. -/
def Reply.copied : Reply K Y → Reply K Y
  | .handedBack pair => .handedBack (pair.map fun pair => (pair.1.copied, pair.2.copied))
  | other => other

namespace Table

variable {table : Table K Y}

/-- The table as if all it holds and ever inserts were copies. -/
def copied (table : Table K Y) : Table K Y :=
  { table with items := table.items.map Item.copied, copyKeys := true, copyYields := true }

/-! ## What can be read off a table -/

/-- The reading has the same buckets. -/
@[simp] theorem bucketCount_copied (table : Table K Y) :
    table.copied.bucketCount = table.bucketCount := rfl

/-- The reading has as many items. -/
@[simp] theorem size_copied (table : Table K Y) : table.copied.size = table.size := rfl

/-- The chains of the reading start at the same items. -/
@[simp] theorem head?_copied (table : Table K Y) (bucket : Nat) :
    table.copied.head? bucket = table.head? bucket := rfl

/-- The reading has the copied item under every handle. -/
@[simp] theorem get?_items_copied (table : Table K Y) (handle : Handle) :
    table.copied.items.get? handle = (table.items.get? handle).map Item.copied :=
  Arena.get?_map Item.copied table.items handle

/-- Following links does not look at how values are held. -/
theorem follow_copied (items : Arena (Item K Y)) (count : Nat) (start : Option Handle) :
    follow (items.map Item.copied) count start = follow items count start := by
  induction count generalizing start with
  | zero => rfl
  | succ count ih =>
    cases start with
    | none => rfl
    | some handle =>
      rw [follow, follow, Arena.get?_map]
      cases items.get? handle with
      | none => rfl
      | some item => exact congrArg (handle :: ·) (ih item.next)

/-- The reading has the same chains. -/
@[simp] theorem chain_copied (table : Table K Y) : table.copied.chain = table.chain := by
  funext bucket
  exact follow_copied table.items table.size (table.head? bucket)

/-- The reading has the same handles, in the same order. -/
@[simp] theorem handles_copied (table : Table K Y) : table.copied.handles = table.handles := by
  rw [handles, chain_copied, bucketCount_copied, handles]

/-- The chains of the reading are as long. -/
@[simp] theorem chainLength_copied (table : Table K Y) :
    table.copied.chainLength = table.chainLength := by
  funext bucket
  rw [chainLength, chain_copied, bucketCount_copied, chainLength]

/-- Every handle finds the same pair in the reading. -/
@[simp] theorem get?_copied (table : Table K Y) : table.copied.get? = table.get? := by
  funext handle
  rw [get?, get?_items_copied, Option.map_map, get?]
  rfl

/-- Every handle finds the same key in the reading. -/
@[simp] theorem key?_copied (table : Table K Y) : table.copied.key? = table.key? := by
  funext handle
  rw [key?, get?_copied, key?]

/-- Every handle finds the same yield in the reading. -/
@[simp] theorem yield?_copied (table : Table K Y) : table.copied.yield? = table.yield? := by
  funext handle
  rw [yield?, get?_copied, yield?]

/-- Every handle finds the same bucket in the reading. -/
@[simp] theorem bucket?_copied (table : Table K Y) : table.copied.bucket? = table.bucket? := by
  funext handle
  rw [bucket?, get?_items_copied, Option.map_map, bucket?]
  rfl

/-! ## Operations on links -/

/-- A table is the reading of another if it has the same buckets and choices, copies everything, and
holds the copied items. -/
theorem eq_copied {reading : Table K Y} (strategy : reading.strategy = table.strategy)
    (heads : reading.heads = table.heads) (mask : reading.mask = table.mask)
    (ratio : reading.ratio = table.ratio) (copyKeys : reading.copyKeys)
    (copyYields : reading.copyYields) (fresh : reading.items.fresh = table.items.fresh)
    (items : ∀ handle, reading.items.get? handle = (table.items.get? handle).map Item.copied) :
    reading = table.copied := by
  have held : reading.items = table.items.map Item.copied := by
    apply Arena.eq_of_get? (by rw [fresh, Arena.fresh_map])
    intro handle
    rw [items, Arena.get?_map]
  obtain ⟨_, _, _, _, _, _, _⟩ := reading
  dsimp only at *
  subst strategy heads mask ratio held
  rw [copied, copyKeys, copyYields]

/-- Putting an item in front of a chain does not look at how values are held. -/
theorem pushFront_copied (table : Table K Y) (handle : Handle) (bucket : Nat) :
    table.copied.pushFront handle bucket = (table.pushFront handle bucket).copied := by
  apply eq_copied
  iterate 6 rfl
  · rw [(sameContents_pushFront _ handle bucket).fresh,
      (sameContents_pushFront table handle bucket).fresh]
    exact Arena.fresh_map _ _
  · intro other
    rw [items_pushFront, items_pushFront, get?_items_copied, Option.map_map, Option.map_map]
    rfl

/-- Neither does unlinking an item. -/
theorem unlink_copied (table : Table K Y) (item : Item K Y) :
    table.copied.unlink item.copied = (table.unlink item).copied := by
  -- Which heads and links change depends on the item's own links, which its reading keeps.
  have kept := sameBuckets_unlink table.copied item.copied
  have kept' := sameBuckets_unlink table item
  apply eq_copied
  · rw [kept.strategy, kept'.strategy]
    rfl
  · obtain ⟨_, _, prev, next, _⟩ := item
    cases prev <;> cases next <;> rfl
  · rw [kept.mask, kept'.mask]
    rfl
  · rw [kept.ratio, kept'.ratio]
    rfl
  · exact kept.copyKeys
  · exact kept.copyYields
  · rw [(sameContents_unlink _ item.copied).fresh, (sameContents_unlink table item).fresh]
    exact Arena.fresh_map _ _
  · intro other
    rw [items_unlink, items_unlink, get?_items_copied, Option.map_map, Option.map_map]
    rfl

/-- What the reading holds under a handle is a copy of what the table holds. -/
theorem held?_copied (table : Table K Y) (handle : Handle) : table.copied.held? handle =
    (table.held? handle).map fun pair => (pair.1.copied, pair.2.copied) := by
  rw [held?, get?_items_copied, Option.map_map, held?, Option.map_map]
  rfl

/-- Discarding an item does not look at how values are held. -/
theorem discard_copied (table : Table K Y) (handle : Handle) :
    table.copied.discard handle = (table.discard handle).copied := by
  unfold discard removeItem
  rw [get?_items_copied]
  cases table.items.get? handle with
  | none => rfl
  | some item =>
    rw [Option.map_some]
    dsimp only
    rw [unlink_copied]
    exact congrArg (fun items => { (table.unlink item).copied with items := items })
      (Arena.erase_map Item.copied _ handle)

/-- Neither does discarding a list of items. -/
theorem foldl_discard_copied (table : Table K Y) (order : List Handle) :
    order.foldl discard table.copied = (order.foldl discard table).copied := by
  induction order generalizing table with
  | nil => rfl
  | cons handle rest ih => rw [List.foldl_cons, discard_copied, ih, List.foldl_cons]

/-- Nor does writing a yield, which answers the same and leaves a copy in both. -/
theorem updateYield_copied (table : Table K Y) (handle : Handle) (change : Y → Y) :
    table.copied.updateYield handle change =
      ((table.updateYield handle change).1, (table.updateYield handle change).2.copied) := by
  apply Prod.ext
  · simp [updateYield]
  · apply eq_copied
    iterate 6 rfl
    · simp [updateYield, copied]
    · intro other
      simp only [updateYield, Arena.get?_modify, get?_items_copied]
      split
      · cases table.items.get? other <;> rfl
      · rfl

/-! ## Searches -/

section Searching

variable [Storable K]

/-- Every key has the same home in the reading. -/
@[simp] theorem home_copied (table : Table K Y) : table.copied.home = table.home := rfl

/-- A search of the reading looks at the same buckets. -/
@[simp] theorem scope_copied (table : Table K Y) : table.copied.scope = table.scope := rfl

variable [Storable Y]

/-- The same handles pass a filter in the reading. -/
@[simp] theorem admits_copied (table : Table K Y) : table.copied.admits = table.admits := by
  funext key yield handle
  rw [admits, get?_items_copied, Option.map_map, admits]
  rfl

/-- A filter matches the same handles in the reading. -/
@[simp] theorem matching_copied (table : Table K Y) : table.copied.matching = table.matching := by
  funext key yield
  rw [matching, scope_copied, chain_copied, admits_copied, matching]

/-- A search of the reading finds the same handle. -/
@[simp] theorem lookup_copied (table : Table K Y) : table.copied.lookup = table.lookup := by
  funext key yield
  rw [lookup, scope_copied, chain_copied, admits_copied, lookup]

/-- The reading stores the same pairs. -/
@[simp] theorem contains_copied (table : Table K Y) : table.copied.contains = table.contains := by
  funext key yield
  rw [contains, lookup_copied, contains]

end Searching

/-! ## Walks -/

section Walking

/-- The first item from a bucket on is the same in the reading. -/
@[simp] theorem firstFrom_copied (table : Table K Y) (bucket : Nat) :
    table.copied.firstFrom bucket = table.firstFrom bucket := by
  fun_induction firstFrom table bucket with
  | case1 bucket inside handle head =>
    rw [firstFrom, bucketCount_copied, if_pos inside, head?_copied, head]
  | case2 bucket inside head ih =>
    rw [firstFrom, bucketCount_copied, if_pos inside, head?_copied, head]
    exact ih
  | case3 bucket outside => rw [firstFrom, bucketCount_copied, if_neg outside]

variable [Storable K]

/-- The same items have a key in the reading. -/
@[simp] theorem hasKey_copied (table : Table K Y) : table.copied.hasKey = table.hasKey := by
  funext key handle
  rw [hasKey, key?_copied, hasKey]

/-- A walk of the reading steps to the same item. -/
@[simp] theorem next_copied (table : Table K Y) : table.copied.next = table.next := by
  funext current key
  cases current with
  | none =>
    cases key with
    | none => exact table.firstFrom_copied 0
    | some wanted =>
      simp only [next, first]
      rw [home_copied, chain_copied, hasKey_copied]
  | some handle =>
    simp only [next, after]
    rw [get?_items_copied]
    cases table.items.get? handle with
    | none => rfl
    | some item =>
      rw [Option.map_some, Item.copied]
      simp only [hasKey_copied, firstFrom_copied]

/-- A walk of the reading comes past the same items. -/
@[simp] theorem walk_copied (table : Table K Y) : table.copied.walk = table.walk := by
  funext current key
  rw [walk, walk, size_copied]
  induction table.size generalizing current with
  | zero => rfl
  | succ count ih =>
    simp only [walkUpTo, next_copied]
    split
    · rfl
    · rw [ih]

/-- A walk of the reading is as long. -/
@[simp] theorem walkLength_copied (table : Table K Y) :
    table.copied.walkLength = table.walkLength := by
  funext key
  rw [walkLength, walk_copied, walkLength]

/-- The reading lists the same pairs in the same order. -/
@[simp] theorem toList_copied (table : Table K Y) : table.copied.toList = table.toList := by
  have items (count : Nat) (cursor : Cursor) :
      Cursor.itemsUpTo table.copied count cursor = Cursor.itemsUpTo table count cursor := by
    induction count generalizing cursor with
    | zero => rfl
    | succ count ih => simp only [Cursor.itemsUpTo, Cursor.advance, next_copied, ih]
  rw [toList, items, size_copied, get?_copied, toList]

end Walking

/-! ## Growing -/

section Growing

variable [Storable K]

/-- Threading an item into its home bucket does not look at how values are held. -/
theorem pushHome_copied (table : Table K Y) (handle : Handle) :
    table.copied.pushHome handle = (table.pushHome handle).copied := by
  rw [pushHome, key?_copied, pushHome]
  cases table.key? handle with
  | none => rfl
  | some key => exact pushFront_copied table handle (table.home key)

/-- Neither does threading all items anew. -/
theorem rethread_copied (table : Table K Y) (buckets : Nat) (order : List Handle) :
    table.copied.rethread buckets order = (table.rethread buckets order).copied := by
  have each (start : Table K Y) :
      order.foldl pushHome start.copied = (order.foldl pushHome start).copied := by
    induction order generalizing start with
    | nil => rfl
    | cons handle rest ih =>
      rw [List.foldl_cons, pushHome_copied, ih, List.foldl_cons]
  exact each (table.emptied buckets)

/-- A rebuild of the reading answers and logs what that of the table does and leaves its reading. -/
theorem rebuild_copied (table : Table K Y) (allows : Allocator) (request : Nat) :
    table.copied.rebuild allows request = (table.rebuild allows request).map copied id := by
  rw [rebuild, handles_copied, rethread_copied, bucketCount_copied, rebuild]
  split <;> rfl

/-- The reading of a doubled table is the doubled reading. -/
theorem doubled_copied (table : Table K Y) : table.copied.doubled = table.doubled.copied := by
  rw [doubled, handles_copied, rethread_copied, bucketCount_copied, doubled]

/-- Growing the reading answers and logs what growing the table does and leaves its reading. -/
theorem grow_copied (table : Table K Y) (allows : Allocator) :
    table.copied.grow allows = (table.grow allows).map copied id := by
  induction table using @grow_induction K Y _ allows with
  | calm table calm =>
    have still : ¬table.copied.isCrowded := calm
    rw [grow_of_calm calm, grow_of_calm still]
    rfl
  | full table crowded full =>
    have still : table.copied.isCrowded := crowded
    have atLimit : maxBuckets ≤ table.copied.bucketCount := full
    rw [grow_of_full crowded full, grow_of_full still atLimit]
    rfl
  | refused table crowded below refused =>
    have still : table.copied.isCrowded := crowded
    have inside : ¬maxBuckets ≤ table.copied.bucketCount := below
    rw [grow_of_refused crowded below refused, grow_of_refused still inside refused]
    rfl
  | reserved table crowded below reserved ih =>
    have still : table.copied.isCrowded := crowded
    have inside : ¬maxBuckets ≤ table.copied.bucketCount := below
    rw [grow_eq_of_reserved crowded below reserved, grow_eq_of_reserved still inside reserved,
      doubled_copied, ih]
    rfl

/-- Linking the copies of a pair gives the reading of the table with the pair linked. -/
theorem link_copied (table : Table K Y) (key : Held K) (yield : Held Y) :
    table.copied.link key.copied yield.copied = (table.link key yield).copied := by
  have added :=
    Arena.add_map Item.copied table.items ⟨key, yield, none, none, table.home key.value⟩
  rw [link, link, ← pushFront_copied]
  simp only [copied, Arena.fresh_map, ← added]
  rfl

end Growing

/-! ## Commands -/

section Commands

variable [Storable K] [Storable Y]

/-- Inserting copies into the reading answers and logs as the insert does and leaves its reading. -/
theorem insertHeld_copied (table : Table K Y) (allows : Allocator) (key : Held K) (yield : Held Y) :
    table.copied.insertHeld allows key.copied yield.copied =
      (table.insertHeld allows key yield).map copied id := by
  have same : table.copied.contains (some key.copied.value) (some yield.copied.value) =
      table.contains (some key.value) (some yield.value) := by simp
  -- The reading finds the pair stored, or fails to grow, exactly if the table does.
  have growth := table.grow_copied allows
  have answer : (table.copied.grow allows).answer = (table.grow allows).answer := by
    rw [growth]
    rfl
  obtain ⟨stored, outcome⟩ | ⟨new, failure, failed, outcome⟩ | ⟨new, succeeded, outcome⟩ :=
    table.insertHeld_cases allows key yield
  · rw [outcome, insertHeld_of_stored (same.trans stored)]
    rfl
  · rw [outcome, insertHeld_of_failed (same.trans new) (answer.trans failed), growth]
    rfl
  · rw [outcome, insertHeld_of_grown (same.trans new) (answer.trans succeeded), growth]
    simp only [Outcome.map, link_copied, id]
    rw [copied, Arena.fresh_map]

/-- A removal from the reading removes as many items and leaves the reading of what is left. -/
theorem remove_copied (table : Table K Y) (key : Option K) (yield : Option Y) :
    table.copied.remove key yield =
      ((table.remove key yield).1, (table.remove key yield).2.copied) := by
  rw [remove, matching_copied, foldl_discard_copied, remove]

/-- Whatever the reading of a table is told, it does as the table, but for how values are held. -/
theorem perform_copied (table : Table K Y) (allows : Allocator) (command : Command K Y) :
    table.copied.perform allows command.copied =
      (table.perform allows command).map copied Reply.copied := by
  have inserts (key : Held K) (yield : Held Y) :
      let done := table.copied.insertHeld allows key.copied yield.copied
      let reference := table.insertHeld allows key yield
      (⟨.inserted done.answer, done.state, done.log⟩ : Outcome (Table K Y) (Reply K Y)) =
        Outcome.map copied Reply.copied
          ⟨.inserted reference.answer, reference.state, reference.log⟩ := by
    rw [insertHeld_copied]
    rfl
  cases command with
  | insert key yield =>
    have made := inserts (.of table.copyKeys key) (.of table.copyYields yield)
    rw [Held.copied, Held.copied, Held.value_of, Held.value_of] at made
    exact made
  | insertOwned key yield => exact inserts (.owned key) (.owned yield)
  | remove key yield =>
    simp only [Command.copied, perform, remove_copied]
    rfl
  | removeItem handle =>
    have answer : (table.copied.removeItem handle).1 = _ := removeItem_answer table.copied handle
    have state : (table.copied.removeItem handle).2 = _ := table.discard_copied handle
    simp only [Command.copied, perform, answer, state, held?_copied]
    rw [← removeItem_answer]
    rfl
  | reset =>
    simp only [Command.copied, perform, reset, remove_copied]
    rfl
  | rebuild request =>
    simp only [Command.copied, perform, rebuild_copied]
    rfl
  | updateYield handle change =>
    simp only [Command.copied, perform, updateYield_copied]
    rfl

/-- A run of the reading answers and logs what the run of the table does and leaves its reading. -/
theorem run_copied (table : Table K Y) (commands : List (Allocator × Command K Y)) :
    table.copied.run (commands.map fun step => (step.1, step.2.copied)) =
      (table.run commands).map copied (List.map Reply.copied) := by
  induction commands generalizing table with
  | nil => rfl
  | cons step rest ih =>
    obtain ⟨allows, command⟩ := step
    simp only [List.map_cons, run, perform_copied, Outcome.map, ih]

end Commands

end Table

end ChainedMultimap
