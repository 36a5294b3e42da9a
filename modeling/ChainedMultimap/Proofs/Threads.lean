import ChainedMultimap.Proofs.ArenaSize
import ChainedMultimap.Proofs.Contents
import Mathlib.Logic.Function.Basic

/-!
# Chains as lists

A table threads its items as a family of lists says when every bucket starts at the first handle of
its list and every item on a list is linked to the handles beside it. The links then determine the
lists: reading a chain gives the list. Putting an item in front of a chain and discarding an item do
to the lists what they should, and leave all other links alone.
-/

namespace ChainedMultimap

variable {K Y : Type}

/-- Every handle on a list finds an item of the bucket that is linked to the handles before and after
it on the list. -/
def Linked (items : Arena (Item K Y)) (bucket : Nat) (chain : List Handle) : Prop :=
  ∀ before handle behind, chain = before ++ handle :: behind →
    ∃ item, items.get? handle = some item ∧ item.prev = before.getLast? ∧
      item.next = behind.head? ∧ item.bucket = bucket

namespace Linked

variable {items changed : Arena (Item K Y)} {bucket : Nat} {chain : List Handle} {handle : Handle}

/-- The empty chain is linked. -/
theorem nil : Linked items bucket [] := by
  intro before handle behind split
  simp at split

/-- Every handle on a linked list finds an item of the bucket. -/
theorem exists_item (linked : Linked items bucket chain) (member : handle ∈ chain) :
    ∃ item, items.get? handle = some item ∧ item.bucket = bucket := by
  obtain ⟨before, behind, split⟩ := List.append_of_mem member
  obtain ⟨item, found, _, _, home⟩ := linked before handle behind split
  exact ⟨item, found, home⟩

/-- Linkage depends on the items on the list alone. -/
theorem congr (linked : Linked items bucket chain)
    (same : ∀ handle ∈ chain, changed.get? handle = items.get? handle) :
    Linked changed bucket chain := by
  intro before handle behind split
  rw [same handle (by simp [split])]
  exact linked before handle behind split

/-- Reading links from a handle on a linked list gives the rest of the list. -/
theorem follow_eq {before behind : List Handle} (linked : Linked items bucket (before ++ behind))
    {count : Nat} (enough : behind.length ≤ count) :
    Table.follow items count behind.head? = behind := by
  induction behind generalizing before count with
  | nil => cases count <;> rfl
  | cons handle rest ih =>
    obtain ⟨item, found, _, next, _⟩ := linked before handle rest rfl
    cases count with
    | zero => simp at enough
    | succ count =>
      have remaining : Table.follow items count item.next = rest := by
        have shifted : Linked items bucket ((before ++ [handle]) ++ rest) := by
          simpa using linked
        rw [next]
        exact ih shifted (by simpa using enough)
      simp [Table.follow, found, remaining]

/-- A place on a joined list lies on one of its two parts. -/
theorem place_on_append {before behind front back : List Handle}
    (parts : before ++ behind = front ++ handle :: back) :
    (∃ middle, front = before ++ middle ∧ behind = middle ++ handle :: back) ∨
      ∃ middle, before = front ++ handle :: middle ∧ back = middle ++ behind := by
  rcases List.append_eq_append_iff.mp parts with within | ⟨middle, first, rest⟩
  · exact .inl within
  · cases middle with
    | nil => exact .inl ⟨[], by simpa using first.symm, by simpa using rest.symm⟩
    | cons other middle =>
      obtain ⟨rfl, rfl⟩ : handle = other ∧ back = middle ++ behind := by simpa using rest
      exact .inr ⟨middle, first, rfl⟩

/-- The last handle of a list with a handle and more behind it is the last of what is behind. -/
theorem getLast?_append_cons_cons (before behind : List Handle) (handle second : Handle) :
    (before ++ handle :: second :: behind).getLast? = (second :: behind).getLast? := by
  rw [← List.getLast?_append_of_ne_nil (before ++ [handle]) (List.cons_ne_nil second behind)]
  simp

/-- A list stays linked without one of its handles if the handles before and behind it are linked to
each other. -/
theorem join {before behind : List Handle} (linked : Linked items bucket (before ++ handle :: behind))
    (distinct : (before ++ handle :: behind).Nodup)
    (joined : ∀ other, other ≠ handle → changed.get? other =
      (items.get? other).map fun neighbour =>
        { neighbour with
          prev := if behind.head? = some other then before.getLast? else neighbour.prev
          next := if before.getLast? = some other then behind.head? else neighbour.next }) :
    Linked changed bucket (before ++ behind) := by
  intro front other back parts
  rw [List.nodup_middle, List.nodup_cons, parts] at distinct
  obtain ⟨absent, distinct⟩ := distinct
  have away : other ≠ handle := fun same => absent (by simp [same])
  rw [List.nodup_middle, List.nodup_cons, List.mem_append] at distinct
  rw [joined other away]
  rcases place_on_append parts with ⟨middle, rfl, rfl⟩ | ⟨middle, rfl, rfl⟩
  · obtain ⟨item, found, prev, next, home⟩ :=
      linked (before ++ handle :: middle) other back (by simp)
    have notBefore : before.getLast? ≠ some other := by
      intro last
      exact distinct.1 (.inl (List.mem_append_left _ (List.mem_of_mem_getLast? last)))
    cases middle with
    | nil => simp [found, next, home, notBefore]
    | cons first middle =>
      have later : first ≠ other := fun same => distinct.1 (by simp [same])
      have last : (before ++ first :: middle).getLast? = (first :: middle).getLast? :=
        List.getLast?_append_of_ne_nil before (by simp)
      rw [getLast?_append_cons_cons] at prev
      simp only [found, Option.map_some, last, notBefore]
      exact ⟨_, rfl, by simp [later, prev], next, home⟩
  · obtain ⟨item, found, prev, next, home⟩ :=
      linked front other (middle ++ handle :: behind) (by simp)
    have notBehind : behind.head? ≠ some other := by
      intro first
      exact distinct.1 (.inr (List.mem_append_right _ (List.mem_of_mem_head? first)))
    cases middle with
    | nil => simp [found, prev, home, notBehind]
    | cons second middle =>
      have earlier : (second :: middle).getLast? ≠ some other := by
        intro same
        exact distinct.1 (.inr (List.mem_append_left _ (List.mem_of_mem_getLast? same)))
      rw [getLast?_append_cons_cons]
      simp [found, prev, next, home, notBehind, earlier]

end Linked

namespace Table

variable {table : Table K Y} {chains : Nat → List Handle} {handle other : Handle} {bucket : Nat}

/-- The table threads its items as a family of lists says. -/
structure Threads (table : Table K Y) (chains : Nat → List Handle) : Prop where
  /-- Every bucket starts at the first handle of its list. -/
  starts : ∀ bucket, table.head? bucket = (chains bucket).head?
  /-- The items on a list are linked to the handles beside them. -/
  linked : ∀ bucket, Linked table.items bucket (chains bucket)
  /-- No handle is on a list twice. -/
  distinct : ∀ bucket, (chains bucket).Nodup

namespace Threads

/-- A list is no longer than the table has items. -/
theorem length_le_size (threads : table.Threads chains) (bucket : Nat) :
    (chains bucket).length ≤ table.size := by
  apply Arena.length_le_size (threads.distinct bucket)
  intro handle member
  obtain ⟨item, found, _⟩ := (threads.linked bucket).exists_item member
  simp [found]

/-- Reading a chain gives its list. -/
theorem chain_eq (threads : table.Threads chains) : table.chain = chains := by
  funext bucket
  have linked : Linked table.items bucket ([] ++ chains bucket) := threads.linked bucket
  rw [chain, threads.starts]
  exact linked.follow_eq (threads.length_le_size bucket)

/-- Every handle on a chain finds an item. -/
theorem found (threads : table.Threads chains) (member : handle ∈ chains bucket) :
    (table.items.get? handle).isSome := by
  obtain ⟨item, found, _⟩ := (threads.linked bucket).exists_item member
  simp [found]

/-- The item under a handle on a list belongs to the bucket of the list. -/
theorem bucket_eq (threads : table.Threads chains) {item : Item K Y}
    (found : table.items.get? handle = some item) (member : handle ∈ chains bucket) :
    item.bucket = bucket := by
  obtain ⟨other, same, home⟩ := (threads.linked bucket).exists_item member
  rw [found, Option.some.injEq] at same
  rw [same, home]

/-- The item under a handle on a list is linked to the handles beside it there. -/
theorem exists_split (threads : table.Threads chains) {item : Item K Y}
    (found : table.items.get? handle = some item) (member : handle ∈ chains bucket) :
    ∃ before behind, chains bucket = before ++ handle :: behind ∧
      item.prev = before.getLast? ∧ item.next = behind.head? := by
  obtain ⟨before, behind, split⟩ := List.append_of_mem member
  obtain ⟨same, found', prev, next, _⟩ := threads.linked bucket before handle behind split
  obtain rfl : item = same := Option.some.inj (found.symm.trans found')
  exact ⟨before, behind, split, prev, next⟩

/-- The forward link of an item on a list leads to an item of the list. -/
theorem mem_of_next (threads : table.Threads chains) {item : Item K Y}
    (found : table.items.get? handle = some item) (member : handle ∈ chains bucket)
    (link : item.next = some other) : other ∈ chains bucket := by
  obtain ⟨before, behind, split, _, next⟩ := threads.exists_split found member
  rw [next] at link
  simp [split, List.mem_of_mem_head? link]

/-- The backward link of an item on a list leads to an item of the list. -/
theorem mem_of_prev (threads : table.Threads chains) {item : Item K Y}
    (found : table.items.get? handle = some item) (member : handle ∈ chains bucket)
    (link : item.prev = some other) : other ∈ chains bucket := by
  obtain ⟨before, behind, split, prev, _⟩ := threads.exists_split found member
  rw [prev] at link
  simp [split, List.mem_of_mem_getLast? link]

/-- A handle is on one list at most. -/
theorem eq_of_mem (threads : table.Threads chains) {elsewhere : Nat}
    (here : handle ∈ chains bucket) (there : handle ∈ chains elsewhere) : bucket = elsewhere := by
  obtain ⟨item, found, home⟩ := (threads.linked bucket).exists_item here
  rw [← home, threads.bucket_eq found there]

/-- Only buckets of the bucket array have items on their lists. -/
theorem lt_of_mem (threads : table.Threads chains) (member : handle ∈ chains bucket) :
    bucket < table.bucketCount := by
  by_contra outside
  have empty : table.head? bucket = none := by
    simp only [head?, Array.getElem?_eq_none (Nat.le_of_not_lt outside), Option.join_none]
  rw [threads.starts, List.head?_eq_none_iff] at empty
  simp [empty] at member

/-- The handles of a threaded table are those on the lists. -/
theorem mem_handles (threads : table.Threads chains) :
    handle ∈ table.handles ↔ ∃ bucket, handle ∈ chains bucket := by
  simp only [handles, threads.chain_eq, List.mem_flatMap, List.mem_range]
  constructor
  · rintro ⟨bucket, _, member⟩
    exact ⟨bucket, member⟩
  · rintro ⟨bucket, member⟩
    exact ⟨bucket, threads.lt_of_mem member, member⟩

/-- No handle of a threaded table is on two chains or on one chain twice. -/
theorem nodup_handles (threads : table.Threads chains) : table.handles.Nodup := by
  rw [handles, threads.chain_eq, List.nodup_flatMap]
  refine ⟨fun bucket _ => threads.distinct bucket, ?_⟩
  apply List.nodup_range.imp
  intro bucket elsewhere different handle here there
  exact different (threads.eq_of_mem here there)

end Threads

/-- An item put in front of a chain is its head, and all other heads stay. -/
theorem head?_pushFront (inside : bucket < table.bucketCount) (elsewhere : Nat) :
    (table.pushFront handle bucket).head? elsewhere =
      if elsewhere = bucket then some handle else table.head? elsewhere := by
  rw [bucketCount] at inside
  simp only [head?, pushFront, Array.getElem?_setIfInBounds]
  by_cases here : bucket = elsewhere
  · subst here
    simp [inside]
  · simp [here, Ne.symm here]

/-- An item put in front of a chain is linked to the former first item, the only one on the list that
changes. -/
theorem Threads.linked_pushFront (threads : table.Threads chains)
    (present : (table.items.get? handle).isSome) (absent : handle ∉ chains bucket) :
    Linked (table.pushFront handle bucket).items bucket (handle :: chains bucket) := by
  intro before other behind split
  cases before with
  | nil =>
    obtain ⟨rfl, rfl⟩ : handle = other ∧ chains bucket = behind := by simpa using split
    obtain ⟨item, found⟩ := Option.isSome_iff_exists.mp present
    have first : (chains bucket).head? ≠ some handle := by
      intro same
      exact absent (List.mem_of_mem_head? same)
    simp [items_pushFront, found, first, threads.starts]
  | cons first middle =>
    obtain ⟨rfl, rest⟩ : handle = first ∧ chains bucket = middle ++ other :: behind := by
      simpa using split
    obtain ⟨item, found, prev, next, home⟩ := threads.linked bucket middle other behind rest
    have moved : handle ≠ other := by
      rintro rfl
      exact absent (by simp [rest])
    cases middle with
    | nil => simp [items_pushFront, found, moved, threads.starts, rest, next, home]
    | cons former middle =>
      have later : former ≠ other := by
        have distinct := threads.distinct bucket
        rw [rest] at distinct
        intro same
        simp [same] at distinct
      simp [items_pushFront, found, moved, threads.starts, rest, next, home, prev, later]

/-- Putting an item in front of a chain leaves the links of other chains alone. -/
theorem Threads.linked_pushFront_of_ne (threads : table.Threads chains) {elsewhere : Nat}
    (apart : elsewhere ≠ bucket) (absent : handle ∉ chains elsewhere) :
    Linked (table.pushFront handle bucket).items elsewhere (chains elsewhere) := by
  apply (threads.linked elsewhere).congr
  intro other member
  have unmoved : handle ≠ other := by
    rintro rfl
    exact absent member
  have first : table.head? bucket ≠ some other := by
    rw [threads.starts]
    intro same
    exact apart (threads.eq_of_mem member (List.mem_of_mem_head? same))
  simp [items_pushFront, unmoved, first]

/-- Putting an item that is on no list in front of a chain puts its handle in front of the list. -/
theorem Threads.pushFront (threads : table.Threads chains)
    (present : (table.items.get? handle).isSome) (absent : ∀ bucket, handle ∉ chains bucket)
    (inside : bucket < table.bucketCount) :
    (table.pushFront handle bucket).Threads
      (Function.update chains bucket (handle :: chains bucket)) where
  starts elsewhere := by
    rw [head?_pushFront inside]
    by_cases here : elsewhere = bucket
    · subst here
      simp
    · simp [here, threads.starts]
  linked elsewhere := by
    by_cases here : elsewhere = bucket
    · subst here
      rw [Function.update_self]
      exact threads.linked_pushFront present (absent elsewhere)
    · rw [Function.update_of_ne here]
      exact threads.linked_pushFront_of_ne here (absent elsewhere)
  distinct elsewhere := by
    by_cases here : elsewhere = bucket
    · subst here
      simpa using ⟨absent elsewhere, threads.distinct elsewhere⟩
    · simpa [here] using threads.distinct elsewhere

/-- Unlinking the first item of a chain makes the next one the head; all other heads stay. -/
theorem head?_unlink {item : Item K Y} (inside : item.bucket < table.bucketCount)
    (elsewhere : Nat) :
    (table.unlink item).head? elsewhere =
      if item.prev = none ∧ elsewhere = item.bucket then item.next else table.head? elsewhere := by
  rw [bucketCount] at inside
  have heads : (table.unlink item).heads =
      if item.prev = none then table.heads.setIfInBounds item.bucket item.next
      else table.heads := by
    unfold unlink
    cases item.prev <;> cases item.next <;> rfl
  rw [head?, heads]
  by_cases first : item.prev = none
  · by_cases here : elsewhere = item.bucket
    · simp [first, here, inside]
    · simp [first, here, Ne.symm here, head?]
  · simp [first, head?]

/-- Discarding unlinks the item and erases it. -/
theorem discard_of_found {item : Item K Y} (found : table.items.get? handle = some item) :
    table.discard handle =
      { table.unlink item with items := (table.unlink item).items.erase handle } := by
  simp [discard, removeItem, found]

/-- Leaving out a handle that is not on a list changes nothing. -/
theorem filter_ne_eq_self {handles : List Handle} (absent : handle ∉ handles) :
    handles.filter (· ≠ handle) = handles := by
  apply List.filter_eq_self.mpr
  intro other member
  have away : other ≠ handle := fun same => absent (same ▸ member)
  simpa using away

/-- Leaving out the handle in the middle of a list of distinct handles joins its two parts. -/
theorem filter_ne_split {before behind : List Handle}
    (distinct : (before ++ handle :: behind).Nodup) :
    (before ++ handle :: behind).filter (· ≠ handle) = before ++ behind := by
  rw [List.nodup_middle, List.nodup_cons, List.mem_append] at distinct
  rw [List.filter_append, List.filter_cons_of_neg (by simp),
    filter_ne_eq_self fun here => distinct.1 (.inl here),
    filter_ne_eq_self fun here => distinct.1 (.inr here)]

/-- Discarding an item links its neighbours to each other and leaves all other links alone. -/
theorem items_discard {item : Item K Y} (found : table.items.get? handle = some item)
    (away : other ≠ handle) :
    (table.discard handle).items.get? other = (table.items.get? other).map fun neighbour =>
      { neighbour with
        prev := if item.next = some other then item.prev else neighbour.prev
        next := if item.prev = some other then item.next else neighbour.next } := by
  rw [discard_of_found found, Arena.get?_erase, if_neg away.symm, items_unlink]

/-- Discarding an item leaves the links of other chains alone. -/
theorem Threads.linked_discard_of_ne (threads : table.Threads chains) (member : handle ∈ chains bucket)
    {elsewhere : Nat} (apart : elsewhere ≠ bucket) :
    Linked (table.discard handle).items elsewhere (chains elsewhere) := by
  obtain ⟨item, found, _⟩ := (threads.linked bucket).exists_item member
  apply (threads.linked elsewhere).congr
  intro other there
  have absent : other ∉ chains bucket := fun here => apart (threads.eq_of_mem there here)
  have away : other ≠ handle := by
    rintro rfl
    exact absent member
  have notNext : item.next ≠ some other := fun link => absent (threads.mem_of_next found member link)
  have notPrev : item.prev ≠ some other := fun link => absent (threads.mem_of_prev found member link)
  simp [items_discard found away, notNext, notPrev]

/-- Discarding an item takes its handle off the lists. -/
theorem Threads.discard (threads : table.Threads chains) (member : handle ∈ chains bucket) :
    (table.discard handle).Threads fun bucket => (chains bucket).filter (· ≠ handle) := by
  obtain ⟨before, behind, split⟩ := List.append_of_mem member
  obtain ⟨item, found, prev, next, rfl⟩ := threads.linked bucket before handle behind split
  have distinct := threads.distinct item.bucket
  rw [split] at distinct
  have kept : (chains item.bucket).filter (· ≠ handle) = before ++ behind := by
    rw [split, filter_ne_split distinct]
  have untouched : ∀ {elsewhere}, elsewhere ≠ item.bucket →
      (chains elsewhere).filter (· ≠ handle) = chains elsewhere := by
    intro elsewhere away
    exact filter_ne_eq_self fun here => away (threads.eq_of_mem here member)
  refine ⟨?_, ?_, ?_⟩
  · intro elsewhere
    have heads : (table.discard handle).head? elsewhere = (table.unlink item).head? elsewhere := by
      rw [discard_of_found found]
      rfl
    rw [heads, head?_unlink (threads.lt_of_mem member)]
    by_cases here : elsewhere = item.bucket
    · rw [here, kept, threads.starts, split, prev, next]
      cases before <;> simp
    · rw [untouched here, if_neg (fun both => here both.2), threads.starts]
  · intro elsewhere
    by_cases here : elsewhere = item.bucket
    · rw [here, kept]
      apply Linked.join (split ▸ threads.linked item.bucket) distinct
      intro other away
      rw [items_discard found away, prev, next]
    · rw [untouched here]
      exact threads.linked_discard_of_ne member here
  · intro elsewhere
    exact (threads.distinct elsewhere).filter _

/-- Discarding several items takes their handles off the lists. -/
theorem Threads.foldl_discard {order : List Handle} (threads : table.Threads chains)
    (distinct : order.Nodup) (members : ∀ handle ∈ order, ∃ bucket, handle ∈ chains bucket) :
    (order.foldl Table.discard table).Threads fun bucket =>
      (chains bucket).filter (· ∉ order) := by
  induction order generalizing table chains with
  | nil => simpa using threads
  | cons handle rest ih =>
    obtain ⟨bucket, member⟩ := members handle (by simp)
    rw [List.nodup_cons] at distinct
    have remaining : ∀ other ∈ rest, ∃ bucket, other ∈ (chains bucket).filter (· ≠ handle) := by
      intro other later
      obtain ⟨elsewhere, there⟩ := members other (by simp [later])
      have away : other ≠ handle := fun same => distinct.1 (same ▸ later)
      exact ⟨elsewhere, by simp [there, away]⟩
    have discarded := ih (threads.discard member) distinct.2 remaining
    simpa [List.filter_filter, Bool.and_comm] using discarded

/-- A new item under the fresh handle is on no list yet. -/
theorem Threads.add (threads : table.Threads chains) (item : Item K Y) :
    { table with items := table.items.add item }.Threads chains where
  starts := threads.starts
  linked bucket := by
    apply (threads.linked bucket).congr
    intro handle member
    have given : handle ≠ table.items.fresh := by
      rintro rfl
      simpa using threads.found member
    simp [Arena.get?_add, given]
  distinct := threads.distinct

/-- Changing a yield leaves all links alone. -/
theorem Threads.updateYield (threads : table.Threads chains) (handle : Handle) (change : Y → Y) :
    (table.updateYield handle change).2.Threads chains where
  starts := threads.starts
  linked bucket := by
    intro before other behind split
    obtain ⟨item, found, prev, next, home⟩ := threads.linked bucket before other behind split
    simp only [Table.updateYield, Arena.get?_modify, found]
    split
    · exact ⟨_, rfl, prev, next, home⟩
    · exact ⟨_, rfl, prev, next, home⟩
  distinct := threads.distinct

/-- An empty bucket array threads nothing. -/
theorem threads_emptied (table : Table K Y) (buckets : Nat) :
    (table.emptied buckets).Threads fun _ => [] where
  starts bucket := by
    simp only [emptied, head?, Array.getElem?_replicate]
    split <;> rfl
  linked _ := .nil
  distinct _ := List.nodup_nil

/-- A new table threads nothing. -/
theorem threads_ofSize (strategy : Strategy) (options : TableOptions) (buckets : Nat) :
    (ofSize strategy options buckets : Table K Y).Threads fun _ => [] :=
  threads_emptied (ofSize strategy options buckets) buckets

/-- The handles of a list find items that are on no chain yet, and none is listed twice. -/
structure Unthreaded (table : Table K Y) (chains : Nat → List Handle) (order : List Handle) : Prop where
  /-- Every handle finds an item. -/
  present : ∀ handle ∈ order, (table.items.get? handle).isSome
  /-- No handle is on a chain. -/
  absent : ∀ handle ∈ order, ∀ bucket, handle ∉ chains bucket
  /-- No handle is listed twice. -/
  distinct : order.Nodup

/-- If all items of a list are off the chains, so are those at its front. -/
theorem Unthreaded.of_append {order later : List Handle}
    (unthreaded : table.Unthreaded chains (order ++ later)) : table.Unthreaded chains order :=
  ⟨fun handle member => unthreaded.present handle (List.mem_append_left later member),
    fun handle member => unthreaded.absent handle (List.mem_append_left later member),
    (List.nodup_append.mp unthreaded.distinct).1⟩

variable [Storable K]

/-- Putting the first of the unthreaded items in front of the chain of its key's bucket. -/
theorem Threads.pushHome {rest : List Handle} (threads : table.Threads chains)
    (unthreaded : table.Unthreaded chains (handle :: rest)) {key : K}
    (known : table.key? handle = some key) (inside : table.home key < table.bucketCount) :
    (table.pushHome handle).Threads
      (Function.update chains (table.home key) (handle :: chains (table.home key))) := by
  rw [Table.pushHome, known]
  exact threads.pushFront (unthreaded.present handle (by simp))
    (unthreaded.absent handle (by simp)) inside

/-- The other unthreaded items remain so. -/
theorem Unthreaded.pushHome {rest : List Handle}
    (unthreaded : table.Unthreaded chains (handle :: rest)) (bucket : Nat) :
    (table.pushHome handle).Unthreaded
      (Function.update chains bucket (handle :: chains bucket)) rest := by
  obtain ⟨apart, distinct⟩ := List.nodup_cons.mp unthreaded.distinct
  refine ⟨?_, ?_, distinct⟩
  · intro other later
    rw [← isSome_held?, (sameContents_pushHome table handle).held?, isSome_held?]
    exact unthreaded.present other (by simp [later])
  · intro other later elsewhere
    have away : other ≠ handle := fun same => apart (same ▸ later)
    have absent := unthreaded.absent other (by simp [later])
    by_cases here : elsewhere = bucket
    · subst here
      simpa [away] using absent elsewhere
    · simpa [here] using absent elsewhere

/-- Putting unthreaded items in front of their chains, one after another, puts the handles of every
bucket in front of its list, in reverse order. -/
theorem Threads.foldl_pushHome {order : List Handle} (threads : table.Threads chains)
    (unthreaded : table.Unthreaded chains order)
    (inside : ∀ key, table.home key < table.bucketCount) :
    (order.foldl Table.pushHome table).Threads fun bucket =>
      (order.filter fun handle => (table.key? handle).map table.home = some bucket).reverse ++
        chains bucket := by
  induction order generalizing table chains with
  | nil => simpa using threads
  | cons handle rest ih =>
    obtain ⟨key, known⟩ := exists_key?_of_isSome (unthreaded.present handle (by simp))
    have kept := sameBuckets_pushHome table handle
    have threaded := ih (threads.pushHome unthreaded known (inside key))
      (unthreaded.pushHome (table.home key))
      (fun other => by
        rw [kept.home, kept.bucketCount]
        exact inside other)
    rw [List.foldl_cons]
    convert threaded using 2 with bucket
    have same := (sameContents_pushHome table handle).key?
    by_cases here : bucket = table.home key
    · subst here
      simp [known, kept.home, same]
    · simp [known, kept.home, same, here, Ne.symm here]

/-- The items behind those put in front of their chains remain unthreaded. -/
theorem Unthreaded.foldl_pushHome {order later : List Handle}
    (unthreaded : table.Unthreaded chains (order ++ later)) :
    (order.foldl Table.pushHome table).Unthreaded (fun bucket =>
      (order.filter fun handle => (table.key? handle).map table.home = some bucket).reverse ++
        chains bucket) later := by
  obtain ⟨_, distinct, apart⟩ := List.nodup_append.mp unthreaded.distinct
  refine ⟨?_, ?_, distinct⟩
  · intro other member
    rw [← isSome_held?, (sameContents_foldl_pushHome order table).held?, isSome_held?]
    exact unthreaded.present other (by simp [member])
  · intro other member bucket
    have away : other ∉ order := fun here => apart other here other member rfl
    simp [away, unthreaded.absent other (by simp [member]) bucket]

end Table

end ChainedMultimap
