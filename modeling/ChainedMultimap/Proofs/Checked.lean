import ChainedMultimap.Proofs.Runs
import ChainedMultimap.Table.Checked

/-!
# Checked operations have results

On a well-formed table no checked operation meets an item or a bucket that does not exist, and every
loop ends; the result is that of the operation checked. So walking the old chains while their items
are moved, or the chain from which items are removed, visits what reading the chains first would.
-/

namespace ChainedMultimap.Table

variable {K Y : Type} {table : Table K Y} {chains : Nat → List Handle} {handle : Handle}
  {bucket : Nat}

/-! ## Reading -/

/-- Following links gives no handle exactly if there is nothing to start from. -/
theorem follow?_eq_some_nil_iff {items : Arena (Item K Y)} {count : Nat} {start : Option Handle} :
    follow? items count start = some [] ↔ start = none := by
  cases start with
  | none => cases count <;> simp [follow?]
  | some handle => cases count <;> simp [follow?, Option.bind_eq_some_iff]

/-- Reading takes one step for the first handle and the other steps for those behind it. -/
theorem follow?_eq_some_cons_iff {items : Arena (Item K Y)} {count : Nat} {start : Option Handle}
    {rest : List Handle} : follow? items count start = some (handle :: rest) ↔
      start = some handle ∧ ∃ fewer item, count = fewer + 1 ∧ items.get? handle = some item ∧
        follow? items fewer item.next = some rest := by
  cases start with
  | none => cases count <;> simp [follow?]
  | some first =>
    cases count with
    | zero => simp [follow?]
    | succ fewer =>
      simp only [follow?, Option.bind_eq_bind, Option.bind_eq_some_iff, Option.pure_def,
        Option.some.injEq, List.cons.injEq]
      constructor
      · rintro ⟨item, found, behind, later, rfl, rfl⟩
        exact ⟨rfl, fewer, item, rfl, found, later⟩
      · rintro ⟨rfl, same, item, steps, found, later⟩
        obtain rfl : fewer = same := by omega
        exact ⟨item, found, rest, later, rfl, rfl⟩

/-- Reading depends on the items read alone. -/
theorem follow?_congr {items changed : Arena (Item K Y)} {count : Nat} {start : Option Handle}
    {chain : List Handle} (reads : follow? items count start = some chain)
    (same : ∀ handle ∈ chain, changed.get? handle = items.get? handle) :
    follow? changed count start = some chain := by
  induction chain generalizing start count with
  | nil => exact follow?_eq_some_nil_iff.mpr (follow?_eq_some_nil_iff.mp reads)
  | cons handle rest ih =>
    obtain ⟨first, fewer, item, steps, found, later⟩ := follow?_eq_some_cons_iff.mp reads
    refine follow?_eq_some_cons_iff.mpr ⟨first, fewer, item, steps, ?_, ?_⟩
    · rw [same handle (by simp), found]
    · exact ih later fun other member => same other (by simp [member])

/-- Reading a linked list from any of its places reads the rest of the list. -/
theorem follow?_linked {items : Arena (Item K Y)} {before behind : List Handle} {count : Nat}
    (linked : Linked items bucket (before ++ behind)) (enough : behind.length ≤ count) :
    follow? items count behind.head? = some behind := by
  induction behind generalizing before count with
  | nil => exact follow?_eq_some_nil_iff.mpr rfl
  | cons handle rest ih =>
    obtain ⟨item, found, _, next, _⟩ := linked before handle rest rfl
    obtain ⟨fewer, rfl⟩ : ∃ fewer, count = fewer + 1 := Nat.exists_eq_add_one.mpr (by
      rw [List.length_cons] at enough
      omega)
    have shifted : Linked items bucket ((before ++ [handle]) ++ rest) := by simpa using linked
    have later := ih shifted (Nat.le_of_succ_le_succ enough)
    rw [← next] at later
    exact follow?_eq_some_cons_iff.mpr ⟨rfl, fewer, item, rfl, found, later⟩

/-- The buckets of the bucket array can be read. -/
theorem getElem?_heads (inside : bucket < table.bucketCount) :
    table.heads[bucket]? = some (table.head? bucket) := by
  rw [bucketCount] at inside
  simp [head?, inside]

/-- Reading a chain of a threaded table reads its list. -/
theorem Threads.follow?_eq (threads : table.Threads chains) (bucket : Nat) :
    follow? table.items table.size (table.head? bucket) = some (chains bucket) := by
  have linked : Linked table.items bucket ([] ++ chains bucket) := threads.linked bucket
  rw [threads.starts]
  exact follow?_linked linked (threads.length_le_size bucket)

/-- The walk along a chain finds every item that it comes to. -/
theorem Threads.chain?_eq (threads : table.Threads chains) (inside : bucket < table.bucketCount) :
    table.chain? bucket = some (chains bucket) := by
  simp [chain?, getElem?_heads inside, threads.follow?_eq]

/-! ## Linking -/

/-- Putting a stored item in front of a chain reaches the head and the item that it changes. -/
theorem Threads.pushFront?_eq (threads : table.Threads chains)
    (present : (table.items.get? handle).isSome) (inside : bucket < table.bucketCount) :
    table.pushFront? handle bucket = some (table.pushFront handle bucket) := by
  obtain ⟨item, found⟩ := Option.isSome_iff_exists.mp present
  rw [pushFront?, getElem?_heads inside]
  cases first : table.head? bucket with
  | none => simp [found]
  | some former =>
    have member : former ∈ chains bucket := by
      rw [threads.starts] at first
      exact List.mem_of_mem_head? first
    obtain ⟨other, there⟩ := Option.isSome_iff_exists.mp (threads.found member)
    simp [found, there]

/-- Unlinking an item of a chain reaches both of its neighbours. -/
theorem Threads.unlink?_eq (threads : table.Threads chains) {item : Item K Y}
    (found : table.items.get? handle = some item) (member : handle ∈ chains bucket) :
    table.unlink? item = some (table.unlink item) := by
  have inside : item.bucket < table.bucketCount := by
    rw [threads.bucket_eq found member]
    exact threads.lt_of_mem member
  have reached : ∀ other ∈ chains bucket, ∃ item, table.items.get? other = some item := by
    intro other there
    exact Option.isSome_iff_exists.mp (threads.found there)
  unfold unlink?
  cases back : item.prev with
  | none =>
    cases forward : item.next with
    | none => simp [getElem?_heads inside]
    | some behind =>
      obtain ⟨other, there⟩ := reached behind (threads.mem_of_next found member forward)
      simp [getElem?_heads inside, there]
  | some before =>
    obtain ⟨one, here⟩ := reached before (threads.mem_of_prev found member back)
    cases forward : item.next with
    | none => simp [here]
    | some behind =>
      obtain ⟨other, there⟩ := reached behind (threads.mem_of_next found member forward)
      simp [here, there]

/-! ## Threading anew -/

section Threading

variable [Storable K]

/-- Moving an item to the front of a chain leaves alone what is on no list. -/
theorem Threads.items_pushHome (threads : table.Threads chains) {other : Handle}
    (away : other ≠ handle) (absent : ∀ bucket, other ∉ chains bucket) :
    (table.pushHome handle).items.get? other = table.items.get? other := by
  unfold Table.pushHome
  split
  · rfl
  · next key known =>
    have first : table.head? (table.home key) ≠ some other := by
      rw [threads.starts]
      intro same
      exact absent _ (List.mem_of_mem_head? same)
    simp [items_pushFront, first, Ne.symm away]

/-- Moving unthreaded items leaves alone what is neither moved nor on a list. -/
theorem Threads.items_foldl_pushHome {order : List Handle} (threads : table.Threads chains)
    (unthreaded : table.Unthreaded chains order)
    (inside : ∀ key, table.home key < table.bucketCount) {other : Handle} (away : other ∉ order)
    (absent : ∀ bucket, other ∉ chains bucket) :
    (order.foldl Table.pushHome table).items.get? other = table.items.get? other := by
  induction order generalizing table chains with
  | nil => rfl
  | cons handle rest ih =>
    rw [List.mem_cons, not_or] at away
    obtain ⟨key, known⟩ := exists_key?_of_isSome (unthreaded.present handle (by simp))
    rw [List.foldl_cons, ih (threads.pushHome unthreaded known (inside key))
      (unthreaded.pushHome _) _ away.2]
    · exact threads.items_pushHome away.1 absent
    · intro bucket
      by_cases here : bucket = table.home key
      · simpa [here, away.1] using absent (table.home key)
      · simpa [here] using absent bucket
    · intro key
      rw [(sameBuckets_pushHome table handle).home, bucketCount_pushHome]
      exact inside key

/-- Moving the items of an old chain while walking it moves them in the order of the chain. -/
theorem Threads.moveChain?_eq {start : Option Handle} {order : List Handle} {count : Nat}
    (threads : table.Threads chains) (unthreaded : table.Unthreaded chains order)
    (inside : ∀ key, table.home key < table.bucketCount)
    (reads : follow? table.items count start = some order) :
    table.moveChain? count start = some (order.foldl Table.pushHome table) := by
  induction order generalizing table chains start count with
  | nil =>
    rw [follow?_eq_some_nil_iff.mp reads]
    cases count <;> rfl
  | cons handle rest ih =>
    obtain ⟨rfl, fewer, item, rfl, found, later⟩ := follow?_eq_some_cons_iff.mp reads
    have known := key?_of_found found
    have pushed : table.pushFront? handle (table.home item.key.value) =
        some (table.pushHome handle) := by
      rw [threads.pushFront?_eq (by simp [found]) (inside _), Table.pushHome, known]
    rw [moveChain?]
    simp only [found, pushed, Option.bind_eq_bind, Option.bind_some, List.foldl_cons]
    apply ih (threads.pushHome unthreaded known (inside _)) (unthreaded.pushHome _)
    · intro key
      rw [(sameBuckets_pushHome table handle).home, bucketCount_pushHome]
      exact inside key
    · apply follow?_congr later
      intro other member
      have away : other ≠ handle := by
        rintro rfl
        exact (List.nodup_cons.mp unthreaded.distinct).1 member
      exact threads.items_pushHome away (unthreaded.absent other (by simp [member]))

/-- Walking the chains of an old bucket array in turn moves their items in the order of the chains, as
long as the links of the items that are still to be moved are the old ones. -/
theorem WellFormed.foldlM_moveChain? (wellFormed : table.WellFormed) {buckets : List Nat}
    {moved : Table K Y} (valid : ∀ bucket ∈ buckets, bucket < table.bucketCount)
    (threads : moved.Threads chains)
    (unthreaded : moved.Unthreaded chains (buckets.flatMap table.chain))
    (inside : ∀ key, moved.home key < moved.bucketCount)
    (same : ∀ handle ∈ buckets.flatMap table.chain,
      moved.items.get? handle = table.items.get? handle) :
    buckets.foldlM
        (fun moved bucket => do
          let head ← table.heads[bucket]?
          moved.moveChain? table.size head) moved =
      some ((buckets.flatMap table.chain).foldl Table.pushHome moved) := by
  induction buckets generalizing moved chains with
  | nil => rfl
  | cons bucket rest ih =>
    rw [List.flatMap_cons] at unthreaded same
    have distinct := List.nodup_append.mp unthreaded.distinct
    have first := unthreaded.of_append
    have reads : follow? moved.items table.size (table.head? bucket) = some (table.chain bucket) :=
      follow?_congr (wellFormed.threads.follow?_eq bucket) fun handle member =>
        same handle (by simp [member])
    rw [List.foldlM_cons, getElem?_heads (valid bucket (by simp))]
    simp only [Option.bind_eq_bind, Option.bind_some,
      threads.moveChain?_eq first inside reads, List.flatMap_cons, List.foldl_append]
    apply ih (fun other member => valid other (by simp [member]))
      (threads.foldl_pushHome first inside) unthreaded.foldl_pushHome
    · intro key
      rw [bucketCount_foldl_pushHome, (sameBuckets_foldl_pushHome _ moved).home]
      exact inside key
    · intro handle member
      have away : handle ∉ table.chain bucket := fun here => distinct.2.2 handle here handle member rfl
      rw [threads.items_foldl_pushHome first inside away
        (unthreaded.absent handle (List.mem_append_right _ member))]
      exact same handle (List.mem_append_right _ member)

/-- Moving the items into a new bucket array while walking the old chains gives the table that has all
items threaded anew in the order of the old chains. -/
theorem WellFormed.rethread?_eq (wellFormed : table.WellFormed) {buckets : Nat}
    (positive : 0 < buckets) :
    table.rethread? buckets = some (table.rethread buckets table.handles) := by
  refine wellFormed.foldlM_moveChain? ?_ (threads_emptied table buckets) ?_ ?_ ?_
  · intro bucket member
    exact List.mem_range.mp member
  · exact wellFormed.unthreaded_emptied buckets
  · exact home_lt_of_mask (table.mask_emptied positive)
  · intro handle _
    rfl

/-- Linking a pair reaches its home bucket and the head that was there. -/
theorem WellFormed.link?_eq (wellFormed : table.WellFormed) (key : Held K) (yield : Held Y) :
    table.link? key yield = some (table.link key yield) := by
  apply (wellFormed.threads.add ⟨key, yield, none, none, table.home key.value⟩).pushFront?_eq
  · simp [Arena.get?_add]
  · exact wellFormed.home_lt key.value

/-! ## Walking -/

/-- Asking an item of a chain for its key finds the item. -/
theorem WellFormed.hasKey?_eq (wellFormed : table.WellFormed) (member : handle ∈ table.chain bucket)
    (key : K) : table.hasKey? key handle = some (table.hasKey key handle) := by
  obtain ⟨item, found, _⟩ := (wellFormed.threads.linked bucket).exists_item member
  simp [hasKey?, hasKey, key?_of_found found, found]

/-- The item that a link leads to is on the same chain. -/
theorem WellFormed.mem_chain_of_next (wellFormed : table.WellFormed) {item : Item K Y}
    (found : table.items.get? handle = some item) {next : Handle} (link : item.next = some next) :
    next ∈ table.chain item.bucket :=
  wellFormed.threads.mem_of_next found (wellFormed.mem_chain_of_found found) link

/-- A step of a walk reaches every item and every bucket that it looks at. -/
theorem WellFormed.next?_eq (wellFormed : table.WellFormed) (current : Option Handle)
    (key : Option K) : table.next? current key = some (table.next current key) := by
  cases current with
  | none =>
    cases key with
    | none => rfl
    | some wanted =>
      simp [next?, next, first, wellFormed.threads.chain?_eq (wellFormed.home_lt wanted)]
  | some handle =>
    simp only [next?, next, after]
    cases found : table.items.get? handle with
    | none => rfl
    | some item =>
      cases link : item.next with
      | none => cases key <;> simp [link]
      | some next =>
        cases key with
        | none => simp [link]
        | some wanted =>
          have member := wellFormed.mem_chain_of_next found link
          simp [link, wellFormed.hasKey?_eq member wanted]

/-- The first bucket that is not empty starts with an item. -/
theorem WellFormed.found_of_firstFrom (wellFormed : table.WellFormed) {start : Nat}
    (reached : table.firstFrom start = some handle) : (table.items.get? handle).isSome := by
  fun_induction firstFrom table start with
  | case1 bucket inside head first =>
    obtain rfl : head = handle := by simpa using reached
    rw [wellFormed.threads.starts] at first
    exact wellFormed.threads.found (List.mem_of_mem_head? first)
  | case2 bucket inside empty ih => exact ih reached
  | case3 bucket outside => simp at reached

/-- Every item that a walk through the whole table reaches exists. -/
theorem WellFormed.found_of_next (wellFormed : table.WellFormed) {current : Option Handle}
    (reached : table.next current none = some handle) : (table.items.get? handle).isSome := by
  cases current with
  | none => exact wellFormed.found_of_firstFrom reached
  | some before =>
    unfold next after at reached
    cases found : table.items.get? before with
    | none => simp [found] at reached
    | some item =>
      cases link : item.next with
      | none =>
        simp only [found, link] at reached
        exact wellFormed.found_of_firstFrom reached
      | some next =>
        obtain rfl : next = handle := by simpa [found, link] using reached
        exact wellFormed.threads.found (wellFormed.mem_chain_of_next found link)

/-- A step of a cursor reaches every item and every bucket that it looks at. -/
theorem WellFormed.advance?_eq (wellFormed : table.WellFormed) (cursor : Cursor) :
    cursor.advance? table = some (cursor.advance table) := by
  unfold Cursor.advance? Cursor.advance
  cases cursor.ended with
  | true => rfl
  | false =>
    rw [wellFormed.next?_eq]
    cases reached : table.next cursor.current none with
    | none => rfl
    | some handle =>
      obtain ⟨item, found⟩ := Option.isSome_iff_exists.mp (wellFormed.found_of_next reached)
      simp [found]

end Threading

/-! ## Removing -/

variable [Storable K] [Storable Y]

/-- Discarding items that are not on a chain leaves its matches as they are. -/
theorem WellFormed.filter_admits_foldl_discard (wellFormed : table.WellFormed)
    {order : List Handle} (distinct : order.Nodup)
    (members : ∀ handle ∈ order, handle ∈ table.handles)
    (apart : ∀ handle ∈ table.chain bucket, handle ∉ order) (key : Option K) (yield : Option Y) :
    ((order.foldl Table.discard table).chain bucket).filter
        ((order.foldl Table.discard table).admits key yield) =
      (table.chain bucket).filter (table.admits key yield) := by
  have kept : (table.chain bucket).filter (· ∉ order) = table.chain bucket :=
    List.filter_eq_self.mpr (by simpa using apart)
  rw [wellFormed.chain_foldl_discard distinct members, kept]
  apply List.filter_congr
  intro handle member
  exact admits_foldl_discard (apart handle member)

/-- Removing the matches of a chain while walking it discards them in the order of the chain. -/
theorem WellFormed.sweep?_eq (wellFormed : table.WellFormed) {passed rest : List Handle}
    (chain : table.chain bucket = passed ++ rest) {count : Nat} (enough : rest.length ≤ count)
    (key : Option K) (yield : Option Y) (removed : Nat) :
    sweep? key yield removed table count rest.head? =
      some (removed + (rest.filter (table.admits key yield)).length,
        (rest.filter (table.admits key yield)).foldl Table.discard table) := by
  induction rest generalizing table passed removed count with
  | nil => cases count <;> rfl
  | cons handle rest ih =>
    obtain ⟨fewer, rfl⟩ : ∃ fewer, count = fewer + 1 := Nat.exists_eq_add_one.mpr (by
      rw [List.length_cons] at enough
      omega)
    rw [List.length_cons, Nat.add_le_add_iff_right] at enough
    obtain ⟨item, found, _, next, _⟩ :=
      wellFormed.threads.linked bucket passed handle rest chain
    have admission : table.admits key yield handle = item.admittedBy key yield := by
      simp [admits, found]
    rw [List.head?_cons, sweep?]
    by_cases admitted : item.admittedBy key yield
    · have member : handle ∈ table.chain bucket := by simp [chain]
      have remaining := wellFormed.chain_discard chain
      have absent : handle ∉ rest := by
        have distinct := wellFormed.threads.distinct bucket
        rw [chain, List.nodup_middle, List.nodup_cons, List.mem_append] at distinct
        exact fun later => distinct.1 (.inr later)
      simp only [found, Option.bind_eq_bind, Option.bind_some, admitted,
        wellFormed.threads.unlink?_eq found member, ← discard_of_found found, next, ↓reduceIte]
      rw [ih (wellFormed.discard handle) remaining enough, filter_admits_discard absent,
        List.filter_cons_of_pos (by rw [admission, admitted])]
      simp only [List.length_cons, List.foldl_cons]
      congr 2
      omega
    · simp only [found, Option.bind_eq_bind, Option.bind_some, admitted, next,
        Bool.false_eq_true, ↓reduceIte]
      have shifted : table.chain bucket = (passed ++ [handle]) ++ rest := by simp [chain]
      rw [ih wellFormed shifted enough,
        List.filter_cons_of_neg (by rw [admission]; exact admitted)]

/-- Removing the matches of the chains of distinct buckets, one chain after another, discards them in
the order of the chains. -/
theorem WellFormed.foldlM_sweep? (wellFormed : table.WellFormed) {buckets : List Nat}
    (valid : ∀ bucket ∈ buckets, bucket < table.bucketCount) (distinct : buckets.Nodup)
    (key : Option K) (yield : Option Y) (removed : Nat) :
    let found := buckets.flatMap fun bucket =>
      (table.chain bucket).filter (table.admits key yield)
    buckets.foldlM
        (fun (removed, table) bucket => do
          let head ← table.heads[bucket]?
          sweep? key yield removed table table.size head) (removed, table) =
      some (removed + found.length, found.foldl Table.discard table) := by
  induction buckets generalizing table removed with
  | nil => rfl
  | cons bucket rest ih =>
    obtain ⟨apart, distinct⟩ := List.nodup_cons.mp distinct
    let here := (table.chain bucket).filter (table.admits key yield)
    have members : ∀ handle ∈ here, handle ∈ table.handles := by
      intro handle member
      exact wellFormed.threads.mem_handles.mpr ⟨bucket, List.mem_of_mem_filter member⟩
    have once : here.Nodup := (wellFormed.threads.distinct bucket).filter _
    have swept : sweep? key yield removed table table.size (table.head? bucket) =
        some (removed + here.length, here.foldl Table.discard table) := by
      have whole : table.chain bucket = [] ++ table.chain bucket := rfl
      rw [wellFormed.threads.starts]
      exact wellFormed.sweep?_eq whole (wellFormed.threads.length_le_size bucket) key yield removed
    -- What was removed from one chain is on no other, so the other chains still have their matches.
    have others : (rest.flatMap fun bucket => ((here.foldl Table.discard table).chain bucket).filter
        ((here.foldl Table.discard table).admits key yield)) =
        rest.flatMap fun bucket => (table.chain bucket).filter (table.admits key yield) := by
      apply List.flatMap_congr
      intro other member
      apply wellFormed.filter_admits_foldl_discard once members
      intro handle there both
      have same := wellFormed.threads.eq_of_mem there (List.mem_of_mem_filter both)
      exact apart (same ▸ member)
    have inside : ∀ other ∈ rest, other < (here.foldl Table.discard table).bucketCount := by
      intro other member
      rw [(sameBuckets_foldl_discard here table).bucketCount]
      exact valid other (List.mem_cons_of_mem bucket member)
    have done := ih (wellFormed.foldl_discard once members) inside distinct (removed + here.length)
    rw [others] at done
    rw [List.foldlM_cons]
    simp only [getElem?_heads (valid bucket (by simp)), swept, Option.bind_eq_bind,
      Option.bind_some, List.flatMap_cons, List.length_append, List.foldl_append]
    rw [← Nat.add_assoc]
    exact done

/-- Removing while walking the chains removes what a search finds beforehand. -/
theorem WellFormed.remove?_eq (wellFormed : table.WellFormed) (key : Option K)
    (yield : Option Y) : table.remove? key yield = some (table.remove key yield) := by
  have inside : ∀ bucket ∈ table.scope key, bucket < table.bucketCount := by
    intro bucket member
    cases key with
    | none => exact List.mem_range.mp member
    | some wanted =>
      rw [List.mem_singleton.mp member]
      exact wellFormed.home_lt wanted
  have distinct : (table.scope key).Nodup := by
    cases key with
    | none => exact List.nodup_range
    | some wanted => exact List.nodup_singleton _
  have removed := wellFormed.foldlM_sweep? inside distinct key yield 0
  rw [remove?, removed, Nat.zero_add]
  rfl

end ChainedMultimap.Table
