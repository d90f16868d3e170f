import SegmentedCache.Proofs.Segment.Consistent
import SegmentedCache.Segment.Links

namespace SegmentedCache.Segment

/-!
What the steps that change links do: how entries come into a segment, move within its queues, and leave.
-/

variable {K V : Type} {s : Segment K V} {handle : Handle}

/-- The links agree with the entries again, after one handle came to stand for something else and the queues took
new lists. -/
structure Changed (s s' : Segment K V) (handle : Handle) (before after : Option (Entry K V))
    (order : Ranking → List Handle) : Prop where
  linked : s'.Linked
  differ : Differ s s' handle before after
  ordered : ∀ ranking, s'.ordered ranking = order ranking
  books : SameBooks s s'

theorem Linked.outside (linked : s.Linked) (absent : s.bare? handle = none) (ranking : Ranking) :
    handle ∉ s.ordered ranking := by
  intro member
  obtain ⟨entry, found⟩ := linked.entry?_of_mem member
  cases absent.symm.trans (bare?_of_found found)

theorem entry?_modifyEntry (s : Segment K V) (handle : Handle) (f : Entry K V → Entry K V) (other : Handle) :
    Segment.entry? (s.modifyEntry handle f) other = if other =
      handle then (s.entry? handle).map f else s.entry? other := by
  simp only [Segment.entry?, modifyEntry, Arena.get?_modify]
  split
  · rw [Option.map_map, Option.map_map]
    rfl
  · rfl

@[simp] theorem queue_modifyEntry (s : Segment K V) (handle : Handle) (f : Entry K V → Entry K V)
    (ranking : Ranking) : (s.modifyEntry handle f).queue ranking = s.queue ranking := by
  cases ranking <;> rfl

theorem sameBooks_modifyEntry (s : Segment K V) (handle : Handle) (f : Entry K V → Entry K V) :
    SameBooks s (s.modifyEntry handle f) := ⟨rfl, rfl, rfl, rfl, rfl, rfl, rfl⟩

theorem Queued.modifyEntry (queued : s.Queued) (handle : Handle) (f : Entry K V → Entry K V) :
    (s.modifyEntry handle f).Queued ∧
      ∀ ranking, (s.modifyEntry handle f).ordered ranking = s.ordered ranking := by
  apply queued_of_lists
  · exact Arena.modify_wellFormed queued.arena ..
  · intro ranking
    rw [queue_modifyEntry, queued.ranked]
  · intro ranking
    rw [queue_modifyEntry]
    apply (queued.queued ranking).congr
    intro other
    simp only [LinkedQueue.link?, Segment.modifyEntry, Arena.get?_modify]
    split
    · rename_i same
      rw [same, Option.map_map]
      cases (s.queue ranking).ranking <;> rfl
    · rfl
  · exact queued.sound

theorem Linked.modifyEntry (linked : s.Linked) (handle : Handle) {f : Entry K V → Entry K V}
    (hash : ∀ entry, (f entry).hash = entry.hash) (next : ∀ entry, (f entry).next = entry.next) :
    (s.modifyEntry handle f).Linked := by
  apply linked_of_chains (linked.toQueued.modifyEntry handle f).1 linked.table linked.fillLimit
  · intro bucket
    apply (linked.chained bucket).congr
    intro other _
    rw [next?_eq, next?_eq, entry?_modifyEntry]
    split
    · rename_i same
      simp [same, next, Function.comp_def]
    · rfl
  · intro bucket other
    rw [linked.mem_chain, entry?_modifyEntry]
    split
    · rename_i same
      simp only [same, Option.map_eq_some_iff, ↓existsAndEq, and_true, hash]
      rfl
    · rfl

theorem Linked.modifyEntry_changed (linked : s.Linked) {f : Entry K V → Entry K V} {entry : Entry K V}
    (found : s.entry? handle = some entry) (hash : ∀ entry, (f entry).hash = entry.hash)
    (next : ∀ entry, (f entry).next = entry.next) :
    Changed s (s.modifyEntry handle f) handle (some entry.bare) (some (f entry).bare) s.ordered where
  linked := linked.modifyEntry handle hash next
  differ := by
    refine ⟨bare?_of_found found, ?_, ?_⟩
    · rw [bare?, entry?_modifyEntry, if_pos rfl, found]
      rfl
    · intro other different
      rw [bare?, entry?_modifyEntry, if_neg different, bare?]
  ordered := (linked.toQueued.modifyEntry handle f).2
  books := sameBooks_modifyEntry ..

theorem requeue_some (s : Segment K V) (queue : LinkedQueue) (arena : Arena (Threaded (Entry K V))) :
    s.requeue (some (queue, arena)) =
      { s with
        arena
        byAccess := if queue.ranking = .access then queue else s.byAccess
        byWrite := if queue.ranking = .write then queue else s.byWrite } := by
  obtain ⟨ranking, head, tail, length⟩ := queue
  cases ranking <;> rfl

theorem sameBooks_requeue (s : Segment K V) (result : Option (LinkedQueue × Arena (Threaded (Entry K V)))) :
    SameBooks s (s.requeue result) := by
  cases result with
  | none => exact ⟨rfl, rfl, rfl, rfl, rfl, rfl, rfl⟩
  | some result =>
      rw [requeue_some]
      exact ⟨rfl, rfl, rfl, rfl, rfl, rfl, rfl⟩

structure Reordered (s s' : Segment K V) (order : Ranking → List Handle) : Prop where
  queued : s'.Queued
  entry? : ∀ handle, s'.entry? handle = s.entry? handle
  ordered : ∀ ranking, s'.ordered ranking = order ranking
  table : s'.table = s.table
  fillLimit : s'.fillLimit = s.fillLimit
  books : SameBooks s s'

namespace Reordered

variable {s' : Segment K V} {order : Ranking → List Handle}

theorem bare? (reordered : Reordered s s' order) (handle : Handle) : s'.bare? handle = s.bare? handle := by
  rw [Segment.bare?, reordered.entry?, Segment.bare?]

theorem trans {s'' : Segment K V} {order' : Ranking → List Handle} (first : Reordered s s' order)
    (second : Reordered s' s'' order') : Reordered s s'' order' where
  queued := second.queued
  entry? handle := (second.entry? handle).trans (first.entry? handle)
  ordered := second.ordered
  table := second.table.trans first.table
  fillLimit := second.fillLimit.trans first.fillLimit
  books := first.books.trans second.books

theorem isChain (reordered : Reordered s s' order) {bucket : Nat} {list : List Handle}
    (chain : IsChain s.arena (s.first? bucket) list) : IsChain s'.arena (s'.first? bucket) list := by
  rw [first?, reordered.table]
  apply chain.congr
  intro other _
  rw [next?_eq, next?_eq, reordered.entry?]

theorem linked (reordered : Reordered s s' order) (linked : s.Linked) : s'.Linked := by
  apply linked_of_chains reordered.queued
  · rw [reordered.table]
    exact linked.table
  · rw [reordered.table, reordered.fillLimit, linked.fillLimit]
  · exact fun bucket => reordered.isChain (linked.chained bucket)
  · intro bucket other
    rw [linked.mem_chain, reordered.entry?]
    simp only [Segment.bucket, reordered.table]

theorem changed (reordered : Reordered s s' order) (linked : s.Linked) {record : Option (Entry K V)}
    (found : s.bare? handle = record) : Changed s s' handle record record order where
  linked := reordered.linked linked
  differ := ⟨found, (reordered.bare? handle).trans found, fun other _ => reordered.bare? other⟩
  ordered := reordered.ordered
  books := reordered.books

theorem consistent (reordered : Reordered s s' order) (consistent : s.Consistent)
    (same : ∀ ranking handle, handle ∈ order ranking ↔ handle ∈ s.ordered ranking) : s'.Consistent where
  toLinked := reordered.linked consistent.toLinked
  mem_ordered := by
    intro ranking handle
    rw [reordered.ordered, same, reordered.entry?, consistent.mem_ordered]
  count_eq := by
    rw [reordered.books.count, consistent.count_eq, total_congr reordered.bare?]
  weight_eq := by
    rw [reordered.books.weight, consistent.weight_eq, total_congr reordered.bare?]

end Reordered

theorem Queued.requeue (queued : s.Queued) {ranking : Ranking} {list : List Handle}
    {result : LinkedQueue × Arena (Threaded (Entry K V))}
    (rearranged : (s.queue ranking).Rearranged s.arena list result) :
    Reordered s (s.requeue (some result)) (Function.update s.ordered ranking list) := by
  obtain ⟨queue, arena⟩ := result
  have rank : queue.ranking = ranking := rearranged.ranking.trans (queued.ranked ranking)
  have relinked : LinkedQueue.Relinked ranking s.arena arena := queued.ranked ranking ▸ rearranged.relinked
  have books := sameBooks_requeue s (some (queue, arena))
  rw [requeue_some] at books ⊢
  generalize changed : ({ s with
    arena, byAccess := if queue.ranking = .access then queue else s.byAccess,
    byWrite := if queue.ranking = .write then queue else s.byWrite } : Segment K V) = s' at books ⊢
  have arena_eq : s'.arena = arena := by rw [← changed]
  have queue_eq (other : Ranking) : s'.queue other = if other = ranking then queue else s.queue other := by
    simp only [← changed, Segment.queue, rank]
    cases ranking <;> cases other <;> simp
  have lists : s'.Queued ∧ ∀ other, s'.ordered other = Function.update s.ordered ranking list other := by
    apply queued_of_lists
    · rw [arena_eq]
      exact rearranged.wellFormed
    · intro other
      rw [queue_eq]
      split
      · rename_i same
        rw [rank, same]
      · exact queued.ranked other
    · intro other
      rw [queue_eq, arena_eq, Function.update_apply]
      split
      · exact rearranged.holds
      · rename_i different
        apply (queued.queued other).congr
        rw [queued.ranked other]
        exact relinked.link?_ne different
    · rw [← queued.sound, ← changed]
  refine ⟨lists.1, ?_, lists.2, by rw [← changed], by rw [← changed], books⟩
  intro other
  rw [Segment.entry?, arena_eq]
  exact relinked.get?_item other

theorem Queued.push (queued : s.Queued) {entry : Entry K V} (found : s.entry? handle = some entry)
    {ranking : Ranking} (outside : handle ∉ s.ordered ranking) :
    Reordered s (s.push ranking handle) (Function.update s.ordered ranking (s.ordered ranking ++ [handle])) := by
  obtain ⟨threaded, live⟩ := get?_of_found found
  obtain ⟨result, pushed, rearranged⟩ :=
    LinkedQueue.push_eq_some queued.arena (queued.queued ranking) live outside
  rw [Segment.push, pushed]
  exact queued.requeue rearranged

theorem Queued.moveToEnd (queued : s.Queued) {entry : Entry K V} (found : s.entry? handle = some entry)
    (ranking : Ranking) :
    Reordered s (s.moveToEnd ranking handle)
      (Function.update s.ordered ranking (LinkedQueue.movedToEnd (s.ordered ranking) handle)) := by
  obtain ⟨threaded, live⟩ := get?_of_found found
  obtain ⟨result, moved, rearranged⟩ :=
    LinkedQueue.moveToEnd_eq_some queued.arena (queued.queued ranking) live
  rw [Segment.moveToEnd, moved]
  exact queued.requeue rearranged

theorem Queued.dequeue (queued : s.Queued) {entry : Entry K V} (found : s.entry? handle = some entry)
    (ranking : Ranking) :
    Reordered s (s.dequeue ranking handle)
      (Function.update s.ordered ranking ((s.ordered ranking).erase handle)) := by
  obtain ⟨threaded, live⟩ := get?_of_found found
  obtain ⟨result, erased, rearranged⟩ :=
    LinkedQueue.erase_eq_some queued.arena (queued.queued ranking) live
  rw [Segment.dequeue, erased, Option.map_some]
  exact queued.requeue rearranged

def Rechained (arena arena' : Arena (Threaded (Entry K V))) : Prop :=
  ∀ handle, (arena'.get? handle).map (fun threaded => { threaded with item := threaded.item.bare }) =
    (arena.get? handle).map (fun threaded => { threaded with item := threaded.item.bare })

namespace Rechained

variable {arena arena' arena'' : Arena (Threaded (Entry K V))}

theorem refl : Rechained arena arena := fun _ => rfl

theorem trans (first : Rechained arena arena') (second : Rechained arena' arena'') : Rechained arena arena'' :=
  fun handle => (second handle).trans (first handle)

theorem setNext (handle : Handle) (next : Option Handle) :
    Rechained arena (arena.modify handle fun threaded => { threaded with item := threaded.item.setNext next }) := by
  intro other
  rw [Arena.get?_modify]
  split
  · rename_i same
    rw [same, Option.map_map]
    rfl
  · rfl

theorem bare (rechained : Rechained arena arena') (handle : Handle) :
    (arena'.get? handle).map (·.item.bare) = (arena.get? handle).map (·.item.bare) := by
  have items := congrArg (Option.map (·.item)) (rechained handle)
  simpa [Function.comp_def] using items

theorem link? (rechained : Rechained arena arena') (ranking : Ranking) (handle : Handle) :
    LinkedQueue.link? ranking arena' handle = LinkedQueue.link? ranking arena handle := by
  have links := congrArg (Option.map (·.link ranking)) (rechained handle)
  cases ranking <;> simpa [LinkedQueue.link?, Threaded.link, Function.comp_def] using links

theorem live (rechained : Rechained arena arena') {handle : Handle} {threaded : Threaded (Entry K V)}
    (found : arena.get? handle = some threaded) : ∃ threaded', arena'.get? handle = some threaded' := by
  have bare := rechained.bare handle
  rw [found, Option.map_some, Option.map_eq_some_iff] at bare
  exact bare.imp fun _ => And.left

end Rechained

/-- A table that is being filled: each bucket has the entries that were chained so far, the last one first. -/
structure Filling (s : Segment K V) (length : Nat) (chained : List (Handle × Entry K V))
    (state : Array (Option Handle) × Arena (Threaded (Entry K V))) : Prop where
  size : state.1.size = length
  wellFormed : state.2.WellFormed
  rechained : Rechained s.arena state.2
  chains : ∀ bucket, IsChain state.2 (state.1[bucket]?).join
    ((chained.filter fun stored => bucketOf length stored.2.hash = bucket).map (·.1)).reverse

theorem Filling.rechain {length : Nat} (positive : 0 < length) {chained : List (Handle × Entry K V)}
    {state : Array (Option Handle) × Arena (Threaded (Entry K V))} (filling : Filling s length chained state)
    {entry : Entry K V} (found : s.entry? handle = some entry) (fresh : handle ∉ chained.map (·.1)) :
    Filling s length (chained ++ [(handle, entry)]) (rechain state.1 state.2 handle entry.hash) := by
  obtain ⟨table, arena⟩ := state
  have size : table.size = length := filling.size
  have bound : bucketOf length entry.hash < length := Nat.mod_lt _ positive
  constructor
  · simpa [Segment.rechain] using size
  · exact Arena.modify_wellFormed filling.wellFormed ..
  · exact filling.rechained.trans (.setNext _ _)
  · intro bucket
    obtain ⟨threaded, live⟩ := get?_of_found found
    obtain ⟨threaded', live'⟩ := filling.rechained.live live
    have onward : IsChain (Segment.rechain table arena handle entry.hash).2 (table[bucket]?).join
        ((chained.filter fun stored => bucketOf length stored.2.hash = bucket).map (·.1)).reverse := by
      apply (filling.chains bucket).congr
      intro other member
      have different : other ≠ handle := by
        rintro rfl
        simp only [List.mem_reverse, List.mem_map, List.mem_filter] at member
        obtain ⟨stored, ⟨member, _⟩, same⟩ := member
        exact fresh (List.mem_map.mpr ⟨stored, member, same⟩)
      simp [next?, Segment.rechain, Arena.get?_modify, different]
    by_cases here : bucketOf length entry.hash = bucket
    · have first : ((Segment.rechain table arena handle entry.hash).1[bucket]?).join = some handle := by
        simp [Segment.rechain, size, here, here ▸ bound]
      have link : next? (Segment.rechain table arena handle entry.hash).2 handle = some (table[bucket]?).join := by
        simp [next?, Segment.rechain, size, Arena.get?_modify, live', here, Entry.setNext]
      have whole : IsChain (Segment.rechain table arena handle entry.hash).2
          ((Segment.rechain table arena handle entry.hash).1[bucket]?).join (handle :: _) :=
        ⟨first, _, link, onward⟩
      simp only [List.filter_append, List.map_append, List.reverse_append]
      simpa [here] using whole
    · have first : ((Segment.rechain table arena handle entry.hash).1[bucket]?).join = (table[bucket]?).join := by
        simp [Segment.rechain, size, Array.getElem?_setIfInBounds_ne here]
      simp only [List.filter_append, List.map_append, List.reverse_append]
      simpa [here, first] using onward

theorem Filling.foldl {length : Nat} (positive : 0 < length) (chained rest : List (Handle × Entry K V))
    {state : Array (Option Handle) × Arena (Threaded (Entry K V))} (filling : Filling s length chained state)
    (found : ∀ stored ∈ rest, s.entry? stored.1 = some stored.2)
    (distinct : ((chained ++ rest).map (·.1)).Nodup) :
    Filling s length (chained ++ rest)
      (rest.foldl (fun (table, arena) (handle, entry) => Segment.rechain table arena handle entry.hash) state) := by
  induction rest generalizing chained state with
  | nil => simpa using filling
  | cons stored rest ih =>
      obtain ⟨handle, entry⟩ := stored
      have fresh : handle ∉ chained.map (·.1) := by
        simp only [List.map_append, List.map_cons, List.nodup_append] at distinct
        exact fun member => distinct.2.2 handle member handle (by simp) rfl
      have step := filling.rechain positive (found (handle, entry) (by simp)) fresh
      rw [List.append_cons]
      exact ih _ step (fun stored member => found stored (by simp [member])) (by simpa using distinct)

theorem Linked.filled (linked : s.Linked) :
    Filling s (2 * s.table.size) s.stored
      (s.stored.foldl (fun (table, arena) (handle, entry) => Segment.rechain table arena handle entry.hash)
        (Array.replicate (2 * s.table.size) none, s.arena)) := by
  have positive : 0 < 2 * s.table.size := by have := linked.table_pos; omega
  have empty : Filling s (2 * s.table.size) [] (Array.replicate (2 * s.table.size) none, s.arena) := by
    refine ⟨by simp, linked.arena, .refl, fun bucket => ?_⟩
    rw [Array.getElem?_replicate]
    split <;> rfl
  simpa using empty.foldl positive [] s.stored (fun stored member => mem_stored.mp member)
    (by simpa using s.stored_handles_nodup)

structure Grown (s s' : Segment K V) : Prop where
  linked : s'.Linked
  bare? : ∀ handle, s'.bare? handle = s.bare? handle
  ordered : ∀ ranking, s'.ordered ranking = s.ordered ranking
  books : SameBooks s s'

theorem Linked.growTable (linked : s.Linked) : Grown s s.growTable := by
  simp only [Segment.growTable]
  split
  · exact ⟨linked, fun _ => rfl, fun _ => rfl, .refl⟩
  · have filled := linked.filled
    generalize s.stored.foldl
      (fun (table, arena) (handle, entry) => Segment.rechain table arena handle entry.hash)
      (Array.replicate (2 * s.table.size) none, s.arena) = state at filled
    obtain ⟨table, arena⟩ := state
    generalize grown : ({ s with
      table, arena, fillLimit := fillLimitOf (2 * s.table.size),
      growths := s.growths ++ [(s.table.size, 2 * s.table.size)] } : Segment K V) = s'
    have arena_eq : s'.arena = arena := by rw [← grown]
    have table_eq : s'.table = table := by rw [← grown]
    have size : s'.table.size = 2 * s.table.size := table_eq ▸ filled.size
    have queue_eq (ranking : Ranking) : s'.queue ranking = s.queue ranking := by
      rw [← grown]
      cases ranking <;> rfl
    have bare_eq (handle : Handle) : s'.bare? handle = s.bare? handle := by
      have bare := filled.rechained.bare handle
      simpa [Segment.bare?, entry?, arena_eq, Function.comp_def] using bare
    have lists : s'.Queued ∧ ∀ ranking, s'.ordered ranking = s.ordered ranking := by
      apply queued_of_lists
      · rw [arena_eq]
        exact filled.wellFormed
      · intro ranking
        rw [queue_eq, linked.ranked]
      · intro ranking
        rw [queue_eq, arena_eq]
        exact (linked.queued ranking).congr fun handle => filled.rechained.link? _ handle
      · rw [← linked.sound, ← grown]
    have linked' : s'.Linked := by
      apply linked_of_chains lists.1
      · obtain ⟨exponent, power⟩ := linked.table
        exact ⟨exponent + 1, by rw [size, power, Nat.pow_succ']⟩
      · rw [size, ← grown]
      · intro bucket
        rw [arena_eq, first?, table_eq]
        exact filled.chains bucket
      · intro bucket handle
        have hashed (entry : Entry K V) : s'.bucket entry.bare.hash = bucket ↔ s'.bucket entry.hash = bucket := .rfl
        rw [← exists_bare_iff hashed, bare_eq, exists_bare_iff hashed]
        simp [mem_stored, Segment.bucket, size]
    exact ⟨linked', bare_eq, lists.2, by rw [← grown]; exact ⟨rfl, rfl, rfl, rfl, rfl, rfl, rfl⟩⟩

theorem Grown.changed {s' : Segment K V} (grown : Grown s s') {t : Segment K V} {after : Option (Entry K V)}
    (changed : Changed s' t handle none after s'.ordered) : Changed s t handle none after s.ordered where
  linked := changed.linked
  differ := by
    refine ⟨?_, changed.differ.after, fun other different => ?_⟩
    · rw [← grown.bare?, changed.differ.before]
    · rw [changed.differ.others other different, grown.bare?]
  ordered ranking := (changed.ordered ranking).trans (grown.ordered ranking)
  books := grown.books.trans changed.books

theorem Linked.enter (linked : s.Linked) (entry : Entry K V) (first : entry.next = s.first? (s.bucket entry.hash)) :
    Changed s
      { s with
        arena := (s.arena.insert { item := entry }).2
        table := s.table.setIfInBounds (s.bucket entry.hash) (some (s.arena.insert { item := entry }).1) }.noteChange
      (s.arena.insert { item := entry }).1 none (some entry.bare) s.ordered := by
  generalize entered : ({ item := entry } : Threaded (Entry K V)) = threaded
  have fresh := Arena.get?_insert_fresh linked.arena threaded
  have get := Arena.get?_insert linked.arena threaded
  have wellFormed := Arena.insert_wellFormed linked.arena threaded
  generalize s.arena.insert threaded = result at fresh get wellFormed ⊢
  obtain ⟨handle, arena⟩ := result
  dsimp only at fresh get wellFormed ⊢
  generalize attached : ({ s with arena, table := s.table.setIfInBounds (s.bucket entry.hash) (some handle) } :
    Segment K V).noteChange = s'
  have arena_eq : s'.arena = arena := by rw [← attached, noteChange]
  have table_eq : s'.table = s.table.setIfInBounds (s.bucket entry.hash) (some handle) := by
    rw [← attached, noteChange]
  have size : s'.table.size = s.table.size := by rw [table_eq, Array.size_setIfInBounds]
  have queue_eq (ranking : Ranking) : s'.queue ranking = s.queue ranking := by
    rw [← attached]
    cases ranking <;> rfl
  have entry_eq (other : Handle) : s'.entry? other = if other = handle then some entry else s.entry? other := by
    rw [Segment.entry?, arena_eq, get, ← entered]
    split <;> rfl
  have absent : s.entry? handle = none := by rw [Segment.entry?, fresh, Option.map_none]
  have next_eq {other : Handle} (different : other ≠ handle) : next? s'.arena other = next? s.arena other := by
    rw [next?, arena_eq, get, if_neg different, next?]
  have elsewhere {bucket : Nat} {other : Handle} (member : other ∈ s.chain bucket) : other ≠ handle := by
    rintro rfl
    obtain ⟨entry, found, _⟩ := (linked.mem_chain bucket other).mp member
    cases absent.symm.trans found
  -- whoever is new stands in no queue yet
  have lists : s'.Queued ∧ ∀ ranking, s'.ordered ranking = s.ordered ranking := by
    apply queued_of_lists
    · rw [arena_eq]
      exact wellFormed
    · intro ranking
      rw [queue_eq, linked.ranked]
    · intro ranking
      rw [queue_eq, arena_eq]
      apply (linked.queued ranking).insert fresh get
      rw [← entered]
      cases (s.queue ranking).ranking <;> rfl
    · rw [← linked.sound, ← attached, noteChange]
  have linked' : s'.Linked := by
    apply linked_of_chains lists.1
    · rw [size]
      exact linked.table
    · rw [size, ← linked.fillLimit, ← attached, noteChange]
    · intro bucket
      show IsChain s'.arena (s'.first? bucket)
        (if bucket = s.bucket entry.hash then handle :: s.chain bucket else s.chain bucket)
      have onward : IsChain s'.arena (s.first? bucket) (s.chain bucket) :=
        (linked.chained bucket).congr fun other member => next_eq (elsewhere member)
      by_cases here : bucket = s.bucket entry.hash
      · rw [if_pos here]
        refine ⟨?_, s.first? bucket, ?_, onward⟩
        · simp [first?, table_eq, here, linked.bucket_lt entry.hash]
        · simp [next?, arena_eq, get, ← entered, here, first]
      · rw [if_neg here, first?, table_eq, Array.getElem?_setIfInBounds_ne (Ne.symm here)]
        exact onward
    · intro bucket other
      have bucket_eq (hash : UInt64) : s'.bucket hash = s.bucket hash := by simp [Segment.bucket, size]
      simp only [bucket_eq, entry_eq]
      by_cases same : other = handle
      · have not_chained : handle ∉ s.chain bucket := fun member => elsewhere member rfl
        by_cases here : bucket = s.bucket entry.hash
        · simp [same, here]
        · simp [same, here, Ne.symm here, not_chained]
      · rw [if_neg same, ← linked.mem_chain]
        split <;> simp [same]
  refine ⟨linked', ⟨?_, ?_, ?_⟩, lists.2, ?_⟩
  · rw [Segment.bare?, absent, Option.map_none]
  · rw [Segment.bare?, entry_eq, if_pos rfl]
    rfl
  · intro other different
    rw [Segment.bare?, entry_eq, if_neg different, Segment.bare?]
  · rw [← attached]
    exact ⟨rfl, rfl, rfl, rfl, rfl, rfl, rfl⟩

theorem Linked.attach (linked : s.Linked) (key : Shared K) (hash : UInt64) (content : Content V)
    (weight now : Nat) :
    Changed s (s.attach key hash content weight now).2 (s.attach key hash content weight now).1
      none (some { key, hash, content, weight, written := now, accessed := now }) s.ordered := by
  have grown : Grown s (if s.arena.size + 1 > s.fillLimit then s.growTable else s) := by
    split
    · exact linked.growTable
    · exact ⟨linked, fun _ => rfl, fun _ => rfl, .refl⟩
  simp only [Segment.attach]
  generalize (if s.arena.size + 1 > s.fillLimit then s.growTable else s) = g at grown ⊢
  exact grown.changed (grown.linked.enter
    { key, hash, content, weight, written := now, accessed := now, next := g.first? (g.bucket hash) } rfl)

structure Unchained (s s' : Segment K V) (handle : Handle) : Prop where
  queued : s'.Queued
  chained : ∀ bucket, IsChain s'.arena (s'.first? bucket) ((s.chain bucket).erase handle)
  bare? : ∀ other, s'.bare? other = s.bare? other
  ordered : ∀ ranking, s'.ordered ranking = s.ordered ranking
  size : s'.table.size = s.table.size
  fillLimit : s'.fillLimit = s.fillLimit
  books : SameBooks s s'

theorem Linked.mem_own_chain (linked : s.Linked) {entry : Entry K V} (found : s.entry? handle = some entry) :
    handle ∈ s.chain (s.bucket entry.hash) :=
  (linked.mem_chain _ _).mpr ⟨entry, found, rfl⟩

theorem Linked.not_mem_chain (linked : s.Linked) {entry : Entry K V} (found : s.entry? handle = some entry)
    {bucket : Nat} (different : bucket ≠ s.bucket entry.hash) : handle ∉ s.chain bucket := by
  intro inside
  obtain ⟨entry', found', here⟩ := (linked.mem_chain _ _).mp inside
  cases found.symm.trans found'
  exact different here.symm

theorem next?_of_entry {entry : Entry K V} (found : s.entry? handle = some entry) :
    next? s.arena handle = some entry.next := by
  rw [next?_eq, found, Option.map_some]

theorem Linked.find_before (linked : s.Linked) {bucket : Nat} (member : handle ∈ s.chain bucket)
    (inside : s.first? bucket ≠ some handle) :
    ∃ front before back, s.chain bucket = front ++ before :: handle :: back ∧
      (s.chain bucket).find? (fun before => (s.entry? before).any (·.next = some handle)) = some before := by
  have points {other : Handle} : (s.entry? other).any (·.next = some handle) = true ↔
      next? s.arena other = some (some handle) := by
    rw [next?_eq]
    cases s.entry? other <;> simp
  have some_before : ∃ before ∈ s.chain bucket, (s.entry? before).any (·.next = some handle) = true := by
    obtain ⟨front, back, split⟩ := List.append_of_mem member
    have chain := linked.chained bucket
    rw [split] at chain ⊢
    rcases List.eq_nil_or_concat front with rfl | ⟨front, before, rfl⟩
    · exact absurd chain.1 inside
    · rw [List.concat_eq_append, List.append_assoc, List.singleton_append] at chain ⊢
      obtain ⟨_, next, link, first, _⟩ := chain.suffix
      exact ⟨before, by simp, points.mpr (by rw [link, first])⟩
  obtain ⟨before, located⟩ := Option.isSome_iff_exists.mp (List.find?_isSome.mpr some_before)
  obtain ⟨front, back, split⟩ := List.append_of_mem (List.mem_of_find?_eq_some located)
  have pointing := List.find?_some located
  have link := points.mp pointing
  have chain := linked.chained bucket
  rw [split] at chain
  obtain ⟨_, next, link', onward⟩ := chain.suffix
  cases link.symm.trans link'
  cases back with
  | nil => cases onward
  | cons second back =>
      cases onward.1
      exact ⟨front, before, back, split, located⟩

theorem Linked.unchain_first (linked : s.Linked) {entry : Entry K V} (found : s.entry? handle = some entry)
    (first : s.first? (s.bucket entry.hash) = some handle) :
    Unchained s { s with table := s.table.setIfInBounds (s.bucket entry.hash) entry.next } handle := by
  generalize headless : ({ s with table := s.table.setIfInBounds (s.bucket entry.hash) entry.next } :
    Segment K V) = s'
  have arena_eq : s'.arena = s.arena := by rw [← headless]
  have table_eq : s'.table = s.table.setIfInBounds (s.bucket entry.hash) entry.next := by rw [← headless]
  have queued := linked.toQueued.of_eq arena_eq (fun ranking => by rw [← headless]; cases ranking <;> rfl)
    (by rw [← headless])
  refine ⟨queued.1, ?_, ?_, queued.2, ?_, ?_, ?_⟩
  · intro bucket
    have chain := linked.chained bucket
    rw [arena_eq, first?, table_eq]
    by_cases here : bucket = s.bucket entry.hash
    · rw [here] at chain ⊢
      rw [Array.getElem?_setIfInBounds_self_of_lt (linked.bucket_lt entry.hash)]
      obtain ⟨front, back, split⟩ := List.append_of_mem (linked.mem_own_chain found)
      have suffix := (split ▸ chain).suffix
      rw [first] at chain
      rw [chain.unique suffix, List.erase_cons_head]
      obtain ⟨_, next, link, onward⟩ := suffix
      cases (next?_of_entry found).symm.trans link
      exact onward
    · rw [Array.getElem?_setIfInBounds_ne (Ne.symm here), List.erase_of_not_mem (linked.not_mem_chain found here)]
      exact chain
  · intro other
    rw [Segment.bare?, entry?, arena_eq, Segment.bare?, entry?]
  · rw [table_eq, Array.size_setIfInBounds]
  · rw [← headless]
  · rw [← headless]
    exact ⟨rfl, rfl, rfl, rfl, rfl, rfl, rfl⟩

theorem Linked.unchain_behind (linked : s.Linked) {entry : Entry K V} (found : s.entry? handle = some entry)
    {front back : List Handle} {before : Handle}
    (split : s.chain (s.bucket entry.hash) = front ++ before :: handle :: back) :
    Unchained s (s.modifyEntry before (·.setNext entry.next)) handle := by
  have queued := linked.toQueued.modifyEntry before (·.setNext entry.next)
  have at_before : before ∈ s.chain (s.bucket entry.hash) := by simp [split]
  obtain ⟨entry', found', placed⟩ := (linked.mem_chain _ _).mp at_before
  have next_eq {other : Handle} (different : other ≠ before) :
      next? (s.modifyEntry before (·.setNext entry.next)).arena other = next? s.arena other := by
    rw [next?_eq, entry?_modifyEntry, if_neg different, next?_eq]
  refine ⟨queued.1, ?_, ?_, queued.2, rfl, rfl, sameBooks_modifyEntry ..⟩
  · intro bucket
    have chain := linked.chained bucket
    by_cases here : bucket = s.bucket entry.hash
    · rw [here, split] at chain
      have erased : (s.chain bucket).erase handle = front ++ before :: back := by
        have distinct := chain.nodup
        have not_front : handle ∉ front ++ [before] := by
          rw [List.append_cons, List.nodup_append] at distinct
          exact fun inside => distinct.2.2 handle inside handle (by simp) rfl
        rw [here, split, List.append_cons, List.erase_append_right _ not_front, List.erase_cons_head]
        simp
      rw [erased, here]
      apply chain.erase (next?_of_entry found)
      · rw [next?_eq, entry?_modifyEntry, if_pos rfl, found']
        rfl
      · exact fun other different => next_eq different
    · -- the other chains do not come through the one that is changed
      rw [List.erase_of_not_mem (linked.not_mem_chain found here)]
      apply chain.congr
      intro other inside
      apply next_eq
      rintro rfl
      exact linked.not_mem_chain found' (placed ▸ here) inside
  · intro other
    rw [Segment.bare?, entry?_modifyEntry, Segment.bare?]
    split
    · rename_i same
      rw [same, Option.map_map]
      rfl
    · rfl

theorem Linked.unchain (linked : s.Linked) {entry : Entry K V} (found : s.entry? handle = some entry) :
    Unchained s (s.unchain handle entry) handle := by
  simp only [Segment.unchain]
  split
  · rename_i first
    exact linked.unchain_first found first
  · rename_i inside
    obtain ⟨front, before, back, split, located⟩ := linked.find_before (linked.mem_own_chain found) inside
    rw [located]
    exact linked.unchain_behind found split

theorem Linked.detach (linked : s.Linked) {entry : Entry K V} (found : s.entry? handle = some entry) :
    Changed s
      ({ ((s.unchain handle entry).dequeue .access handle).dequeue .write handle with
          arena := ((((s.unchain handle entry).dequeue .access handle).dequeue .write handle).arena.remove
            handle).2 }.noteChange)
      handle (some entry.bare) none (fun ranking => (s.ordered ranking).erase handle) := by
  have unchained := linked.unchain found
  have live_of {t : Segment K V} (same : t.bare? handle = s.bare? handle) :
      ∃ entry', t.entry? handle = some entry' := by
    rw [bare?_of_found found, bare?_eq_some] at same
    exact same.imp fun _ => And.left
  generalize s.unchain handle entry = u at unchained ⊢
  obtain ⟨entry₁, found₁⟩ := live_of (unchained.bare? handle)
  have first := unchained.queued.dequeue found₁ .access
  obtain ⟨entry₂, found₂⟩ := live_of ((first.bare? handle).trans (unchained.bare? handle))
  have reordered := first.trans (first.queued.dequeue found₂ .write)
  -- In `q` the entry is out of its chain and both queues, and still in the arena.
  generalize (u.dequeue .access handle).dequeue .write handle = q at reordered ⊢
  have bare_eq (other : Handle) : q.bare? other = s.bare? other :=
    (reordered.bare? other).trans (unchained.bare? other)
  have ordered_eq (ranking : Ranking) : q.ordered ranking = (s.ordered ranking).erase handle := by
    rw [reordered.ordered]
    cases ranking <;> simp [first.ordered, unchained.ordered]
  generalize removed : ({ q with arena := (q.arena.remove handle).2 } : Segment K V).noteChange = s'
  have arena_eq : s'.arena = (q.arena.remove handle).2 := by rw [← removed, noteChange]
  have table_eq : s'.table = u.table := by rw [← removed, noteChange, reordered.table]
  have queue_eq (ranking : Ranking) : s'.queue ranking = q.queue ranking := by
    rw [← removed]
    cases ranking <;> rfl
  have get (other : Handle) : s'.arena.get? other = if other = handle then none else q.arena.get? other := by
    rw [arena_eq, Arena.get?_remove]
  have entry_eq (other : Handle) : s'.entry? other = if other = handle then none else q.entry? other := by
    rw [Segment.entry?, get]
    split <;> rfl
  have lists : s'.Queued ∧ ∀ ranking, s'.ordered ranking = (s.ordered ranking).erase handle := by
    apply queued_of_lists
    · rw [arena_eq]
      exact Arena.remove_wellFormed reordered.queued.arena handle
    · intro ranking
      rw [queue_eq, reordered.queued.ranked]
    · intro ranking
      rw [queue_eq, ← ordered_eq]
      apply (reordered.queued.queued ranking).remove _ get
      rw [ordered_eq]
      exact (linked.queued ranking).nodup.not_mem_erase
    · rw [← reordered.queued.sound, ← removed, noteChange]
  have left (other : Handle) : s'.bare? other = if other = handle then none else s.bare? other := by
    rw [← bare_eq, Segment.bare?, entry_eq]
    split <;> rfl
  have linked' : s'.Linked := by
    apply linked_of_chains lists.1
    · rw [table_eq, unchained.size]
      exact linked.table
    · rw [table_eq, unchained.size, ← linked.fillLimit, ← unchained.fillLimit, ← reordered.fillLimit,
        ← removed, noteChange]
    · intro bucket
      have chain := reordered.isChain (unchained.chained bucket)
      have first_eq : s'.first? bucket = q.first? bucket := by rw [first?, first?, table_eq, reordered.table]
      rw [first_eq]
      apply chain.congr
      intro other member
      have different : other ≠ handle := by
        rintro rfl
        exact (linked.chained bucket).nodup.not_mem_erase member
      rw [next?_eq, next?_eq, entry_eq, if_neg different]
    · intro bucket other
      have hashed (entry : Entry K V) : s.bucket entry.bare.hash = bucket ↔ s.bucket entry.hash = bucket := .rfl
      have bucket_eq (hash : UInt64) : s'.bucket hash = s.bucket hash := by
        rw [Segment.bucket, table_eq, unchained.size, Segment.bucket]
      simp only [bucket_eq]
      rw [(linked.chained bucket).nodup.mem_erase_iff, linked.mem_chain, ← exists_bare_iff hashed,
        ← exists_bare_iff hashed, left]
      by_cases same : other = handle <;> simp [same]
  refine ⟨linked', ⟨bare?_of_found found, ?_, ?_⟩, lists.2, (unchained.books.trans reordered.books).trans ?_⟩
  · rw [left, if_pos rfl]
  · intro other different
    rw [left, if_neg different]
  · rw [← removed]
    exact ⟨rfl, rfl, rfl, rfl, rfl, rfl, rfl⟩

end SegmentedCache.Segment
