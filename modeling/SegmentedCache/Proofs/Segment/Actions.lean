import Mathlib.Algebra.Order.BigOperators.Group.List
import Mathlib.Algebra.Order.Group.Nat
import SegmentedCache.Proofs.Segment.Links
import SegmentedCache.Segment.Load

namespace SegmentedCache

/-!
The actions that operations are made of. Each leads from a segment that is in order to one that is, and changes what
one handle stands for. What it changes besides the records is said by a ledger.
-/

variable {K V : Type}

def Policy.removalsOf (policy : Policy K V) (reach : Reach) (entry : Entry K V) (cause : Cause) :
    List (Removal K V) :=
  entry.visible?.toList.map fun value =>
    { key := ⟨entry.key, policy.keyStrength.reaches reach entry.key⟩
      value := ⟨value, policy.valueStrength.reaches reach value⟩
      cause }

def Policy.used (policy : Policy K V) (now : Nat) (entry : Entry K V) : Entry K V :=
  if policy.tracksReads then entry.touch now else entry

def Load.displaceIn (loads : Array (Load K V)) (load : Option LoadId) (cause : Cause) : Array (Load K V) :=
  match load with
  | none => loads
  | some load => loads.modify load (Load.displace cause)

namespace Segment

variable {s s' s'' : Segment K V} {handle : Handle}

/-- All of a segment but its links and its records. -/
structure Ledger (K V : Type) where
  policy : Policy K V
  bound : Bound
  ordered : Ranking → List Handle
  readLog : Array Handle
  loads : Array (Load K V)
  removals : List (Removal K V)

def ledger (s : Segment K V) : Ledger K V where
  policy := s.policy
  bound := s.bound
  ordered := s.ordered
  readLog := s.readLog
  loads := s.loads
  removals := s.removals

/-- The second segment is in order, differs from the first in what one handle stands for, and has this ledger. -/
structure Transition (s s' : Segment K V) (handle : Handle) (before after : Option (Entry K V))
    (ledger : Ledger K V) : Prop where
  consistent : s'.Consistent
  differ : Differ s s' handle before after
  ledger : s'.ledger = ledger

namespace Transition

variable {before after : Option (Entry K V)} {ledger : Ledger K V}

theorem policy (transition : Transition s s' handle before after ledger) : s'.policy = ledger.policy :=
  congrArg Ledger.policy transition.ledger

theorem bound (transition : Transition s s' handle before after ledger) : s'.bound = ledger.bound :=
  congrArg Ledger.bound transition.ledger

theorem ordered (transition : Transition s s' handle before after ledger) : s'.ordered = ledger.ordered :=
  congrArg Ledger.ordered transition.ledger

theorem readLog (transition : Transition s s' handle before after ledger) : s'.readLog = ledger.readLog :=
  congrArg Ledger.readLog transition.ledger

theorem loads (transition : Transition s s' handle before after ledger) : s'.loads = ledger.loads :=
  congrArg Ledger.loads transition.ledger

theorem removals (transition : Transition s s' handle before after ledger) : s'.removals = ledger.removals :=
  congrArg Ledger.removals transition.ledger

theorem trans {after' : Option (Entry K V)} {ledger' : Ledger K V}
    (first : Transition s s' handle before after ledger) (second : Transition s' s'' handle after after' ledger') :
    Transition s s'' handle before after' ledger' where
  consistent := second.consistent
  differ := first.differ.trans second.differ
  ledger := second.ledger

end Transition

/-- The second segment is in order, holds the records of the first, and has this ledger. -/
structure Rebooked (s s' : Segment K V) (ledger : Ledger K V) : Prop where
  consistent : s'.Consistent
  bare? : ∀ handle, s'.bare? handle = s.bare? handle
  ledger : s'.ledger = ledger

namespace Rebooked

variable {ledger ledger' : Ledger K V}

theorem transition (rebooked : Rebooked s s' ledger) (handle : Handle) :
    Transition s s' handle (s.bare? handle) (s.bare? handle) ledger where
  consistent := rebooked.consistent
  differ := ⟨rfl, rebooked.bare? handle, fun other _ => rebooked.bare? other⟩
  ledger := rebooked.ledger

theorem policy (rebooked : Rebooked s s' ledger) : s'.policy = ledger.policy :=
  congrArg Ledger.policy rebooked.ledger

theorem bound (rebooked : Rebooked s s' ledger) : s'.bound = ledger.bound :=
  congrArg Ledger.bound rebooked.ledger

theorem ordered (rebooked : Rebooked s s' ledger) : s'.ordered = ledger.ordered :=
  congrArg Ledger.ordered rebooked.ledger

theorem loads (rebooked : Rebooked s s' ledger) : s'.loads = ledger.loads :=
  congrArg Ledger.loads rebooked.ledger

theorem removals (rebooked : Rebooked s s' ledger) : s'.removals = ledger.removals :=
  congrArg Ledger.removals rebooked.ledger

theorem trans (first : Rebooked s s' ledger) (second : Rebooked s' s'' ledger') : Rebooked s s'' ledger' where
  consistent := second.consistent
  bare? handle := (second.bare? handle).trans (first.bare? handle)
  ledger := second.ledger

end Rebooked

theorem Transition.rebooked {before after : Option (Entry K V)} {ledger ledger' : Ledger K V}
    (first : Transition s s' handle before after ledger) (second : Rebooked s' s'' ledger') :
    Transition s s'' handle before after ledger' := by
  have kept := second.transition handle
  rw [first.differ.after] at kept
  exact first.trans kept

theorem Rebooked.followed {before after : Option (Entry K V)} {ledger ledger' : Ledger K V}
    (first : Rebooked s s' ledger) (second : Transition s' s'' handle before after ledger') :
    Transition s s'' handle before after ledger' := by
  have kept := first.transition handle
  rw [← first.bare?, second.differ.before] at kept
  exact kept.trans second

theorem Transition.of_same {record : Option (Entry K V)} {ledger : Ledger K V}
    (same : Transition s s' handle record record ledger) : Rebooked s s' ledger where
  consistent := same.consistent
  bare? other := by
    by_cases equal : other = handle
    · rw [equal, same.differ.after, same.differ.before]
    · exact same.differ.others other equal
  ledger := same.ledger

structure SameLinks (s s' : Segment K V) : Prop where
  table : s'.table = s.table
  arena : s'.arena = s.arena
  fillLimit : s'.fillLimit = s.fillLimit
  byAccess : s'.byAccess = s.byAccess
  byWrite : s'.byWrite = s.byWrite
  fault : s'.fault = s.fault

namespace SameLinks

theorem queue (same : SameLinks s s') (ranking : Ranking) : s'.queue ranking = s.queue ranking := by
  cases ranking
  · exact same.byAccess
  · exact same.byWrite

theorem entry? (same : SameLinks s s') (handle : Handle) : s'.entry? handle = s.entry? handle := by
  rw [Segment.entry?, same.arena, Segment.entry?]

theorem bare? (same : SameLinks s s') (handle : Handle) : s'.bare? handle = s.bare? handle := by
  rw [Segment.bare?, same.entry?, Segment.bare?]

theorem ordered (same : SameLinks s s') : s'.ordered = s.ordered := by
  funext ranking
  rw [Segment.ordered, same.queue, same.arena, Segment.ordered]

theorem differ {before after : Option (Entry K V)} (same : SameLinks s' s'')
    (differ : Differ s s' handle before after) : Differ s s'' handle before after where
  before := differ.before
  after := (same.bare? handle).trans differ.after
  others other different := (same.bare? other).trans (differ.others other different)

theorem linked (same : SameLinks s s') (linked : s.Linked) : s'.Linked := by
  have queued := linked.toQueued.of_eq same.arena same.queue same.fault
  apply linked_of_chains queued.1
  · rw [same.table]
    exact linked.table
  · rw [same.fillLimit, linked.fillLimit, same.table]
  · intro bucket
    rw [same.arena, first?, same.table]
    exact linked.chained bucket
  · intro bucket handle
    rw [linked.mem_chain, same.entry?]
    simp only [Segment.bucket, same.table]

end SameLinks

theorem Consistent.transition {before after : Option (Entry K V)} {order : Ranking → List Handle}
    (consistent : s.Consistent) (linked : s'.Linked) (differ : Differ s s' handle before after)
    (ordered : ∀ ranking, s'.ordered ranking = order ranking)
    (members : ∀ ranking other, other ∈ order ranking ↔
      if other = handle then ∃ record, after = some record ∧ record.isReserved = false
      else other ∈ s.ordered ranking)
    (count : s'.count + before.elim 0 Entry.counts = s.count + after.elim 0 Entry.counts)
    (weight : s'.weight + before.elim 0 Entry.weighs = s.weight + after.elim 0 Entry.weighs) :
    Transition s s' handle before after { s'.ledger with ordered := order } := by
  have unreserved (entry : Entry K V) : entry.bare.isReserved = false ↔ entry.isReserved = false := .rfl
  refine ⟨⟨linked, ?_, ?_, ?_⟩, differ, by rw [← funext ordered]; rfl⟩
  · intro ranking other
    rw [ordered, members, ← exists_bare_iff unreserved, differ.bare?]
    split
    · rfl
    · rw [consistent.mem_ordered, ← exists_bare_iff unreserved]
  · have total := differ.total Entry.counts
    have before_eq := consistent.count_eq
    omega
  · have total := differ.total Entry.weighs
    have before_eq := consistent.weight_eq
    omega

theorem Consistent.rebook (consistent : s.Consistent) (changes : Nat) (readLog : Array Handle)
    (loads : Array (Load K V)) (removals : List (Removal K V)) (growths : List (Nat × Nat)) :
    Rebooked s { s with changes, readLog, loads, removals, growths } { s.ledger with readLog, loads, removals } := by
  have links : SameLinks s { s with changes, readLog, loads, removals, growths } := ⟨rfl, rfl, rfl, rfl, rfl, rfl⟩
  refine ⟨⟨links.linked consistent.toLinked, ?_, ?_, ?_⟩, links.bare?, ?_⟩
  · intro ranking handle
    rw [links.ordered, links.entry?, consistent.mem_ordered]
  · exact consistent.count_eq.trans (total_congr links.bare? _).symm
  · exact consistent.weight_eq.trans (total_congr links.bare? _).symm
  · simp only [Segment.ledger, links.ordered]

theorem displace_eq (s : Segment K V) (load : Option LoadId) (cause : Cause) :
    s.displace load cause = { s with loads := Load.displaceIn s.loads load cause } := by
  cases load <;> rfl

theorem Consistent.displace (consistent : s.Consistent) (load : Option LoadId) (cause : Cause) :
    Rebooked s (s.displace load cause) { s.ledger with loads := Load.displaceIn s.loads load cause } := by
  rw [displace_eq]
  exact consistent.rebook ..

theorem Consistent.report (consistent : s.Consistent) (removal : Removal K V) :
    Rebooked s (s.report removal) { s.ledger with removals := s.removals ++ [removal] } :=
  consistent.rebook ..

theorem Consistent.collected (consistent : s.Consistent) :
    Rebooked s { s with removals := [], growths := [] } { s.ledger with removals := [] } :=
  consistent.rebook ..

theorem Consistent.modifyLoad (consistent : s.Consistent) (load : LoadId) (f : Load K V → Load K V) :
    Rebooked s (s.modifyLoad load f) { s.ledger with loads := s.loads.modify load f } :=
  consistent.rebook ..

theorem Consistent.noteChange (consistent : s.Consistent) : Rebooked s s.noteChange s.ledger :=
  consistent.rebook ..

theorem Consistent.issue (consistent : s.Consistent) (thread : ThreadId) (key : Shared K) :
    Rebooked s (s.issue thread key).2 { s.ledger with loads := s.loads.push { key, owner := some thread } } :=
  consistent.rebook ..

theorem Consistent.forgetReads (consistent : s.Consistent) :
    Rebooked s { s with readLog := #[] } { s.ledger with readLog := #[] } :=
  consistent.rebook ..

theorem le_total (f : Entry K V → Nat) (record : Entry K V) (found : s.bare? handle = some record) :
    f record ≤ s.total f :=
  List.le_sum_of_mem (List.mem_map.mpr ⟨(handle, record), mem_records.mpr found, rfl⟩)

theorem discount_eq (s : Segment K V) (reach : Reach) (entry : Entry K V) (cause : Cause)
    (counts : entry.counts ≤ s.count) (weighs : entry.weighs ≤ s.weight) :
    s.discount reach entry cause =
      { s with
        count := s.count - entry.counts
        weight := s.weight - entry.weighs
        removals := s.removals ++ s.policy.removalsOf reach entry cause } := by
  have reserved := entry.isReserved_iff
  unfold discount
  cases visible : entry.visible? with
  | none => simp [Policy.removalsOf, visible, Entry.counts, Entry.weighs, reserved.mpr visible]
  | some value =>
      have unreserved : entry.isReserved = false := by simp [← Bool.not_eq_true, reserved, visible]
      simp only [Entry.counts, Entry.weighs, unreserved, Bool.false_eq_true, ↓reduceIte] at counts weighs
      have enough : ¬ (s.count = 0 ∨ s.weight < entry.weight) := by omega
      simp [Policy.removalsOf, visible, Entry.counts, Entry.weighs, unreserved, enough, Segment.report]

theorem Consistent.discard (consistent : s.Consistent) {entry : Entry K V} (found : s.entry? handle = some entry)
    (reach : Reach) (cause : Cause) :
    Transition s (s.discard reach handle cause) handle (some entry.bare) none
      { s.ledger with
        ordered := fun ranking => (s.ordered ranking).erase handle
        loads := Load.displaceIn s.loads entry.load? cause
        removals := s.removals ++ s.policy.removalsOf reach entry cause } := by
  have detached := consistent.toLinked.detach found
  have counts : entry.counts ≤ s.count :=
    consistent.count_eq ▸ le_total Entry.counts entry.bare (bare?_of_found found)
  have weighs : entry.weighs ≤ s.weight :=
    consistent.weight_eq ▸ le_total Entry.weighs entry.bare (bare?_of_found found)
  simp only [Segment.discard, found]
  generalize ({ ((s.unchain handle entry).dequeue .access handle).dequeue .write handle with
    arena := ((((s.unchain handle entry).dequeue .access handle).dequeue .write handle).arena.remove
      handle).2 } : Segment K V).noteChange = t at detached ⊢
  rw [displace_eq, discount_eq _ reach entry cause (detached.books.count ▸ counts) (detached.books.weight ▸ weighs)]
  have links : SameLinks t { t with
      count := t.count - entry.counts
      weight := t.weight - entry.weighs
      loads := Load.displaceIn t.loads entry.load? cause
      removals := t.removals ++ t.policy.removalsOf reach entry cause } :=
    ⟨rfl, rfl, rfl, rfl, rfl, rfl⟩
  have transition := consistent.transition (links.linked detached.linked) (links.differ detached.differ)
    (fun ranking => (congrFun links.ordered ranking).trans (detached.ordered ranking)) ?_ ?_ ?_
  · simpa [Segment.ledger, detached.books.policy, detached.books.bound, detached.books.readLog,
      detached.books.loads, detached.books.removals] using transition
  · intro ranking other
    rw [(consistent.queued ranking).nodup.mem_erase_iff]
    split <;> simp_all
  · have count := detached.books.count
    simp only [Option.elim_some, Option.elim_none]
    show t.count - entry.counts + entry.counts = s.count + 0
    omega
  · have weight := detached.books.weight
    simp only [Option.elim_some, Option.elim_none]
    show t.weight - entry.weighs + entry.weighs = s.weight + 0
    omega

theorem SameBooks.ledger (books : SameBooks s s') (order : Ranking → List Handle) :
    { s'.ledger with ordered := order } = { s.ledger with ordered := order } := by
  simp [Segment.ledger, books.policy, books.bound, books.readLog, books.loads, books.removals]

theorem Consistent.reserve (consistent : s.Consistent) (key : Shared K) (hash : UInt64) (load : LoadId)
    (now : Nat) :
    Transition s (s.attach key hash (.loading load none) 0 now).2 (s.attach key hash (.loading load none) 0 now).1
      none (some { key, hash, content := .loading load none, weight := 0, written := now, accessed := now })
      s.ledger := by
  have attached := consistent.toLinked.attach key hash (.loading load none) 0 now
  have transition := consistent.transition attached.linked attached.differ attached.ordered ?_ ?_ ?_
  · rwa [attached.books.ledger] at transition
  · intro ranking other
    have outside := consistent.toLinked.outside attached.differ.before ranking
    split
    · rename_i same
      simp [same, outside, Entry.isReserved]
    · rfl
  · simp [attached.books.count, Entry.counts, Entry.isReserved]
  · simp [attached.books.weight, Entry.weighs, Entry.isReserved]

theorem Consistent.grant (consistent : s.Consistent) (now : Nat) (thread : ThreadId) (key : Shared K) (hash : UInt64) :
    ∃ handle, Transition s (s.grant now thread key hash).2 handle none
      (some { key, hash, content := .loading s.loads.size none, weight := 0, written := now, accessed := now })
      { s.ledger with loads := s.loads.push { key, owner := some thread } } := by
  have issued := consistent.issue thread key
  have reserved := issued.consistent.reserve key hash s.loads.size now
  rw [issued.ledger] at reserved
  exact ⟨_, issued.followed reserved⟩

theorem Linked.enroll (linked : s.Linked) {entry : Entry K V} (found : s.entry? handle = some entry)
    (outside : ∀ ranking, handle ∉ s.ordered ranking) :
    ∃ t, Changed s t handle (some entry.bare) (some entry.bare) (fun ranking => s.ordered ranking ++ [handle]) ∧
      s.enroll handle = { t with count := s.count + 1, weight := s.weight + entry.weight } := by
  have first := linked.toQueued.push found (outside .write)
  have found_first := (first.entry? handle).trans found
  have outside_first : handle ∉ (s.push .write handle).ordered .access := by
    simpa [first.ordered] using outside .access
  have second := first.queued.push found_first outside_first
  have both := first.trans second
  have found_both := (both.entry? handle).trans found
  have order (ranking : Ranking) : ((s.push .write handle).push .access handle).ordered ranking =
      s.ordered ranking ++ [handle] := by
    rw [both.ordered]
    cases ranking <;> simp [first.ordered]
  refine ⟨(s.push .write handle).push .access handle, ⟨both.linked linked, ?_, order, both.books⟩, ?_⟩
  · exact (both.changed linked (bare?_of_found found)).differ
  · delta Segment.enroll
    simp only [found_both, both.books.count, both.books.weight]

theorem Consistent.enroll {t : Segment K V} {before : Option (Entry K V)} {record : Entry K V}
    (consistent : s.Consistent) (changed : Changed s t handle before (some record) s.ordered)
    (unreserved : record.isReserved = false) (uncounted : ∀ entry, before = some entry → entry.isReserved = true) :
    Transition s (t.enroll handle) handle before (some record)
      { s.ledger with ordered := fun ranking => s.ordered ranking ++ [handle] } := by
  obtain ⟨entry, found, rfl⟩ := bare?_eq_some.mp changed.differ.after
  rw [Entry.isReserved_bare] at unreserved
  have outside (ranking : Ranking) : handle ∉ t.ordered ranking := by
    rw [changed.ordered, consistent.mem_ordered]
    rintro ⟨entry', found', counted⟩
    have reserved := uncounted entry'.bare (changed.differ.before.symm.trans (bare?_of_found found'))
    simp [counted] at reserved
  have nothing (f : Entry K V → Nat) (skips : ∀ entry, entry.isReserved = true → f entry = 0) :
      before.elim 0 f = 0 := by
    cases before with
    | none => rfl
    | some entry => exact skips entry (uncounted entry rfl)
  obtain ⟨u, enrolled, enroll_eq⟩ := changed.linked.enroll found outside
  have links : SameLinks u (t.enroll handle) := by
    rw [enroll_eq]
    exact ⟨rfl, rfl, rfl, rfl, rfl, rfl⟩
  have books : { (t.enroll handle).ledger with ordered := fun ranking => s.ordered ranking ++ [handle] } =
      { s.ledger with ordered := fun ranking => s.ordered ranking ++ [handle] } := by
    rw [← changed.books.ledger, ← enrolled.books.ledger, enroll_eq]
    rfl
  have order (ranking : Ranking) : (t.enroll handle).ordered ranking = s.ordered ranking ++ [handle] := by
    rw [links.ordered, enrolled.ordered, changed.ordered]
  have transition := consistent.transition (links.linked enrolled.linked)
    (links.differ (changed.differ.trans enrolled.differ)) order ?_ ?_ ?_
  · rwa [books] at transition
  · intro ranking other
    split
    · rename_i same
      simp [same, unreserved]
    · rename_i different
      simp [different]
  · rw [nothing _ fun entry reserved => by simp [Entry.counts, reserved], enroll_eq, changed.books.count]
    simp [Entry.counts, unreserved]
  · rw [nothing _ fun entry reserved => by simp [Entry.weighs, reserved], enroll_eq, changed.books.weight]
    simp [Entry.weighs, unreserved]

theorem Consistent.add (consistent : s.Consistent) (key : Shared K) (hash : UInt64) (value : Shared V)
    (weight now : Nat) :
    Transition s
      ((s.attach key hash (.ready value) weight now).2.enroll (s.attach key hash (.ready value) weight now).1)
      (s.attach key hash (.ready value) weight now).1 none
      (some { key, hash, content := .ready value, weight, written := now, accessed := now })
      { s.ledger with
        ordered := fun ranking => s.ordered ranking ++ [(s.attach key hash (.ready value) weight now).1] } :=
  consistent.enroll (consistent.toLinked.attach key hash (.ready value) weight now) rfl (by simp)

theorem Consistent.fill (consistent : s.Consistent) {entry : Entry K V} (found : s.entry? handle = some entry)
    (reserved : entry.visible? = none) (value : Shared V) (weight now : Nat) :
    Transition s ((s.modifyEntry handle (·.store value weight now)).enroll handle) handle (some entry.bare)
      (some (entry.store value weight now).bare)
      { s.ledger with ordered := fun ranking => s.ordered ranking ++ [handle] } := by
  have changed := consistent.toLinked.modifyEntry_changed found (f := (·.store value weight now))
    (fun _ => rfl) (fun _ => rfl)
  have uncounted (record : Entry K V) (same : some entry.bare = some record) : record.isReserved = true := by
    cases same
    exact entry.isReserved_iff.mpr reserved
  exact consistent.enroll changed rfl uncounted

theorem Consistent.modifyEntry (consistent : s.Consistent) {f : Entry K V → Entry K V} {entry : Entry K V}
    (found : s.entry? handle = some entry) (hash : ∀ entry, (f entry).hash = entry.hash)
    (next : ∀ entry, (f entry).next = entry.next) (reserved : (f entry).isReserved = entry.isReserved)
    (weight : (f entry).weight = entry.weight) :
    Transition s (s.modifyEntry handle f) handle (some entry.bare) (some (f entry).bare) s.ledger := by
  have changed := consistent.toLinked.modifyEntry_changed found hash next
  have transition := consistent.transition changed.linked changed.differ changed.ordered ?_ ?_ ?_
  · rwa [changed.books.ledger] at transition
  · intro ranking other
    split
    · rename_i same
      rw [consistent.mem_ordered, same, found]
      simp [reserved]
    · rfl
  · have same : (f entry).counts = entry.counts := by rw [Entry.counts, reserved, Entry.counts]
    simp [changed.books.count, same]
  · have same : (f entry).weighs = entry.weighs := by rw [Entry.weighs, reserved, weight, Entry.weighs]
    simp [changed.books.weight, same]

theorem Consistent.startRefresh (consistent : s.Consistent) {entry : Entry K V} (found : s.entry? handle = some entry)
    {value : Shared V} (ready : entry.content = .ready value) (thread : ThreadId) (key : Shared K) :
    Transition s ((s.issue thread key).2.modifyEntry handle (·.setContent (.loading s.loads.size (some value)))) handle
      (some entry.bare) (some (entry.setContent (.loading s.loads.size (some value))).bare)
      { s.ledger with loads := s.loads.push { key, owner := some thread } } := by
  have issued := consistent.issue thread key
  have found' : Segment.entry? (s.issue thread key).2 handle = some entry := found
  have counted : (entry.setContent (.loading s.loads.size (some value))).isReserved = entry.isReserved := by
    simp [Entry.isReserved, Entry.setContent, ready]
  have renewing := issued.consistent.modifyEntry found' (f := (·.setContent (.loading s.loads.size (some value))))
    (fun _ => rfl) (fun _ => rfl) counted rfl
  rw [issued.ledger] at renewing
  exact issued.followed renewing

theorem mem_movedToEnd {list : List Handle} {handle other : Handle} :
    other ∈ LinkedQueue.movedToEnd list handle ↔ other ∈ list := by
  unfold LinkedQueue.movedToEnd
  split
  · rename_i member
    by_cases same : other = handle
    · simp [same, member]
    · simp [same, List.mem_erase_of_ne same]
  · rfl

theorem Consistent.moveToEnd (consistent : s.Consistent) {entry : Entry K V}
    (found : s.entry? handle = some entry) (ranking : Ranking) :
    Transition s (s.moveToEnd ranking handle) handle (some entry.bare) (some entry.bare)
      { s.ledger with
        ordered := Function.update s.ordered ranking (LinkedQueue.movedToEnd (s.ordered ranking) handle) } := by
  have reordered := consistent.toQueued.moveToEnd found ranking
  have same (other : Ranking) (handle' : Handle) :
      handle' ∈ Function.update s.ordered ranking (LinkedQueue.movedToEnd (s.ordered ranking) handle) other ↔
        handle' ∈ s.ordered other := by
    rw [Function.update_apply]
    split
    · rename_i same
      rw [mem_movedToEnd, same]
    · rfl
  refine ⟨reordered.consistent consistent same, ?_, ?_⟩
  · exact (reordered.changed consistent.toLinked (bare?_of_found found)).differ
  · rw [← reordered.books.ledger, ← funext reordered.ordered]
    rfl

theorem Queued.rejuvenate (queued : s.Queued) {entry : Entry K V} (found : s.entry? handle = some entry) :
    Reordered s (s.rejuvenate handle) (fun ranking => LinkedQueue.movedToEnd (s.ordered ranking) handle) := by
  have first := queued.moveToEnd found .write
  have second := first.queued.moveToEnd ((first.entry? handle).trans found) .access
  have both := first.trans second
  refine ⟨both.queued, both.entry?, ?_, both.table, both.fillLimit, both.books⟩
  intro ranking
  rw [Segment.rejuvenate, both.ordered]
  cases ranking <;> simp [first.ordered]

theorem Consistent.renew (consistent : s.Consistent) {entry : Entry K V} (found : s.entry? handle = some entry)
    (counted : entry.isReserved = false) (value : Shared V) (weight now : Nat) :
    Transition s (((s.modifyEntry handle (·.store value weight now)).reweigh entry.weight weight).rejuvenate handle)
      handle (some entry.bare) (some (entry.store value weight now).bare)
      { s.ledger with ordered := fun ranking => LinkedQueue.movedToEnd (s.ordered ranking) handle } := by
  have changed := consistent.toLinked.modifyEntry_changed found (f := (·.store value weight now))
    (fun _ => rfl) (fun _ => rfl)
  have weighs : entry.weighs ≤ s.weight :=
    consistent.weight_eq ▸ le_total Entry.weighs entry.bare (bare?_of_found found)
  have entry_eq : Segment.entry? (s.modifyEntry handle (·.store value weight now)) handle =
      some (entry.store value weight now) := by
    rw [entry?_modifyEntry, if_pos rfl, found, Option.map_some]
  generalize s.modifyEntry handle (·.store value weight now) = t at changed entry_eq ⊢
  have enough : ¬ t.weight < entry.weight := by
    rw [changed.books.weight]
    simpa [Entry.weighs, counted] using weighs
  rw [Segment.reweigh, if_neg enough]
  generalize reweighed : ({ t with weight := t.weight - entry.weight + weight } : Segment K V) = u
  have links : SameLinks t u := by
    rw [← reweighed]
    exact ⟨rfl, rfl, rfl, rfl, rfl, rfl⟩
  have linked := links.linked changed.linked
  have rejuvenated := linked.toQueued.rejuvenate ((links.entry? handle).trans entry_eq)
  have moved := rejuvenated.changed linked (links.differ changed.differ).after
  have order (ranking : Ranking) : (u.rejuvenate handle).ordered ranking =
      LinkedQueue.movedToEnd (s.ordered ranking) handle := by
    rw [rejuvenated.ordered, links.ordered, changed.ordered]
  have books : { (u.rejuvenate handle).ledger with
      ordered := fun ranking => LinkedQueue.movedToEnd (s.ordered ranking) handle } =
      { s.ledger with ordered := fun ranking => LinkedQueue.movedToEnd (s.ordered ranking) handle } := by
    rw [← changed.books.ledger, rejuvenated.books.ledger, ← reweighed]
    rfl
  have transition := consistent.transition moved.linked ((links.differ changed.differ).trans moved.differ) order
    ?_ ?_ ?_
  · rwa [books] at transition
  · intro ranking other
    rw [mem_movedToEnd]
    split
    · rename_i same
      rw [consistent.mem_ordered, same, found]
      simp [counted]
    · rfl
  · rw [rejuvenated.books.count, ← reweighed]
    simp [changed.books.count, Entry.counts, counted]
  · rw [rejuvenated.books.weight, ← reweighed]
    have same := changed.books.weight
    have weighs_eq : entry.weighs = entry.weight := by simp [Entry.weighs, counted]
    have stored : (entry.store value weight now).weighs = weight := rfl
    simp only [Option.elim_some, Entry.weighs_bare, weighs_eq, stored]
    omega

theorem Consistent.touch (consistent : s.Consistent) {entry : Entry K V} (found : s.entry? handle = some entry)
    (now : Nat) :
    Transition s (s.modifyEntry handle (·.touch now)) handle (some entry.bare) (some (entry.touch now).bare)
      s.ledger :=
  consistent.modifyEntry found (fun _ => rfl) (fun _ => rfl) rfl rfl

def orderedAfterUse (s : Segment K V) (handle : Handle) : Ranking → List Handle :=
  if s.policy.tracksReads then
    Function.update s.ordered .access (LinkedQueue.movedToEnd (s.ordered .access) handle)
  else s.ordered

theorem orderedAfterUse_write (s : Segment K V) (handle : Handle) :
    s.orderedAfterUse handle .write = s.ordered .write := by
  unfold orderedAfterUse
  split <;> rfl

theorem Consistent.use (consistent : s.Consistent) {entry : Entry K V} (found : s.entry? handle = some entry)
    (now : Nat) :
    Transition s (s.use handle now) handle (some entry.bare) (some (s.policy.used now entry).bare)
      { s.ledger with ordered := s.orderedAfterUse handle } := by
  unfold Segment.use orderedAfterUse Policy.used
  split
  · have touched := consistent.touch found now
    have found' : Segment.entry? (s.modifyEntry handle (·.touch now)) handle = some (entry.touch now) := by
      rw [entry?_modifyEntry, if_pos rfl, found, Option.map_some]
    have moved := touched.consistent.moveToEnd found' .access
    rw [touched.ledger, touched.ordered] at moved
    exact touched.trans moved
  · exact ⟨consistent, ⟨bare?_of_found found, bare?_of_found found, fun _ _ => rfl⟩, rfl⟩

def readLogAfter (s : Segment K V) (handle : Handle) : Array Handle :=
  if s.policy.tracksReads ∧ s.readLog.size < readLogLimit then s.readLog.push handle else s.readLog

theorem Consistent.noteRead (consistent : s.Consistent) {entry : Entry K V}
    (found : s.entry? handle = some entry) (now : Nat) :
    Transition s (s.noteRead handle now) handle (some entry.bare) (some (s.policy.used now entry).bare)
      { s.ledger with readLog := s.readLogAfter handle } := by
  unfold Segment.noteRead readLogAfter Policy.used
  by_cases tracks : s.policy.tracksReads
  · have touched := consistent.touch found now
    have log_eq : (s.modifyEntry handle (·.touch now)).readLog = s.readLog := touched.readLog
    by_cases room : s.readLog.size < readLogLimit
    · have noted := touched.consistent.rebook (s.modifyEntry handle (·.touch now)).changes (s.readLog.push handle)
        s.loads s.removals s.growths
      rw [touched.ledger] at noted
      simp only [tracks, log_eq, room, and_self, ↓reduceIte]
      exact touched.rebooked noted
    · simp only [tracks, log_eq, room, and_false, ↓reduceIte]
      exact touched
  · simp only [tracks, Bool.false_eq_true, ↓reduceIte, false_and]
    exact ⟨consistent, ⟨bare?_of_found found, bare?_of_found found, fun _ _ => rfl⟩, rfl⟩

def replayedOrder (readLog : Array Handle) (order : List Handle) : List Handle :=
  readLog.toList.foldl LinkedQueue.movedToEnd order

theorem Consistent.replay (consistent : s.Consistent) (handles : List Handle) :
    Rebooked s
      (handles.foldl (fun s handle => if s.arena.contains handle then s.moveToEnd .access handle else s) s)
      { s.ledger with
        ordered := Function.update s.ordered .access (handles.foldl LinkedQueue.movedToEnd (s.ordered .access)) } := by
  induction handles generalizing s with
  | nil =>
      rw [List.foldl_nil, List.foldl_nil, Function.update_eq_self]
      exact ⟨consistent, fun _ => rfl, rfl⟩
  | cons first rest ih =>
      rw [List.foldl_cons, List.foldl_cons]
      by_cases live : s.arena.contains first
      · obtain ⟨threaded, found⟩ := Arena.contains_iff.mp live
        have moved := consistent.moveToEnd (entry?_eq_some.mpr ⟨threaded, found, rfl⟩) .access
        have replayed := ih moved.consistent
        rw [moved.ledger, moved.ordered] at replayed
        simp only [Function.update_self, Function.update_idem] at replayed
        rw [if_pos live]
        exact moved.of_same.trans replayed
      · have outside : first ∉ s.ordered .access := by
          intro member
          obtain ⟨threaded, found⟩ := (consistent.queued .access).live member
          exact live (Arena.contains_iff.mpr ⟨threaded, found⟩)
        rw [if_neg live, LinkedQueue.movedToEnd, if_neg outside]
        exact ih consistent

theorem Consistent.replayReads (consistent : s.Consistent) :
    Rebooked s s.replayReads
      { s.ledger with
        ordered := Function.update s.ordered .access (replayedOrder s.readLog (s.ordered .access))
        readLog := #[] } := by
  have forgotten := consistent.forgetReads
  have replayed := forgotten.consistent.replay s.readLog.toList
  rw [forgotten.ledger] at replayed
  rw [Segment.replayReads, ← Array.foldl_toList]
  exact forgotten.trans replayed

end Segment
end SegmentedCache
