import Mathlib.Data.List.TakeWhile
import SegmentedCache.Proofs.Segment.Ages
import SegmentedCache.Proofs.Segment.LateLoads
import SegmentedCache.Proofs.Segment.Standing

namespace SegmentedCache.Segment

/-!
What a sweep leaves. A pass over a queue stops at the first entry that is not too old, so an entry that is too old stays
if in both queues one that is not stands before it.
-/

variable {K V : Type} {s s' : Segment K V} {handle : Handle} {reach : Reach} {now : Nat} {record : Entry K V}

/-- The front of a queue, up to the first entry that is not of some kind. -/
def front (s : Segment K V) (kind : Entry K V → Bool) (ranking : Ranking) : List Handle :=
  (s.dueOrder ranking).takeWhile fun handle => (s.bare? handle).any kind

theorem takeWhile_filter {α : Type} (p q : α → Bool) (list : List α) :
    (list.filter q).takeWhile p = (list.takeWhile fun item => !q item || p item).filter q := by
  induction list with
  | nil => rfl
  | cons first rest ih => cases kept : q first <;> cases holds : p first <;> simp [kept, holds, ih]

theorem takeWhile_congr {α : Type} {p q : α → Bool} {list : List α} (same : ∀ item ∈ list, p item = q item) :
    list.takeWhile p = list.takeWhile q := by
  induction list with
  | nil => rfl
  | cons first rest ih =>
      rw [List.takeWhile_cons, List.takeWhile_cons, same first List.mem_cons_self,
        ih fun item member => same item (List.mem_cons_of_mem _ member)]

theorem Consistent.stored_of_due (consistent : s.Consistent) {ranking : Ranking}
    (member : handle ∈ s.dueOrder ranking) :
    ∃ record, s.bare? handle = some record ∧ record.isReserved = false := by
  obtain ⟨entry, live, counted⟩ := (consistent.mem_ordered ranking handle).mp
    ((s.mem_dueOrder ranking handle).mp member)
  exact ⟨entry.bare, bare?_of_found live, counted⟩

theorem Purge.dueOrder {allowed : Entry K V → Cause → Prop} (purge : Purge reach allowed s s')
    (consistent : s.Consistent) (ranking : Ranking) :
    s'.dueOrder ranking = (s.dueOrder ranking).filter fun handle => (s'.bare? handle).isSome := by
  induction purge with
  | done s =>
      symm
      rw [List.filter_eq_self]
      intro other member
      obtain ⟨record, found, _⟩ := consistent.stored_of_due member
      rw [found, Option.isSome_some]
  | replay _ ih => rw [ih consistent.replayReads.consistent, consistent.dueOrder_replay]
  | @discard s s' gone entry cause live _ rest ih =>
      have discarded := consistent.discard live reach cause
      have removed : s'.bare? gone = none := by
        rw [Option.eq_none_iff_forall_ne_some]
        intro record left
        cases discarded.differ.after.symm.trans (rest.bare? discarded.consistent left)
      rw [ih discarded.consistent, dueOrder_erase consistent discarded rfl rfl,
        (consistent.nodup_dueOrder ranking).erase_eq_filter, List.filter_filter]
      apply List.filter_congr
      intro other _
      by_cases same : other = gone
      · simp [same, removed]
      · simp [same]

theorem expireFrom_bare? (consistent : s.Consistent) {ranking : Ranking} {steps : Nat}
    (enough : (s.ordered ranking).length ≤ steps) :
    (expireFrom reach now ranking steps s).bare? handle = some record ↔ s.bare? handle = some record ∧
      handle ∉ (s.ordered ranking).takeWhile fun other => (s.bare? other).any (s.policy.isExpired now) := by
  induction steps generalizing s with
  | zero =>
      rw [expireFrom, List.length_eq_zero_iff.mp (Nat.le_zero.mp enough)]
      simp
  | succ steps ih =>
      have head_eq := consistent.head_eq ranking
      rw [expireFrom]
      cases order : s.ordered ranking with
      | nil =>
          rw [order] at head_eq
          simp [head_eq]
      | cons first rest =>
          rw [order, List.head?_cons] at head_eq
          obtain ⟨entry, live, counted⟩ := consistent.entry?_head head_eq
          have found := bare?_of_found live
          have kind : s.policy.isExpired now entry.bare = s.policy.isExpired now entry := rfl
          simp only [head_eq, live]
          split
          · rename_i expired
            have discarded := consistent.discard live reach (s.trueCause reach first .expired)
            have fewer : (s.discard reach first (s.trueCause reach first .expired)).ordered ranking = rest := by
              rw [discarded.ordered]
              simp [order]
            have policy : (s.discard reach first (s.trueCause reach first .expired)).policy = s.policy :=
              discarded.policy
            have fresh : first ∉ rest := (List.nodup_cons.mp (order ▸ (consistent.queued ranking).nodup)).1
            have unchanged : rest.takeWhile (fun other =>
                ((s.discard reach first (s.trueCause reach first .expired)).bare? other).any (s.policy.isExpired now)) =
                rest.takeWhile fun other => (s.bare? other).any (s.policy.isExpired now) := by
              apply takeWhile_congr
              intro other member
              rw [discarded.differ.others other fun same => fresh (same ▸ member)]
            rw [ih discarded.consistent (by rw [fewer]; simpa [order] using enough), fewer, policy, unchanged,
              discarded.differ.bare?]
            by_cases same : handle = first
            · simp [same, found, kind, expired]
            · simp [same, found, kind, expired]
          · rename_i fresh
            simp [found, kind, fresh]

theorem Consistent.front_replay (consistent : s.Consistent) (kind : Entry K V → Bool) (ranking : Ranking) :
    s.replayReads.front kind ranking = s.front kind ranking := by
  rw [front, front, consistent.dueOrder_replay]
  simp only [consistent.replayReads.bare?]

theorem front_of_empty (empty : s.readLog = #[]) (kind : Entry K V → Bool) (ranking : Ranking) :
    s.front kind ranking = (s.ordered ranking).takeWhile fun other => (s.bare? other).any kind := by
  rw [front, dueOrder_of_empty empty]

theorem Purge.front {allowed : Entry K V → Cause → Prop} (purge : Purge reach allowed s s')
    (consistent : s.Consistent) {kind : Entry K V → Bool}
    (taken : ∀ handle record, s.bare? handle = some record → s'.bare? handle = none → kind record = true)
    (ranking : Ranking) :
    s'.front kind ranking = (s.front kind ranking).filter fun handle => (s'.bare? handle).isSome := by
  rw [Segment.front, purge.dueOrder consistent, takeWhile_filter, Segment.front]
  congr 1
  apply takeWhile_congr
  intro other member
  obtain ⟨record, found, _⟩ := consistent.stored_of_due member
  cases left : s'.bare? other with
  | none => simp [found, taken other record found left]
  | some record' =>
      cases found.symm.trans (purge.bare? consistent left)
      simp [found]

theorem Consistent.passes_bare? (consistent : s.Consistent) (empty : s.readLog = #[]) :
    (expireFrom reach now .access (expireFrom reach now .write s.byWrite.length s).byAccess.length
        (expireFrom reach now .write s.byWrite.length s)).bare? handle = some record ↔
      s.bare? handle = some record ∧ ∀ ranking, handle ∉ s.front (s.policy.isExpired now) ranking := by
  have purge := expireFrom_purge consistent reach now .write s.byWrite.length
  have enough : (s.ordered .write).length ≤ s.byWrite.length := (consistent.queued .write).length.ge
  have left (other : Handle) (record : Entry K V) :
      (expireFrom reach now .write s.byWrite.length s).bare? other = some record ↔ s.bare? other = some record ∧
        other ∉ (s.ordered .write).takeWhile fun other => (s.bare? other).any (s.policy.isExpired now) :=
    expireFrom_bare? consistent enough
  rw [← front_of_empty empty] at left
  generalize expireFrom reach now .write s.byWrite.length s = t at *
  have policy := purge.policy consistent
  have consistent' := purge.consistent consistent
  have enough' : (t.ordered .access).length ≤ t.byAccess.length := (consistent'.queued .access).length.ge
  have second : t.front (s.policy.isExpired now) .access =
      (s.front (s.policy.isExpired now) .access).filter fun handle => (t.bare? handle).isSome := by
    apply purge.front consistent
    intro other record found gone
    have passed : other ∈ s.front (s.policy.isExpired now) .write := by
      by_contra spared
      cases gone.symm.trans ((left other record).mpr ⟨found, spared⟩)
    simpa [found] using List.mem_takeWhile_imp passed
  rw [expireFrom_bare? consistent' enough', ← front_of_empty (purge.readLog consistent empty), policy, second, left,
    List.mem_filter]
  constructor
  · rintro ⟨⟨found, kept⟩, kept'⟩
    refine ⟨found, fun ranking => ?_⟩
    cases ranking with
    | write => exact kept
    | access => exact fun inside => kept' ⟨inside, by rw [(left _ _).mpr ⟨found, kept⟩, Option.isSome_some]⟩
  · rintro ⟨found, kept⟩
    exact ⟨⟨found, kept .write⟩, fun inside => kept .access inside.1⟩

theorem Consistent.expire_bare? (consistent : s.Consistent) :
    (s.expire reach now).bare? handle = some record ↔
      s.bare? handle = some record ∧ ∀ ranking, handle ∉ s.front (s.policy.isExpired now) ranking := by
  cases limited : s.policy.lifetime.isLimited with
  | false =>
      have never (entry : Entry K V) : s.policy.isExpired now entry = false :=
        Policy.not_isExpired_of_unlimited limited
      have nothing (ranking : Ranking) : s.front (s.policy.isExpired now) ranking = [] := by
        unfold front
        cases s.dueOrder ranking with
        | nil => rfl
        | cons first rest => cases found : s.bare? first <;> simp [found, never]
      simp [expire, limited, nothing]
  | true =>
      have replayed := consistent.replayReads
      have policy : s.replayReads.policy = s.policy := replayed.policy
      rw [expire, if_pos limited, replayed.consistent.passes_bare? (congrArg Ledger.readLog replayed.ledger),
        replayed.bare?, policy]
      simp only [consistent.front_replay]

theorem Consistent.reclaim_bare? (consistent : s.Consistent) :
    (s.reclaim reach).bare? handle = some record ↔
      s.bare? handle = some record ∧ s.policy.isLost reach record = false := by
  have purge := consistent.reclaim reach
  constructor
  · intro left
    have kept := consistent.reclaimed_reclaim reach handle record left
    rw [purge.policy consistent] at kept
    exact ⟨purge.bare? consistent left, kept⟩
  · rintro ⟨found, kept⟩
    exact purge.kept consistent found fun cause loses => by simp [Policy.Loses, kept] at loses

def isStale (s : Segment K V) (reach : Reach) (now : Nat) (entry : Entry K V) : Bool :=
  (s.policy.stale? reach now entry).isSome

theorem isStale_eq (counted : record.isReserved = false) :
    s.isStale reach now record = (s.policy.isLost reach record || s.policy.isExpired now record) := by
  cases lost : s.policy.isLost reach record <;> cases expired : s.policy.isExpired now record <;>
    simp [isStale, Policy.stale?, counted, lost, expired]

/-- In both queues an entry that can be read stands before this one, or it can be read itself. -/
def Sheltered (s : Segment K V) (reach : Reach) (now : Nat) (handle : Handle) : Prop :=
  ∀ ranking, handle ∉ s.front (s.isStale reach now) ranking

theorem Consistent.prepare_bare? (consistent : s.Consistent) :
    (s.prepare reach now).bare? handle = some record ↔
      s.bare? handle = some record ∧ s.policy.isLost reach record = false ∧ s.Sheltered reach now handle := by
  have purge := consistent.reclaim reach
  have consistent' := purge.consistent consistent
  have policy := purge.policy consistent
  have fronts (ranking : Ranking) : (s.reclaim reach).front (s.policy.isExpired now) ranking =
      (s.front (s.isStale reach now) ranking).filter fun other => ((s.reclaim reach).bare? other).isSome := by
    rw [← purge.front consistent]
    · apply takeWhile_congr
      intro other member
      obtain ⟨record, found, counted⟩ := consistent'.stored_of_due member
      simp [found, isStale_eq counted, (consistent.reclaim_bare?.mp found).2]
    · intro other record found gone
      have lost : s.policy.isLost reach record = true := by
        by_contra kept
        cases gone.symm.trans (consistent.reclaim_bare?.mpr ⟨found, Bool.eq_false_iff.mpr kept⟩)
      rw [isStale_eq (Policy.counted_of_isLost lost), lost, Bool.true_or]
  rw [Segment.prepare, consistent'.expire_bare?, policy]
  simp only [fronts, List.mem_filter]
  constructor
  · rintro ⟨left, kept⟩
    obtain ⟨found, live⟩ := consistent.reclaim_bare?.mp left
    exact ⟨found, live, fun ranking inside => kept ranking ⟨inside, by rw [left, Option.isSome_some]⟩⟩
  · rintro ⟨found, live, sheltered⟩
    exact ⟨consistent.reclaim_bare?.mpr ⟨found, live⟩, fun ranking inside => sheltered ranking inside.1⟩

theorem Sorted.not_sheltered (sorted : s.Sorted) (consistent : s.Consistent) (found : s.bare? handle = some record)
    (counted : record.isReserved = false) (kept : s.policy.isLost reach record = false)
    (expired : s.policy.isExpired now record = true) : ¬ s.Sheltered reach now handle := by
  intro sheltered
  have purge := consistent.reclaim reach
  have left := consistent.prepare_bare?.mpr ⟨found, kept, sheltered⟩
  have young := (purge.consistent consistent).expire_within (purge.sorted consistent sorted) reach now left counted
  rw [purge.policy consistent, expired] at young
  cases young

deriving instance DecidableEq for Claim

section Refreshes

variable [DecidableEq K] {hash : K → UInt64} {policy : Policy K V} {bound : Bound} {exponent : Nat}
  {ended : LoadId → Prop} {id : LoadId}

structure Joins (s : Segment K V) (handle : Handle) (record : Entry K V) (id : LoadId)
    (claimed : Claim V × Segment K V) : Prop where
  answer : claimed.1 = .taken id
  entry : claimed.2.bare? handle = some record
  load : ∃ load, claimed.2.loads[id]? = some load ∧ load.displaced = none
  others : ∀ other record', claimed.2.bare? other = some record' → s.bare? other = some record'
  standings : claimed.2.standings = s.standings

structure Overtakes (s : Segment K V) (thread : ThreadId) (key : Shared K) (id : LoadId)
    (claimed : Claim V × Segment K V) : Prop where
  answer : claimed.1 = .granted s.loads.size
  displaced : claimed.2.Learnt id .expired
  entry : ∀ handle record, claimed.2.bare? handle = some record → record.load? ≠ some id
  standings : claimed.2.standings = s.standings.push { key, owner := some thread }

/-- Who claims a key whose value grew too old while it was being refreshed joins that refresh where the entry is
sheltered. Otherwise the sweep before the claim takes the entry from the refresh. -/
theorem claim_of_expired_refresh (attended : Attended hash policy bound exponent reach ended s)
    (found : s.bare? handle = some record) (own : record.load? = some id) (counted : record.isReserved = false)
    (kept : s.policy.isLost reach record = false) (expired : s.policy.isExpired now record = true)
    (thread : ThreadId) {key : Shared K} (same : key.data = record.key.data) :
    (s.Sheltered reach now handle →
      s.Joins handle record id (s.claim reach now thread key (hash key.data))) ∧
    (¬ s.Sheltered reach now handle →
      s.Overtakes thread key id (s.claim reach now thread key (hash key.data))) := by
  obtain ⟨consistent, keyed, flights⟩ := attended.invariant
  have purge := consistent.prepare reach now
  have policy_eq := purge.policy consistent
  have consistent' := purge.consistent consistent
  have keyed' := purge.keyed consistent keyed
  have flights' := purge.flights consistent flights
  have left : (s.prepare reach now).bare? handle = some record ↔ _ := consistent.prepare_bare?
  obtain ⟨old, visible⟩ := Entry.isReserved_eq_false.mp counted
  have reached : s.policy.keyStrength.reaches reach record.key = true := by
    simp only [Policy.isLost, visible, Bool.or_eq_false_iff, Bool.not_eq_false'] at kept
    exact kept.1
  constructor
  · intro sheltered
    -- The sweep spares the entry, which is too old all the same: the claim meets it with its load.
    have stays := left.mpr ⟨found, kept, sheltered⟩
    obtain ⟨entry, live, rfl⟩ := bare?_eq_some.mp stays
    have located := keyed'.find?_eq consistent'.toLinked live (policy_eq ▸ reached) rfl
    have stale : (s.prepare reach now).policy.stale? reach now entry = some .expired := by
      have kept : s.policy.isLost reach entry = false := kept
      have expired : s.policy.isExpired now entry = true := expired
      have counted : entry.isReserved = false := counted
      simp [Policy.stale?, policy_eq, counted, kept, expired]
    have claimed : s.claim reach now thread key (hash key.data) = (.taken id, s.prepare reach now) := by
      have own : entry.load? = some id := own
      unfold Entry.load? at own
      split at own
      · cases own
      · rename_i content
        cases own
        simp only [claim, same, Entry.key_bare, located, stale, content]
    obtain ⟨_, load, issued, _, undisplaced, _⟩ := flights'.carried handle entry.bare id stays own
    rw [claimed]
    exact ⟨rfl, stays, ⟨load, issued, undisplaced⟩, fun _ _ => purge.bare? consistent,
      purge.standings consistent⟩
  · intro exposed
    have gone : (s.prepare reach now).bare? handle ≠ some record := fun stays => exposed (left.mp stays).2.2
    -- The sweep takes the only entry of the key.
    have missing : (s.prepare reach now).find? reach (hash key.data) key.data = none := by
      rw [keyed'.find?_eq_none consistent'.toLinked]
      rintro other ⟨record', found', _, same'⟩
      have earlier := purge.bare? consistent found'
      cases flights.unique other handle record' record earlier found (same'.trans same)
      cases earlier.symm.trans found
      exact gone found'
    have claimed : s.claim reach now thread key (hash key.data) =
        (s.prepare reach now).grant now thread key (hash key.data) := by
      simp only [claim, missing]
    obtain ⟨cause, learnt, prepares⟩ := (purge.fate consistent flights found own).resolve_left gone
    have aged : cause = .expired := by
      rcases prepares with ⟨lost, _⟩ | ⟨_, _, rfl⟩
      · cases kept.symm.trans lost
      · simp [Policy.trueCause, kept]
    rw [aged] at learnt
    have answers := (consistent'.grant_answers now thread key (hash key.data)).of_standings (purge.standings consistent)
    obtain ⟨reserved, granted⟩ := consistent'.grant now thread key (hash key.data)
    rw [claimed]
    refine ⟨congrArg Claim.granted answers.1, learnt.later (granted.loads ▸ .push ..), ?_, answers.2⟩
    intro other record' stored
    rw [granted.differ.bare?] at stored
    split at stored
    · cases stored
      obtain ⟨load, issued, _⟩ := learnt
      have bound := (Array.getElem?_eq_some_iff.mp issued).1
      simpa [Entry.load?] using bound.ne'
    · exact flights'.none_of_learnt learnt stored

/-- An entry put by somebody whose clock was ahead stands before the refreshed one. -/
theorem joins_behind_a_fresh_entry :
    let run (now : Nat) (op : Operation Nat Nat) := op.run (fun _ => 3) (fun _ => true) now
    let stored := run 0 (.insert ⟨2, 7⟩ ⟨3, 70⟩ false)
      (run 100 (.insert ⟨0, 1⟩ ⟨1, 10⟩ false) (create { lifetime := { afterWrite := some 10 } } {} (2 ^ 1)))
    let refreshed := run 5 (.claimRefresh 0 ⟨2, 7⟩ true) stored
    ∃ record, record.visible? = some ⟨3, 70⟩ ∧
      refreshed.Joins ⟨1, 0⟩ record 0 (refreshed.claim (fun _ => true) 20 1 ⟨4, 7⟩ 3) := by
  intro run stored refreshed
  have created : Attended (fun _ => 3) { lifetime := { afterWrite := some 10 } } {} 1 (fun _ => true) _ _ :=
    .create (K := Nat) (V := Nat) _
  have attended := ((created.run 100 (.insert ⟨0, 1⟩ ⟨1, 10⟩ false) ⟨nofun, nofun⟩).run 0
    (.insert ⟨2, 7⟩ ⟨3, 70⟩ false) ⟨nofun, nofun⟩).run 5 (.claimRefresh 0 ⟨2, 7⟩ true)
      ⟨fun _ _ => rfl, nofun⟩
  have held : (refreshed.bare? ⟨1, 0⟩).any (fun record =>
    record.load? = some 0 ∧ record.visible? = some ⟨3, 70⟩ ∧
      record.isReserved = false ∧ refreshed.policy.isLost (fun _ => true) record = false ∧
      refreshed.policy.isExpired 20 record = true ∧ record.key.data = 7) = true := by decide +kernel
  obtain ⟨record, found, holds⟩ := (Option.any_eq_true _ _).mp held
  obtain ⟨own, visible, counted, kept, expired, same⟩ := of_decide_eq_true holds
  refine ⟨record, visible, (claim_of_expired_refresh attended found own counted kept expired 1 same.symm).1
    fun ranking => ?_⟩
  cases ranking <;> decide +kernel

theorem loaded_beside_its_refresh :
    let run (now : Nat) (op : Operation Nat Nat) := op.run (fun _ => 3) (fun _ => true) now
    let stored := run 0 (.insert ⟨2, 7⟩ ⟨3, 70⟩ false)
      (create { lifetime := { afterWrite := some 10 } } {} (2 ^ 1))
    let refreshed := run 5 (.claimRefresh 0 ⟨2, 7⟩ true) stored
    let claimed := refreshed.claim (fun _ => true) 20 1 ⟨4, 7⟩ 3
    (∃ ended,
      Attended (fun _ => 3) { lifetime := { afterWrite := some 10 } } {} 1 (fun _ => true) ended refreshed) ∧
      (refreshed.bare? ⟨0, 0⟩).map (fun record => (record.key.data, record.load?, record.visible?)) =
        some (7, some 0, some ⟨3, 70⟩) ∧
      claimed.1 = .granted 1 ∧ claimed.2.loads.toList.map (·.displaced) = [some .expired, none] ∧
      claimed.2.removals.map (fun removal => (removal.value.object, removal.cause)) = [(⟨3, 70⟩, .expired)] := by
  intro run stored refreshed claimed
  have created : Attended (fun _ => 3) { lifetime := { afterWrite := some 10 } } {} 1 (fun _ => true) _ _ :=
    .create (K := Nat) (V := Nat) _
  have attended := (created.run 0 (.insert ⟨2, 7⟩ ⟨3, 70⟩ false) ⟨nofun, nofun⟩).run
    5 (.claimRefresh 0 ⟨2, 7⟩ true) ⟨fun _ _ => rfl, nofun⟩
  exact ⟨⟨_, attended⟩, by decide +kernel, by decide +kernel, by decide +kernel, by decide +kernel⟩

end Refreshes

end SegmentedCache.Segment
