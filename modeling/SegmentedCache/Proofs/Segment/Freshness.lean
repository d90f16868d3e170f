import SegmentedCache.Proofs.Segment.KeptLoads
import SegmentedCache.Proofs.Segment.Vacancy
import SegmentedCache.Proofs.Segment.Weights

namespace SegmentedCache

/-!
Sweeps that are complete. They stop at the first entry that is not too old, and as long as both queues are in the
order of time that is enough: what is left can be read.
-/

variable {K V : Type}

def Lifetime.Positive (lifetime : Lifetime) : Prop :=
  ∀ ranking limit, lifetime.limit ranking = some limit → 0 < limit

theorem Lifetime.positive_ofSpans (afterWrite afterAccess : Option Span) :
    (ofSpans afterWrite afterAccess).Positive := by
  intro ranking limit set
  cases ranking with
  | access | write => exact of_decide_eq_true (Option.filter_eq_some_iff.mp set).2

def Operation.prepares : Operation K V → Bool
  | .claim .. | .finishLoad .. | .insert .. | .remove _ => true
  | _ => false

def Operation.sweep? (reach : Reach) (now : Nat) : Operation K V → Option (Segment K V → Segment K V)
  | .claim .. | .finishLoad .. | .insert .. | .remove _ => some fun s => s.prepare reach now
  | .cleanUp => some fun s => (s.replayReads.expire reach now).reclaim reach
  | _ => none

namespace Policy

variable {policy : Policy K V} {reach : Reach} {now : Nat} {entry entry' : Entry K V}

theorem not_isExpired_of_now (positive : policy.lifetime.Positive) (now_written : entry.written = now)
    (now_accessed : entry.accessed = now) : policy.isExpired now entry = false := by
  rw [← Bool.not_eq_true, isExpired_iff]
  rintro ⟨ranking, limit, set, outlived⟩
  have young := positive ranking limit set
  cases ranking with
  | access => simp [Entry.stamp, now_accessed] at outlived; omega
  | write => simp [Entry.stamp, now_written] at outlived; omega

theorem stale?_eq_none :
    policy.stale? reach now entry = none ↔
      entry.isReserved = true ∨ policy.isLost reach entry = false ∧ policy.isExpired now entry = false := by
  cases reserved : entry.isReserved <;> cases lost : policy.isLost reach entry <;>
    cases expired : policy.isExpired now entry <;> simp [stale?, reserved, lost, expired]

theorem stale?_eq_none_of_kept (kept : policy.isLost reach entry = false)
    (young : policy.lifetime.isLimited = true → entry.isReserved = false → policy.isExpired now entry = false) :
    policy.stale? reach now entry = none := by
  rw [stale?_eq_none]
  cases counted : entry.isReserved with
  | true => exact .inl rfl
  | false =>
      refine .inr ⟨kept, ?_⟩
      cases limited : policy.lifetime.isLimited with
      | false => exact not_isExpired_of_unlimited limited
      | true => exact young limited counted

theorem isExpired_of_touch (positive : policy.lifetime.Positive)
    (expired : policy.isExpired now (entry.touch now) = true) : policy.isExpired now entry = true := by
  obtain ⟨ranking, limit, set, outlived⟩ := isExpired_iff.mp expired
  have young := positive ranking limit set
  cases ranking with
  | access => simp [Entry.stamp, Entry.touch] at outlived; omega
  | write => exact isExpired_iff.mpr ⟨.write, limit, set, outlived⟩

theorem isLost_of_stale?_eq_none (fresh : policy.stale? reach now entry = none) :
    policy.isLost reach entry = false := by
  rcases stale?_eq_none.mp fresh with reserved | kept
  · rw [isLost, entry.isReserved_iff.mp reserved]
  · exact kept.1

theorem stale?_congr (key : entry'.key = entry.key) (visible : entry'.visible? = entry.visible?)
    (written : entry'.written = entry.written) (accessed : entry'.accessed = entry.accessed) :
    policy.stale? reach now entry' = policy.stale? reach now entry := by
  have reserved : entry'.isReserved = entry.isReserved := by
    rw [Bool.eq_iff_iff, Entry.isReserved_iff, Entry.isReserved_iff, visible]
  have lost : policy.isLost reach entry' = policy.isLost reach entry := by rw [isLost, visible, key, isLost]
  have expired : policy.isExpired now entry' = policy.isExpired now entry := by
    rw [isExpired, written, accessed, isExpired]
  rw [stale?, reserved, lost, expired, stale?]

theorem stale?_used (positive : policy.lifetime.Positive) (fresh : policy.stale? reach now entry = none) :
    policy.stale? reach now (policy.used now entry) = none := by
  unfold used
  split
  · rcases stale?_eq_none.mp fresh with reserved | kept
    · exact stale?_eq_none.mpr (.inl reserved)
    · refine stale?_eq_none.mpr (.inr ⟨kept.1, ?_⟩)
      rw [← Bool.not_eq_true]
      intro expired
      cases (isExpired_of_touch positive expired).symm.trans kept.2
  · exact fresh

end Policy

namespace Segment

variable {s s' : Segment K V} {handle : Handle} {reach : Reach} {now : Nat} {record : Entry K V}

/-- The queues are in the order of time, if that matters. -/
def Dated (s : Segment K V) : Prop :=
  s.policy.lifetime.isLimited = true → s.Sorted

def AllLive (s : Segment K V) (reach : Reach) (now : Nat) : Prop :=
  ∀ handle record, s.bare? handle = some record → s.policy.stale? reach now record = none

theorem Dated.prepare_bare? (dated : s.Dated) (consistent : s.Consistent) :
    (s.prepare reach now).bare? handle = some record ↔
      s.bare? handle = some record ∧ s.policy.stale? reach now record = none := by
  rw [consistent.prepare_bare?]
  refine and_congr_right fun found => ⟨?_, fun fresh => ?_⟩
  · rintro ⟨kept, sheltered⟩
    refine Policy.stale?_eq_none_of_kept kept fun limited counted => ?_
    by_contra expired
    exact (dated limited).not_sheltered consistent found counted kept (Bool.not_eq_false _ ▸ expired) sheltered
  · exact ⟨Policy.isLost_of_stale?_eq_none fresh, sheltered_of_fresh found fresh⟩

theorem Dated.housekeeping_bare? (dated : s.Dated) (consistent : s.Consistent) :
    ((s.replayReads.expire reach now).reclaim reach).bare? handle = some record ↔
      s.bare? handle = some record ∧ s.policy.stale? reach now record = none := by
  have replayed := consistent.replayReads
  have policy : s.replayReads.policy = s.policy := replayed.policy
  have purge := expire_purge replayed.consistent reach now
  have policy' := (purge.policy replayed.consistent).trans policy
  have consistent' := purge.consistent replayed.consistent
  rw [consistent'.reclaim_bare?, policy']
  constructor
  · rintro ⟨left, kept⟩
    have found := purge.bare? replayed.consistent left
    rw [replayed.bare?] at found
    refine ⟨found, Policy.stale?_eq_none_of_kept kept fun limited counted => ?_⟩
    have young := replayed.consistent.expire_within ((dated limited).replay consistent) reach now left counted
    rwa [policy] at young
  · rintro ⟨found, fresh⟩
    have kept := Policy.isLost_of_stale?_eq_none fresh
    refine ⟨purge.kept replayed.consistent ((replayed.bare? handle).trans found) fun cause expires => ?_, kept⟩
    obtain ⟨counted, expired, _⟩ := expires
    rw [policy] at expired
    rcases Policy.stale?_eq_none.mp fresh with reserved | ⟨_, young⟩
    · cases counted.symm.trans reserved
    · cases young.symm.trans expired

theorem Dated.allLive_prepare (dated : s.Dated) (consistent : s.Consistent) :
    (s.prepare reach now).AllLive reach now := by
  intro handle record left
  rw [(consistent.prepare reach now).policy consistent]
  exact ((dated.prepare_bare? consistent).mp left).2

theorem Dated.allLive_housekeeping (dated : s.Dated) (consistent : s.Consistent) :
    ((s.replayReads.expire reach now).reclaim reach).AllLive reach now := by
  intro handle record left
  rw [(consistent.housekeeping reach now).policy consistent]
  exact ((dated.housekeeping_bare? consistent).mp left).2

theorem AllLive.reclaim_eq (live : s.AllLive reach now) : s.reclaim reach = s := by
  have nothing : s.stored.filter (fun entry => s.policy.isLost reach entry.2) = [] := by
    rw [List.filter_eq_nil_iff]
    rintro ⟨handle, entry⟩ stored
    have fresh := live handle entry.bare (bare?_of_found (mem_stored.mp stored))
    have kept : s.policy.isLost reach entry = false := Policy.isLost_of_stale?_eq_none fresh
    simpa using kept
  simp [Segment.reclaim, nothing]

theorem AllLive.expireFrom_eq (live : s.AllLive reach now) (consistent : s.Consistent) (ranking : Ranking)
    (steps : Nat) :
    expireFrom reach now ranking steps s = s := by
  cases steps with
  | zero => rfl
  | succ steps =>
      rw [expireFrom]
      cases head : (s.queue ranking).head with
      | none => rfl
      | some handle =>
          obtain ⟨entry, found, counted⟩ := consistent.entry?_head head
          have fresh : s.policy.stale? reach now entry = none := live handle entry.bare (bare?_of_found found)
          rw [Policy.stale?_eq_none, counted] at fresh
          simp [found, (fresh.resolve_left Bool.false_ne_true).2]

theorem replayReads_of_empty (empty : s.readLog = #[]) : s.replayReads = s := by
  rw [Segment.replayReads, empty]
  exact congrArg (fun readLog => { s with readLog }) empty.symm

theorem Dated.prepare_prepare (dated : s.Dated) (consistent : s.Consistent) :
    (s.prepare reach now).prepare reach now = s.prepare reach now := by
  have purge := consistent.prepare reach now
  have policy := purge.policy consistent
  have consistent' := purge.consistent consistent
  have empty := consistent.prepare_readLog reach now
  have live : (s.prepare reach now).AllLive reach now := dated.allLive_prepare consistent
  rw [← policy] at empty
  generalize s.prepare reach now = t at *
  rw [Segment.prepare, live.reclaim_eq, Segment.expire]
  split
  · rename_i limited
    simp only [replayReads_of_empty (empty limited), live.expireFrom_eq consistent']
  · rfl

theorem Purge.allLive {allowed : Entry K V → Cause → Prop} (purge : Purge reach allowed s s')
    (consistent : s.Consistent) (live : s.AllLive reach now) : s'.AllLive reach now := by
  intro handle record left
  rw [purge.policy consistent]
  exact live handle record (purge.bare? consistent left)

theorem Transition.allLive {before after : Option (Entry K V)} {ledger : Ledger K V}
    (transition : Transition s s' handle before after ledger) (policy : ledger.policy = s.policy)
    (live : s.AllLive reach now) (fresh : ∀ record, after = some record → s.policy.stale? reach now record = none) :
    s'.AllLive reach now := by
  intro other record found
  rw [transition.policy.trans policy]
  rw [transition.differ.bare?] at found
  split at found
  · exact fresh record found
  · exact live other record found

section Runs

variable [DecidableEq K] {hash : K → UInt64} {op : Operation K V} {accepted : List (K × Shared V)} {before : Prop}

omit [DecidableEq K] in
theorem fresh_of_stored {policy : Policy K V} (positive : policy.lifetime.Positive) {value : Shared V}
    (content : record.content = .ready value) (written : record.written = now) (accessed : record.accessed = now)
    (key_reached : policy.keyStrength.reaches reach record.key = true)
    (value_reached : policy.valueStrength.reaches reach value = true) : policy.stale? reach now record = none := by
  have visible : record.visible? = some value := by rw [Entry.visible?, content]
  exact Policy.stale?_eq_none.mpr
    (.inr ⟨Policy.not_isLost visible key_reached value_reached,
      Policy.not_isExpired_of_now positive written accessed⟩)

theorem Act.allLive (act : Act hash reach now before op accepted s s') (positive : s.policy.lifetime.Positive)
    (reached : op.Reached s.policy reach) (live : s.AllLive reach now) : s'.AllLive reach now := by
  cases act with
  | idle | dropped => exact live
  | @used _ _ _ _ entry _ _ _ _ transition =>
      refine transition.allLive rfl live ?_
      rintro _ ⟨⟩
      exact Policy.stale?_used positive (live _ entry.bare transition.differ.before)
  | granted _ _ transition =>
      refine transition.allLive rfl live ?_
      rintro _ ⟨⟩
      rfl
  | @renewing _ _ _ entry _ _ _ _ _ ready transition =>
      refine transition.allLive rfl live ?_
      rintro _ ⟨⟩
      rw [← live _ entry.bare transition.differ.before]
      exact Policy.stale?_congr rfl
        (by simp [Entry.visible?, Entry.setContent, Entry.bare, Entry.setNext, ready]) rfl rfl
  | added _ _ transition =>
      refine transition.allLive rfl live ?_
      rintro _ ⟨⟩
      exact fresh_of_stored positive rfl rfl rfl reached.1 reached.2
  | filled writes found _ transition | overwritten writes found _ transition =>
      refine transition.allLive rfl live ?_
      rintro _ ⟨⟩
      have key_reached := (find?_eq_some found).2.1
      cases writes with
      | insert => exact fresh_of_stored positive rfl rfl rfl key_reached reached.2
      | finishLoad => exact fresh_of_stored positive rfl rfl rfl key_reached reached.2
  | @reverted _ _ _ entry _ _ _ _ _ counted transition =>
      refine transition.allLive rfl live ?_
      rintro _ ⟨⟩
      rw [← live _ entry.bare transition.differ.before]
      exact Policy.stale?_congr rfl counted.symm rfl rfl
  | abandoned _ _ _ transition => exact transition.allLive rfl live (by rintro _ ⟨⟩)
  | reported _ _ rebooked | forgot rebooked =>
      intro other record found
      rw [rebooked.policy]
      exact live other record ((rebooked.bare? other).symm.trans found)

theorem Runs.allLive (runs : Runs hash reach now op accepted s s') (consistent : s.Consistent)
    (positive : s.policy.lifetime.Positive) (reached : op.Reached s.policy reach) (live : s.AllLive reach now) :
    s'.AllLive reach now := by
  obtain ⟨before, after, first, act, last⟩ := runs.parts
  have consistent' := first.consistent consistent
  have policy := first.policy consistent
  exact last.allLive (act.consistent consistent')
    (act.allLive (policy ▸ positive) (policy ▸ reached) (first.allLive consistent live))

theorem Dated.run_prepare (dated : s.Dated) (consistent : s.Consistent) (op : Operation K V)
    (prepares : op.prepares = true) : op.run hash reach now (s.prepare reach now) = op.run hash reach now s := by
  have twice : (s.prepare reach now).prepare reach now = s.prepare reach now := dated.prepare_prepare consistent
  cases op with
  | read | claimRefresh | clear | releaseSoft | cleanUp => cases prepares
  | claim => simp only [Operation.run, Segment.claim, twice]
  | insert => simp only [Operation.run, Segment.insert, twice]
  | remove => simp only [Operation.run, Segment.remove, twice]
  | finishLoad => simp only [Operation.run, Segment.finishLoad, twice]

theorem Dated.allLive_run (dated : s.Dated) (consistent : s.Consistent) (positive : s.policy.lifetime.Positive)
    (reached : op.Reached s.policy reach) (prepares : op.prepares = true) :
    (op.run hash reach now s).AllLive reach now := by
  have prepared := consistent.prepare reach now
  have consistent' := prepared.consistent consistent
  have policy := prepared.policy consistent
  rw [← dated.run_prepare consistent op prepares]
  exact (consistent'.runs hash reach now op).allLive consistent' (policy ▸ positive) (policy ▸ reached)
    (dated.allLive_prepare consistent)

/-- An operation that sweeps first removes exactly what can not be read any more, and all that counts afterwards can be
read. -/
theorem Dated.sweeps (dated : s.Dated) (hash : K → UInt64) (consistent : s.Consistent)
    (positive : s.policy.lifetime.Positive) (reached : op.Reached s.policy reach) {sweep : Segment K V → Segment K V}
    (sweeps : op.sweep? reach now = some sweep) :
    (∀ handle record, (sweep s).bare? handle = some record ↔
        s.bare? handle = some record ∧ s.policy.stale? reach now record = none) ∧
      (op.run hash reach now s).AllLive reach now := by
  cases op with
  | read | claimRefresh | clear | releaseSoft => cases sweeps
  | claim | finishLoad | insert | remove =>
      cases sweeps
      exact ⟨fun _ _ => dated.prepare_bare? consistent, dated.allLive_run consistent positive reached rfl⟩
  | cleanUp =>
      cases sweeps
      refine ⟨fun _ _ => dated.housekeeping_bare? consistent, ?_⟩
      have consistent' := (consistent.housekeeping reach now).consistent consistent
      exact (consistent'.evict reach none).allLive consistent' (dated.allLive_housekeeping consistent)

end Runs

end Segment
end SegmentedCache
