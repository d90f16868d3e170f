import SegmentedCache.Proofs.Segment.Sweep

namespace SegmentedCache

/-!
Ages. As long as the clock does not go back, both queues are in the order of the times that they stand for, and a sweep
from their fronts removes everything that is too old.
-/

variable {K V : Type}

def Entry.stamp (entry : Entry K V) : Ranking → Nat
  | .access => entry.accessed
  | .write => entry.written

def Lifetime.limit (lifetime : Lifetime) : Ranking → Option Nat
  | .access => lifetime.afterAccess
  | .write => lifetime.afterWrite

def Policy.Exceeds (policy : Policy K V) (now : Nat) (entry : Entry K V) (ranking : Ranking) : Prop :=
  ∃ limit, policy.lifetime.limit ranking = some limit ∧ limit ≤ now - entry.stamp ranking

namespace Policy

variable {policy : Policy K V} {now : Nat} {entry entry' : Entry K V}

theorem isExpired_iff : policy.isExpired now entry = true ↔ ∃ ranking, policy.Exceeds now entry ranking := by
  simp only [isExpired, Lifetime.isOver, Bool.or_eq_true, Option.any_eq_true, decide_eq_true_eq, Exceeds]
  constructor
  · rintro (⟨limit, set, outlived⟩ | ⟨limit, set, outlived⟩)
    · exact ⟨.write, limit, set, outlived⟩
    · exact ⟨.access, limit, set, outlived⟩
  · rintro ⟨ranking, limit, set, outlived⟩
    cases ranking with
    | access => exact .inr ⟨limit, set, outlived⟩
    | write => exact .inl ⟨limit, set, outlived⟩

theorem Exceeds.older {ranking : Ranking} (exceeds : policy.Exceeds now entry ranking)
    (older : entry'.stamp ranking ≤ entry.stamp ranking) : policy.Exceeds now entry' ranking := by
  obtain ⟨limit, set, outlived⟩ := exceeds
  exact ⟨limit, set, by omega⟩

theorem not_isExpired_of_unlimited (unlimited : policy.lifetime.isLimited = false) :
    policy.isExpired now entry = false := by
  simp only [Lifetime.isLimited, Bool.or_eq_false_iff, Option.isSome_eq_false_iff, Option.isNone_iff_eq_none]
    at unlimited
  simp [isExpired, Lifetime.isOver, unlimited]

end Policy

namespace Segment

variable {s s' : Segment K V} {handle : Handle} {reach : Reach}

theorem movedToEnd_erase {list : List Handle} (nodup : list.Nodup) (handle other : Handle) :
    LinkedQueue.movedToEnd (list.erase handle) other = (LinkedQueue.movedToEnd list other).erase handle := by
  unfold LinkedQueue.movedToEnd
  by_cases same : other = handle
  · subst same
    have gone : other ∉ list.erase other := nodup.not_mem_erase
    rw [if_neg gone]
    split
    · rw [List.erase_append_right _ gone]
      simp
    · rfl
  · simp only [List.mem_erase_of_ne same]
    split
    · rename_i member
      rw [List.erase_comm]
      by_cases inside : handle ∈ list.erase other
      · rw [List.erase_append_left _ inside]
      · have outside : handle ∉ [other] := by simpa using Ne.symm same
        rw [List.erase_append_right _ inside, List.erase_of_not_mem inside, List.erase_of_not_mem outside]
    · rfl

theorem nodup_movedToEnd {list : List Handle} (nodup : list.Nodup) (handle : Handle) :
    (LinkedQueue.movedToEnd list handle).Nodup := by
  unfold LinkedQueue.movedToEnd
  split
  · rw [List.nodup_append]
    refine ⟨nodup.erase handle, by simp, fun other member => ?_⟩
    rintro _ last rfl
    rw [List.mem_singleton.mp last] at member
    exact nodup.not_mem_erase member
  · exact nodup

theorem mem_replayedOrder {readLog : Array Handle} {order : List Handle} :
    handle ∈ replayedOrder readLog order ↔ handle ∈ order := by
  unfold replayedOrder
  induction readLog.toList generalizing order with
  | nil => rfl
  | cons first rest ih => rw [List.foldl_cons, ih, mem_movedToEnd]

theorem nodup_replayedOrder {order : List Handle} (nodup : order.Nodup) (readLog : Array Handle) :
    (replayedOrder readLog order).Nodup := by
  unfold replayedOrder
  induction readLog.toList generalizing order with
  | nil => exact nodup
  | cons first rest ih => exact ih (nodup_movedToEnd nodup first)

theorem replayedOrder_erase {order : List Handle} (nodup : order.Nodup) (readLog : Array Handle) (handle : Handle) :
    replayedOrder readLog (order.erase handle) = (replayedOrder readLog order).erase handle := by
  unfold replayedOrder
  induction readLog.toList generalizing order with
  | nil => rfl
  | cons first rest ih =>
      rw [List.foldl_cons, List.foldl_cons, movedToEnd_erase nodup, ih (nodup_movedToEnd nodup first)]

theorem replayedOrder_push (readLog : Array Handle) (order : List Handle) (handle : Handle) :
    replayedOrder (readLog.push handle) order = LinkedQueue.movedToEnd (replayedOrder readLog order) handle := by
  simp [replayedOrder]

/-- The orders of the queues, once the noted reads are replayed. -/
def dueOrder (s : Segment K V) : Ranking → List Handle
  | .access => replayedOrder s.readLog (s.ordered .access)
  | .write => s.ordered .write

theorem mem_dueOrder (s : Segment K V) (ranking : Ranking) (handle : Handle) :
    handle ∈ s.dueOrder ranking ↔ handle ∈ s.ordered ranking := by
  cases ranking with
  | access => exact mem_replayedOrder
  | write => rfl

theorem Consistent.nodup_dueOrder (consistent : s.Consistent) (ranking : Ranking) : (s.dueOrder ranking).Nodup := by
  cases ranking with
  | access => exact nodup_replayedOrder (consistent.queued .access).nodup s.readLog
  | write => exact (consistent.queued .write).nodup

theorem dueOrder_of_empty (empty : s.readLog = #[]) (ranking : Ranking) : s.dueOrder ranking = s.ordered ranking := by
  cases ranking with
  | access => simp [dueOrder, empty, replayedOrder]
  | write => rfl

def Precedes (s : Segment K V) (ranking : Ranking) (first second : Handle) : Prop :=
  ∀ record record', s.bare? first = some record → s.bare? second = some record' →
    record.stamp ranking ≤ record'.stamp ranking

def Sorted (s : Segment K V) : Prop :=
  ∀ ranking, (s.dueOrder ranking).Pairwise (s.Precedes ranking)

theorem Sorted.sublist (sorted : s.Sorted) {ranking : Ranking} {order : List Handle}
    (sublist : order.Sublist (s.dueOrder ranking))
    (kept : ∀ handle ∈ order, ∀ record, s'.bare? handle = some record →
      ∃ earlier, s.bare? handle = some earlier ∧ earlier.stamp ranking = record.stamp ranking) :
    order.Pairwise (s'.Precedes ranking) := by
  apply ((sorted ranking).sublist sublist).imp_of_mem
  intro first second member member' precedes record record' found found'
  obtain ⟨earlier, before, stamp⟩ := kept first member record found
  obtain ⟨earlier', before', stamp'⟩ := kept second member' record' found'
  rw [← stamp, ← stamp']
  exact precedes earlier earlier' before before'

theorem Consistent.dueOrder_replay (consistent : s.Consistent) (ranking : Ranking) :
    s.replayReads.dueOrder ranking = s.dueOrder ranking := by
  have replayed := consistent.replayReads
  rw [dueOrder_of_empty (congrArg Ledger.readLog replayed.ledger), replayed.ordered]
  cases ranking <;> rfl

theorem Sorted.replay (sorted : s.Sorted) (consistent : s.Consistent) : s.replayReads.Sorted := by
  have replayed := consistent.replayReads
  intro ranking
  rw [consistent.dueOrder_replay]
  apply sorted.sublist (List.Sublist.refl _)
  intro handle _ record found
  exact ⟨record, (replayed.bare? handle).symm.trans found, rfl⟩

theorem dueOrder_erase (consistent : s.Consistent) {before : Option (Entry K V)} {ledger : Ledger K V}
    (transition : Transition s s' handle before none ledger)
    (ordered : ledger.ordered = fun ranking => (s.ordered ranking).erase handle) (readLog : ledger.readLog = s.readLog)
    (ranking : Ranking) : s'.dueOrder ranking = (s.dueOrder ranking).erase handle := by
  have order := transition.ordered.trans ordered
  have log := transition.readLog.trans readLog
  cases ranking with
  | access =>
      rw [dueOrder, order, log]
      exact replayedOrder_erase (consistent.queued .access).nodup s.readLog handle
  | write => exact congrFun order .write

theorem Sorted.erase (sorted : s.Sorted) (consistent : s.Consistent) {before : Option (Entry K V)} {ledger : Ledger K V}
    (transition : Transition s s' handle before none ledger)
    (ordered : ledger.ordered = fun ranking => (s.ordered ranking).erase handle)
    (readLog : ledger.readLog = s.readLog) : s'.Sorted := by
  intro ranking
  rw [dueOrder_erase consistent transition ordered readLog]
  apply sorted.sublist List.erase_sublist
  intro other member record found
  have different : other ≠ handle := by
    rintro rfl
    exact (consistent.nodup_dueOrder ranking).not_mem_erase member
  exact ⟨record, (transition.differ.others other different).symm.trans found, rfl⟩

theorem Purge.sorted {allowed : Entry K V → Cause → Prop} (purge : Purge reach allowed s s')
    (consistent : s.Consistent) (sorted : s.Sorted) : s'.Sorted := by
  induction purge with
  | done s => exact sorted
  | replay _ ih => exact ih consistent.replayReads.consistent (sorted.replay consistent)
  | @discard _ _ _ _ cause found _ _ ih =>
      have discarded := consistent.discard found reach cause
      exact ih discarded.consistent (sorted.erase consistent discarded rfl rfl)

theorem Sorted.last (sorted : s.Sorted) {before : Option (Entry K V)} {after : Entry K V} {ledger : Ledger K V}
    (transition : Transition s s' handle before (some after) ledger) {ranking : Ranking} {earlier : List Handle}
    (order : s'.dueOrder ranking = earlier ++ [handle]) (sublist : earlier.Sublist (s.dueOrder ranking))
    (apart : handle ∉ earlier)
    (youngest : ∀ other record, s.bare? other = some record → record.stamp ranking ≤ after.stamp ranking) :
    (s'.dueOrder ranking).Pairwise (s'.Precedes ranking) := by
  have others (other : Handle) (member : other ∈ earlier) : s'.bare? other = s.bare? other :=
    transition.differ.others other fun same => apart (same ▸ member)
  rw [order, List.pairwise_append]
  refine ⟨sorted.sublist sublist ?_, by simp, ?_⟩
  · intro other member record found
    exact ⟨record, (others other member).symm.trans found, rfl⟩
  · intro other member last same record record' found found'
    rw [List.mem_singleton.mp same, transition.differ.after] at found'
    cases found'
    exact youngest other record ((others other member).symm.trans found)

theorem expireFrom_within (consistent : s.Consistent) (reach : Reach) (now : Nat) {ranking : Ranking} {steps : Nat}
    (sorted : (s.ordered ranking).Pairwise (s.Precedes ranking)) (enough : (s.ordered ranking).length ≤ steps) :
    ∀ handle ∈ (expireFrom reach now ranking steps s).ordered ranking, ∀ record,
      (expireFrom reach now ranking steps s).bare? handle = some record → ¬ s.policy.Exceeds now record ranking := by
  induction steps generalizing s with
  | zero =>
      intro handle member
      rw [expireFrom, List.length_eq_zero_iff.mp (Nat.le_zero.mp enough)] at member
      cases member
  | succ steps ih =>
      have head_eq := consistent.head_eq ranking
      rw [expireFrom]
      cases order : s.ordered ranking with
      | nil =>
          rw [order] at head_eq
          simp [head_eq, order]
      | cons first rest =>
          rw [order, List.head?_cons] at head_eq
          obtain ⟨entry, found, counted⟩ := consistent.entry?_head head_eq
          simp only [head_eq, found]
          split
          · have discarded := consistent.discard found reach (s.trueCause reach first .expired)
            have fewer : (s.discard reach first (s.trueCause reach first .expired)).ordered ranking = rest := by
              rw [discarded.ordered]
              simp [order]
            have policy : (s.discard reach first (s.trueCause reach first .expired)).policy = s.policy :=
              discarded.policy
            rw [← policy]
            apply ih discarded.consistent
            · rw [fewer]
              rw [order, List.pairwise_cons] at sorted
              apply sorted.2.imp_of_mem
              intro other other' member member' precedes record record' found found'
              have nodup := order ▸ (consistent.queued ranking).nodup
              have apart {other : Handle} (member : other ∈ rest) : other ≠ first := by
                rintro rfl
                exact (List.nodup_cons.mp nodup).1 member
              exact precedes record record' ((discarded.differ.others _ (apart member)).symm.trans found)
                ((discarded.differ.others _ (apart member')).symm.trans found')
            · rw [fewer]
              simpa [order] using enough
          · rename_i fresh
            intro handle member record live exceeds
            apply fresh
            rw [order, List.pairwise_cons] at sorted
            rw [order] at member
            rcases List.mem_cons.mp member with rfl | later
            · rw [bare?_of_found found] at live
              cases live
              exact Policy.isExpired_iff.mpr ⟨ranking, exceeds⟩
            · have older := sorted.1 handle later entry.bare record (bare?_of_found found) live
              exact Policy.isExpired_iff.mpr ⟨ranking, exceeds.older older⟩

theorem Purge.kept {allowed : Entry K V → Cause → Prop} (purge : Purge reach allowed s s')
    (consistent : s.Consistent) {record : Entry K V} (found : s.bare? handle = some record)
    (forbidden : ∀ cause, ¬ allowed record cause) :
    s'.bare? handle = some record := by
  induction purge with
  | done s => exact found
  | replay _ ih =>
      have replayed := consistent.replayReads
      exact ih replayed.consistent ((replayed.bare? handle).trans found)
  | @discard s s' gone entry cause live permitted _ ih =>
      have discarded := consistent.discard live reach cause
      have different : handle ≠ gone := by
        rintro rfl
        cases found.symm.trans (bare?_of_found live)
        exact forbidden cause permitted
      exact ih discarded.consistent ((discarded.differ.others handle different).trans found)

theorem Purge.readLog_eq {allowed : Entry K V → Cause → Prop} (purge : Purge reach allowed s s')
    (consistent : s.Consistent) : s'.readLog = #[] ∨ s'.readLog = s.readLog := by
  induction purge with
  | done s => exact .inr rfl
  | replay _ ih =>
      have replayed := consistent.replayReads
      have empty : _ = #[] := congrArg Ledger.readLog replayed.ledger
      rcases ih replayed.consistent with none | same
      · exact .inl none
      · exact .inl (same.trans empty)
  | @discard _ _ _ _ cause found _ _ ih =>
      have discarded := consistent.discard found reach cause
      rcases ih discarded.consistent with none | same
      · exact .inl none
      · exact .inr (same.trans discarded.readLog)

theorem Purge.readLog {allowed : Entry K V → Cause → Prop} (purge : Purge reach allowed s s')
    (consistent : s.Consistent) (empty : s.readLog = #[]) : s'.readLog = #[] := by
  rcases purge.readLog_eq consistent with none | same
  · exact none
  · exact same.trans empty

theorem Consistent.prepare_readLog (consistent : s.Consistent) (reach : Reach) (now : Nat)
    (limited : s.policy.lifetime.isLimited = true) : (s.prepare reach now).readLog = #[] := by
  have reclaimed := consistent.reclaim reach
  have consistent' := reclaimed.consistent consistent
  have limited' : (s.reclaim reach).policy.lifetime.isLimited = true := by rwa [reclaimed.policy consistent]
  have replayed := consistent'.replayReads
  have empty : (s.reclaim reach).replayReads.readLog = #[] := congrArg Ledger.readLog replayed.ledger
  rw [Segment.prepare, expire, if_pos limited']
  have first := expireFrom_purge replayed.consistent reach now .write (s.reclaim reach).replayReads.byWrite.length
  exact (expireFrom_purge (first.consistent replayed.consistent) reach now .access _).readLog
    (first.consistent replayed.consistent) (first.readLog replayed.consistent empty)

theorem Consistent.expire_within (consistent : s.Consistent) (sorted : s.Sorted) (reach : Reach) (now : Nat)
    {record : Entry K V} (left : (s.expire reach now).bare? handle = some record)
    (counted : record.isReserved = false) :
    s.policy.isExpired now record = false := by
  cases limited : s.policy.lifetime.isLimited with
  | false => exact Policy.not_isExpired_of_unlimited limited
  | true =>
      rw [expire, if_pos limited] at left
      dsimp only at left
      have replayed := consistent.replayReads
      have sorted₀ := sorted.replay consistent
      have empty₀ : s.replayReads.readLog = #[] := congrArg Ledger.readLog replayed.ledger
      have policy₀ : s.replayReads.policy = s.policy := replayed.policy
      generalize s.replayReads = t₀ at *
      have consistent₀ := replayed.consistent
      have purge₁ := expireFrom_purge consistent₀ reach now .write t₀.byWrite.length
      have enough₀ : (t₀.ordered .write).length ≤ t₀.byWrite.length := (consistent₀.queued .write).length.ge
      have within₁ := expireFrom_within consistent₀ reach now
        (dueOrder_of_empty empty₀ .write ▸ sorted₀ .write) enough₀
      have policy₁ := purge₁.policy consistent₀
      have consistent₁ := purge₁.consistent consistent₀
      have sorted₁ := purge₁.sorted consistent₀ sorted₀
      have empty₁ := purge₁.readLog consistent₀ empty₀
      generalize expireFrom reach now .write t₀.byWrite.length t₀ = t₁ at *
      have purge₂ := expireFrom_purge consistent₁ reach now .access t₁.byAccess.length
      have enough₁ : (t₁.ordered .access).length ≤ t₁.byAccess.length :=
        (consistent₁.queued .access).length.ge
      have within₂ := expireFrom_within consistent₁ reach now
        (dueOrder_of_empty empty₁ .access ▸ sorted₁ .access) enough₁
      have consistent₂ := purge₂.consistent consistent₁
      have queued {t : Segment K V} (consistent : t.Consistent) (ranking : Ranking)
          (found : t.bare? handle = some record) :
          handle ∈ t.ordered ranking := by
        obtain ⟨entry, live, rfl⟩ := bare?_eq_some.mp found
        exact (consistent.mem_ordered ranking handle).mpr ⟨entry, live, counted⟩
      rw [← Bool.not_eq_true, Policy.isExpired_iff]
      rintro ⟨ranking, exceeds⟩
      cases ranking with
      | access =>
          rw [← policy₀, ← policy₁] at exceeds
          exact within₂ handle (queued consistent₂ .access left) record left exceeds
      | write =>
          have earlier := purge₂.bare? consistent₁ left
          rw [← policy₀] at exceeds
          exact within₁ handle (queued consistent₁ .write earlier) record earlier exceeds

end Segment
end SegmentedCache
