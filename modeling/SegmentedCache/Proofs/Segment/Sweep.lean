import SegmentedCache.Proofs.Segment.Actions
import SegmentedCache.Segment.Write

namespace SegmentedCache

/-!
Removing of its own accord. Whatever a segment sweeps out, it does so by discarding stored entries one after the
other, each for a cause that its age, its objects or the bound give.
-/

variable {K V : Type}

namespace Policy

def trueCause (policy : Policy K V) (reach : Reach) (entry : Entry K V) (cause : Cause) : Cause :=
  if policy.isLost reach entry then .collected else cause

def Expires (policy : Policy K V) (reach : Reach) (now : Nat) (entry : Entry K V) (cause : Cause) : Prop :=
  entry.isReserved = false ∧ policy.isExpired now entry = true ∧ cause = policy.trueCause reach entry .expired

def Loses (policy : Policy K V) (reach : Reach) (entry : Entry K V) (cause : Cause) : Prop :=
  policy.isLost reach entry = true ∧ cause = .collected

def Evicts (policy : Policy K V) (bound : Bound) (reach : Reach) (entry : Entry K V) (cause : Cause) : Prop :=
  bound.isBounded = true ∧ entry.isReserved = false ∧ cause = policy.trueCause reach entry .size

def Prepares (policy : Policy K V) (reach : Reach) (now : Nat) (entry : Entry K V) (cause : Cause) : Prop :=
  policy.Loses reach entry cause ∨ policy.Expires reach now entry cause

theorem counted_of_isLost {policy : Policy K V} {reach : Reach} {entry : Entry K V}
    (lost : policy.isLost reach entry = true) : entry.isReserved = false := by
  rw [Entry.isReserved_eq_false]
  cases visible : entry.visible? with
  | none => simp [isLost, visible] at lost
  | some value => exact ⟨value, rfl⟩

theorem stale?_of_prepares {policy : Policy K V} {reach : Reach} {now : Nat} {entry : Entry K V} {cause : Cause}
    (prepares : policy.Prepares reach now entry cause) : policy.stale? reach now entry = some cause := by
  rcases prepares with ⟨lost, rfl⟩ | ⟨counted, expired, rfl⟩
  · simp [stale?, counted_of_isLost lost, lost]
  · by_cases lost : policy.isLost reach entry = true <;> simp [stale?, trueCause, counted, expired, lost]

end Policy

namespace Segment

variable {s s' s'' : Segment K V} {handle : Handle} {reach : Reach} {allowed : Entry K V → Cause → Prop}

/-- The second segment comes from the first by discarding entries for allowed causes, and by replaying reads in
between. -/
inductive Purge (reach : Reach) (allowed : Entry K V → Cause → Prop) : Segment K V → Segment K V → Prop where
  | done (s : Segment K V) : Purge reach allowed s s
  | replay {s s' : Segment K V} (rest : Purge reach allowed s.replayReads s') : Purge reach allowed s s'
  | discard {s s' : Segment K V} {handle : Handle} {entry : Entry K V} {cause : Cause}
      (found : s.entry? handle = some entry) (permitted : allowed entry.bare cause)
      (rest : Purge reach allowed (s.discard reach handle cause) s') : Purge reach allowed s s'

namespace Purge

theorem single {entry : Entry K V} {cause : Cause} (found : s.entry? handle = some entry)
    (permitted : allowed entry.bare cause) : Purge reach allowed s (s.discard reach handle cause) :=
  .discard found permitted (.done _)

theorem trans (first : Purge reach allowed s s') (second : Purge reach allowed s' s'') :
    Purge reach allowed s s'' := by
  induction first with
  | done s => exact second
  | replay _ ih => exact .replay (ih second)
  | discard found permitted _ ih => exact .discard found permitted (ih second)

theorem mono {allowed' : Entry K V → Cause → Prop} (purge : Purge reach allowed s s')
    (weaker : ∀ entry cause, allowed entry cause → allowed' entry cause) : Purge reach allowed' s s' := by
  induction purge with
  | done s => exact .done s
  | replay _ ih => exact .replay ih
  | discard found permitted _ ih => exact .discard found (weaker _ _ permitted) ih

theorem consistent (purge : Purge reach allowed s s') (consistent : s.Consistent) : s'.Consistent := by
  induction purge with
  | done s => exact consistent
  | replay _ ih => exact ih (consistent.replayReads).consistent
  | discard found _ _ ih => exact ih (consistent.discard found reach _).consistent

theorem policy (purge : Purge reach allowed s s') (consistent : s.Consistent) : s'.policy = s.policy := by
  induction purge with
  | done s => rfl
  | replay _ ih =>
      have replayed := consistent.replayReads
      exact (ih replayed.consistent).trans replayed.policy
  | @discard _ _ _ _ cause found _ _ ih =>
      have discarded := consistent.discard found reach cause
      exact (ih discarded.consistent).trans discarded.policy

theorem bound (purge : Purge reach allowed s s') (consistent : s.Consistent) : s'.bound = s.bound := by
  induction purge with
  | done s => rfl
  | replay _ ih =>
      have replayed := consistent.replayReads
      exact (ih replayed.consistent).trans replayed.bound
  | @discard _ _ _ _ cause found _ _ ih =>
      have discarded := consistent.discard found reach cause
      exact (ih discarded.consistent).trans discarded.bound

theorem bare? (purge : Purge reach allowed s s') (consistent : s.Consistent) {record : Entry K V}
    (left : s'.bare? handle = some record) : s.bare? handle = some record := by
  induction purge with
  | done s => exact left
  | replay _ ih =>
      have replayed := consistent.replayReads
      rw [← replayed.bare?]
      exact ih replayed.consistent left
  | @discard s s' gone _ cause found _ _ ih =>
      have discarded := consistent.discard found reach cause
      have earlier := ih discarded.consistent left
      rw [discarded.differ.bare?] at earlier
      split at earlier
      · cases earlier
      · exact earlier

end Purge

theorem trueCause_eq {record : Entry K V} (found : s.bare? handle = some record) (reach : Reach) (cause : Cause) :
    s.trueCause reach handle cause = s.policy.trueCause reach record cause := by
  obtain ⟨entry, live, rfl⟩ := bare?_eq_some.mp found
  rw [trueCause, live]
  rfl

theorem Consistent.entry?_head (consistent : s.Consistent) {ranking : Ranking}
    (head : (s.queue ranking).head = some handle) :
    ∃ entry, s.entry? handle = some entry ∧ entry.isReserved = false := by
  rw [consistent.head_eq] at head
  exact (consistent.mem_ordered ranking handle).mp (List.mem_of_mem_head? head)

theorem expireFrom_purge (consistent : s.Consistent) (reach : Reach) (now : Nat) (ranking : Ranking) (steps : Nat) :
    Purge reach (s.policy.Expires reach now) s (expireFrom reach now ranking steps s) := by
  induction steps generalizing s with
  | zero => exact .done s
  | succ steps ih =>
      rw [expireFrom]
      cases head : (s.queue ranking).head with
      | none => exact .done s
      | some handle =>
          obtain ⟨entry, found, counted⟩ := consistent.entry?_head head
          simp only [found]
          split
          · rename_i expired
            have discarded := consistent.discard found reach (s.trueCause reach handle .expired)
            have rest := ih discarded.consistent
            rw [discarded.policy] at rest
            exact .discard found ⟨counted, expired, trueCause_eq (bare?_of_found found) reach .expired⟩ rest
          · exact .done s

theorem expire_purge (consistent : s.Consistent) (reach : Reach) (now : Nat) :
    Purge reach (s.policy.Expires reach now) s (s.expire reach now) := by
  unfold expire
  split
  · have replayed := consistent.replayReads
    have first := expireFrom_purge replayed.consistent reach now .write s.replayReads.byWrite.length
    have second := expireFrom_purge (first.consistent replayed.consistent) reach now .access
      (expireFrom reach now .write s.replayReads.byWrite.length s.replayReads).byAccess.length
    rw [first.policy replayed.consistent] at second
    rw [replayed.policy] at first second
    exact .replay (first.trans second)
  · exact .done s

theorem Consistent.discardAll (consistent : s.Consistent) (reach : Reach) (allowed : Entry K V → Cause → Prop)
    (causeOf : Segment K V → Handle → Cause) (handles : List Handle) (distinct : handles.Nodup)
    (permitted : ∀ handle ∈ handles, ∃ record, s.bare? handle = some record ∧
      ∀ t : Segment K V, t.policy = s.policy → t.bare? handle = some record → allowed record (causeOf t handle)) :
    Purge reach allowed s (handles.foldl (fun s handle => s.discard reach handle (causeOf s handle)) s) ∧
      ∀ other, (handles.foldl (fun s handle => s.discard reach handle (causeOf s handle)) s).bare? other =
        if other ∈ handles then none else s.bare? other := by
  induction handles generalizing s with
  | nil => exact ⟨.done s, fun other => by simp⟩
  | cons first rest ih =>
      obtain ⟨record, bare_eq, may⟩ := permitted first (by simp)
      obtain ⟨entry, found, rfl⟩ := bare?_eq_some.mp bare_eq
      have discarded := consistent.discard found reach (causeOf s first)
      rw [List.nodup_cons] at distinct
      have remaining := ih discarded.consistent distinct.2 (by
        intro handle member
        obtain ⟨record, bare_eq, may⟩ := permitted handle (by simp [member])
        have different : handle ≠ first := fun same => distinct.1 (same ▸ member)
        refine ⟨record, (discarded.differ.others handle different).trans bare_eq, fun t policy => ?_⟩
        exact may t (policy.trans discarded.policy))
      rw [List.foldl_cons]
      refine ⟨.discard found (may s rfl bare_eq) remaining.1, fun other => ?_⟩
      rw [remaining.2, discarded.differ.bare?]
      by_cases same : other = first <;> simp [same]

theorem Consistent.discardWhere (consistent : s.Consistent) (reach : Reach) {p : Entry K V → Bool}
    (bare : ∀ entry, p entry.bare = p entry) (cause : Cause) :
    Purge reach (fun entry c => p entry = true ∧ c = cause) s
        (((s.stored.filter fun stored => p stored.2).map (·.1)).foldl
          (fun s handle => s.discard reach handle cause) s) ∧
      ∀ handle record,
        (((s.stored.filter fun stored => p stored.2).map (·.1)).foldl (fun s handle => s.discard reach handle cause)
          s).bare? handle = some record → p record = false := by
  have discarded := consistent.discardAll reach (fun entry c => p entry = true ∧ c = cause) (fun _ _ => cause)
    ((s.stored.filter fun stored => p stored.2).map (·.1))
    (s.stored_handles_nodup.sublist (List.filter_sublist.map _)) (by
      intro handle member
      obtain ⟨⟨_, entry⟩, stored, rfl⟩ := List.mem_map.mp member
      obtain ⟨stored, holds⟩ := List.mem_filter.mp stored
      exact ⟨entry.bare, bare?_of_found (mem_stored.mp stored), fun _ _ _ => ⟨(bare entry).trans holds, rfl⟩⟩)
  refine ⟨discarded.1, fun handle record left => ?_⟩
  rw [discarded.2] at left
  split at left
  · cases left
  · rename_i outside
    obtain ⟨entry, found, rfl⟩ := bare?_eq_some.mp left
    rw [bare, ← Bool.not_eq_true]
    intro holds
    exact outside (List.mem_map.mpr ⟨(handle, entry), List.mem_filter.mpr ⟨mem_stored.mpr found, holds⟩, rfl⟩)

theorem Consistent.reclaim (consistent : s.Consistent) (reach : Reach) :
    Purge reach (s.policy.Loses reach) s (s.reclaim reach) := by
  unfold Segment.reclaim
  split
  · exact .done s
  · exact (consistent.discardWhere reach (p := s.policy.isLost reach) (fun _ => rfl) .collected).1

def Reclaimed (reach : Reach) (s : Segment K V) : Prop :=
  ∀ handle record, s.bare? handle = some record → s.policy.isLost reach record = false

theorem Purge.reclaimed (purge : Purge reach allowed s s') (consistent : s.Consistent) (reclaimed : s.Reclaimed reach) :
    s'.Reclaimed reach := by
  intro handle record left
  rw [purge.policy consistent]
  exact reclaimed handle record (purge.bare? consistent left)

theorem Consistent.reclaimed_reclaim (consistent : s.Consistent) (reach : Reach) :
    (s.reclaim reach).Reclaimed reach := by
  intro handle record left
  rw [(consistent.reclaim reach).policy consistent]
  unfold Segment.reclaim at left
  split at left
  · rename_i strong
    simp only [Policy.isStrong, Bool.and_eq_true, decide_eq_true_eq] at strong
    unfold Policy.isLost
    split
    · rfl
    · simp [strong, Strength.reaches]
  · exact (consistent.discardWhere reach (p := s.policy.isLost reach) (fun _ => rfl) .collected).2 handle record left

theorem Consistent.prepare (consistent : s.Consistent) (reach : Reach) (now : Nat) :
    Purge reach (s.policy.Prepares reach now) s (s.prepare reach now) := by
  have reclaimed := consistent.reclaim reach
  have expired := expire_purge (reclaimed.consistent consistent) reach now
  rw [reclaimed.policy consistent] at expired
  exact (reclaimed.mono fun _ _ => .inl).trans (expired.mono fun _ _ => .inr)

theorem Consistent.reclaimed_prepare (consistent : s.Consistent) (reach : Reach) (now : Nat) :
    (s.prepare reach now).Reclaimed reach := by
  have consistent' := (consistent.reclaim reach).consistent consistent
  exact (expire_purge consistent' reach now).reclaimed consistent' (consistent.reclaimed_reclaim reach)

theorem Consistent.count_discard (consistent : s.Consistent) {entry : Entry K V}
    (found : s.entry? handle = some entry) (counted : entry.isReserved = false) (reach : Reach) (cause : Cause) :
    (s.discard reach handle cause).count + 1 = s.count := by
  have discarded := consistent.discard found reach cause
  have total := discarded.differ.total Entry.counts
  rw [← discarded.consistent.count_eq, ← consistent.count_eq] at total
  have counts : entry.counts = 1 := by simp [Entry.counts, counted]
  simpa [counts] using total

theorem Consistent.victim (consistent : s.Consistent) (exceeded : s.bound.isExceededBy s.weight = true) :
    ∃ handle entry, s.victim? = some handle ∧ s.entry? handle = some entry ∧ entry.isReserved = false := by
  have heavy : s.weight ≠ 0 := by
    intro nothing
    rw [nothing, Bound.isExceededBy] at exceeded
    cases limit : s.bound.limit <;> simp [limit] at exceeded
  rw [consistent.weight_eq, total] at heavy
  obtain ⟨weight, member, positive⟩ := List.exists_mem_ne_zero_of_sum_ne_zero heavy
  obtain ⟨⟨handle, record⟩, inside, rfl⟩ := List.mem_map.mp member
  obtain ⟨entry, found, rfl⟩ := bare?_eq_some.mp (mem_records.mp inside)
  rw [Entry.weighs_bare, Entry.weighs] at positive
  have counted : entry.isReserved = false := by
    by_contra reserved
    simp [reserved] at positive
  simp only [counted, Bool.false_eq_true, ↓reduceIte] at positive
  have ordered := (consistent.mem_ordered s.victimRanking handle).mpr ⟨entry, found, counted⟩
  have weighing : (s.entry? handle).any (·.weight > 0) = true := by
    simpa [found] using Nat.pos_of_ne_zero positive
  have located : s.victim?.isSome := by
    rw [victim?, List.find?_isSome]
    exact ⟨handle, ordered, weighing⟩
  obtain ⟨victim, located⟩ := Option.isSome_iff_exists.mp located
  obtain ⟨entry', found', counted'⟩ :=
    (consistent.mem_ordered s.victimRanking victim).mp (List.mem_of_find?_eq_some located)
  exact ⟨victim, entry', located, found', counted'⟩

theorem evictOldest_purge (consistent : s.Consistent) (bounded : s.bound.isBounded = true) (reach : Reach)
    {steps : Nat} (enough : s.count ≤ steps) :
    Purge reach (s.policy.Evicts s.bound reach) s (evictOldest reach steps s) := by
  induction steps generalizing s with
  | zero =>
      have holds : ¬ s.bound.isExceededBy s.weight = true := by
        intro exceeded
        obtain ⟨handle, entry, _, found, counted⟩ := consistent.victim exceeded
        have fewer := consistent.count_discard found counted reach .size
        omega
      rw [evictOldest, if_neg holds]
      exact .done s
  | succ steps ih =>
      rw [evictOldest]
      split
      · rename_i exceeded
        obtain ⟨handle, entry, located, found, counted⟩ := consistent.victim exceeded
        simp only [located]
        have discarded := consistent.discard found reach (s.trueCause reach handle .size)
        have fewer := consistent.count_discard found counted reach (s.trueCause reach handle .size)
        have rest := ih discarded.consistent (by rwa [discarded.bound]) (by omega)
        rw [discarded.policy, discarded.bound] at rest
        exact .discard found ⟨bounded, counted, trueCause_eq (bare?_of_found found) reach .size⟩ rest
      · exact .done s

theorem evictOversized_purge (bounded : s.bound.isBounded = true) (reach : Reach) (newest : Option Handle) :
    Purge reach (s.policy.Evicts s.bound reach) s (s.evictOversized reach newest) := by
  unfold evictOversized
  split
  · exact .done s
  · rename_i handle
    split
    · rename_i oversized
      obtain ⟨entry, found, oversized⟩ := (Option.any_eq_true _ _).mp oversized
      rw [Bool.and_eq_true, Bool.not_eq_true'] at oversized
      exact .single found ⟨bounded, oversized.1, trueCause_eq (bare?_of_found found) reach .size⟩
    · exact .done s

theorem evict_of_unbounded (unbounded : s.bound.isBounded = false) (reach : Reach) (newest : Option Handle) :
    s.evict reach newest = s := by
  simp [evict, unbounded]

theorem Consistent.evict (consistent : s.Consistent) (reach : Reach) (newest : Option Handle) :
    Purge reach (s.policy.Evicts s.bound reach) s (s.evict reach newest) := by
  unfold Segment.evict
  split
  · rename_i bounded
    have replayed := consistent.replayReads
    have oversized := evictOversized_purge (s := s.replayReads) (by rwa [replayed.bound]) reach newest
    have consistent' := oversized.consistent replayed.consistent
    have bound := oversized.bound replayed.consistent
    have oldest := evictOldest_purge consistent' (by rwa [bound, replayed.bound]) reach le_rfl
    rw [oversized.policy replayed.consistent, bound] at oldest
    rw [replayed.policy, replayed.bound] at oversized oldest
    exact .replay (oversized.trans oldest)
  · exact .done s

theorem Consistent.housekeeping (consistent : s.Consistent) (reach : Reach) (now : Nat) :
    Purge reach (s.policy.Prepares reach now) s ((s.replayReads.expire reach now).reclaim reach) := by
  have replayed := consistent.replayReads
  have expired := expire_purge replayed.consistent reach now
  have reclaimed := (expired.consistent replayed.consistent).reclaim reach
  rw [expired.policy replayed.consistent, replayed.policy] at reclaimed
  rw [replayed.policy] at expired
  exact .replay ((expired.mono fun _ _ => .inr).trans (reclaimed.mono fun _ _ => .inl))

theorem Consistent.cleanUp (consistent : s.Consistent) (reach : Reach) (now : Nat) :
    Purge reach
      (fun entry cause => s.policy.Prepares reach now entry cause ∨ s.policy.Evicts s.bound reach entry cause) s
      (s.cleanUp reach now) := by
  have swept := consistent.housekeeping reach now
  have evicted := (swept.consistent consistent).evict reach none
  rw [swept.policy consistent, swept.bound consistent] at evicted
  exact (swept.mono fun _ _ => .inl).trans (evicted.mono fun _ _ => .inr)

theorem Consistent.clear (consistent : s.Consistent) (reach : Reach) :
    ∃ t, Purge reach (fun entry cause => cause = s.policy.trueCause reach entry .explicit) s t ∧
      (s.clear reach = t ∨ s.clear reach = { t with readLog := #[] }) ∧ ∀ handle, t.bare? handle = none := by
  unfold Segment.clear
  split
  · rename_i empty
    refine ⟨s, .done s, .inl rfl, fun handle => ?_⟩
    have none_stored : s.arena.handles = [] := by
      rw [← List.length_eq_zero_iff, consistent.arena.length_handles]
      simpa [Arena.isEmpty] using empty
    cases found : s.bare? handle with
    | none => rfl
    | some record =>
        obtain ⟨entry, found, _⟩ := bare?_eq_some.mp found
        have member := Arena.mem_handles.mpr (get?_of_found found)
        simp [none_stored] at member
  · have discarded := consistent.discardAll reach
      (fun entry cause => cause = s.policy.trueCause reach entry .explicit)
      (fun s handle => s.trueCause reach handle .explicit) s.arena.handles (Arena.handles_nodup _) (by
        intro handle member
        obtain ⟨threaded, found⟩ := Arena.mem_handles.mp member
        refine ⟨threaded.item.bare, bare?_of_found (entry?_eq_some.mpr ⟨threaded, found, rfl⟩), ?_⟩
        intro t policy found
        rw [trueCause_eq found, policy])
    refine ⟨_, discarded.1, .inr rfl, fun handle => ?_⟩
    rw [discarded.2]
    split
    · rfl
    · rename_i outside
      cases found : s.bare? handle with
      | none => rfl
      | some record =>
          obtain ⟨entry, found, _⟩ := bare?_eq_some.mp found
          exact absurd (Arena.mem_handles.mpr (get?_of_found found)) outside

theorem Consistent.releaseSoft (consistent : s.Consistent) (reach : Reach) :
    Purge reach
      (fun entry cause => s.policy.valueStrength = .soft ∧ entry.isReserved = false ∧ cause = .collected) s
      (s.releaseSoft reach) := by
  unfold Segment.releaseSoft
  split
  · rename_i soft
    apply (consistent.discardWhere reach (p := fun entry => !entry.isReserved) (fun _ => rfl) .collected).1.mono
    intro entry cause may
    exact ⟨soft, by simpa using may.1, may.2⟩
  · exact .done s

end Segment
end SegmentedCache
