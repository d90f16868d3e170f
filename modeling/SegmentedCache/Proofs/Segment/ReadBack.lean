import SegmentedCache.Proofs.Segment.Storing
import SegmentedCache.Proofs.Segment.Weights

namespace SegmentedCache.Segment

/-!
Reading back what was stored. What is stored is the last in the queues, and eviction starts from their other end. Reads
that are replayed only then, however, put the entries that were read behind what was stored, and so it stays if it fits
beside them.
-/

variable {K V : Type} {s s' : Segment K V} {handle : Handle} {hash : K → UInt64} {reach : Reach} {now : Nat}
  {key : Shared K} {value : Shared V} {record : Entry K V}

def OnlyBehind (order : List Handle) (handle : Handle) (handles : List Handle) : Prop :=
  ∃ earlier later, order = earlier ++ handle :: later ∧ later ⊆ handles

section OnlyBehind

variable {order handles : List Handle} {other : Handle}

theorem OnlyBehind.erase (behind : OnlyBehind order handle handles) (different : other ≠ handle) :
    OnlyBehind (order.erase other) handle handles := by
  obtain ⟨earlier, later, rfl, allowed⟩ := behind
  by_cases member : other ∈ earlier
  · exact ⟨earlier.erase other, later, List.erase_append_left _ member, allowed⟩
  · refine ⟨earlier, later.erase other, ?_, fun _ left => allowed (List.mem_of_mem_erase left)⟩
    rw [List.erase_append_right _ member, List.erase_cons_tail (by simpa using different.symm)]

theorem OnlyBehind.movedToEnd (behind : OnlyBehind order handle handles) (allowed : other ∈ handles) :
    OnlyBehind (LinkedQueue.movedToEnd order other) handle handles := by
  unfold LinkedQueue.movedToEnd
  split
  · by_cases same : other = handle
    · exact ⟨order.erase other, [], by rw [same], List.nil_subset _⟩
    · obtain ⟨earlier, later, order_eq, allowed'⟩ := behind.erase same
      refine ⟨earlier, later ++ [other], by rw [order_eq, List.append_assoc, List.cons_append], ?_⟩
      exact List.append_subset.mpr ⟨allowed', by simpa using allowed⟩
  · exact behind

theorem OnlyBehind.replayed {readLog : Array Handle} (behind : OnlyBehind order handle readLog.toList) :
    OnlyBehind (replayedOrder readLog order) handle readLog.toList := by
  have each (noted : List Handle) (all : noted ⊆ readLog.toList) :
      OnlyBehind (noted.foldl LinkedQueue.movedToEnd order) handle readLog.toList := by
    induction noted generalizing order with
    | nil => exact behind
    | cons other rest ih =>
        obtain ⟨first, rest⟩ := List.cons_subset.mp all
        exact ih (behind.movedToEnd first) rest
  exact each _ (List.Subset.refl _)

end OnlyBehind

def weightOf (p : Handle × Entry K V → Bool) (s : Segment K V) : Nat :=
  ((s.records.filter p).map fun record => record.2.weighs).sum

theorem weightOf_le {p p' : Handle × Entry K V → Bool}
    (kept : ∀ handle record, p' (handle, record) = true → s'.bare? handle = some record →
      p (handle, record) = true ∧ s.bare? handle = some record) : s'.weightOf p' ≤ s.weightOf p := by
  have subset : s'.records.filter p' ⊆ s.records.filter p := by
    rintro ⟨handle, record⟩ member
    obtain ⟨stored, holds⟩ := List.mem_filter.mp member
    obtain ⟨holds', stored'⟩ := kept handle record holds (mem_records.mp stored)
    exact List.mem_filter.mpr ⟨mem_records.mpr stored', holds'⟩
  obtain ⟨fewer, perm, sublist⟩ := List.subperm_of_subset (s'.records_nodup.filter p') subset
  rw [weightOf, ← (perm.map _).sum_eq]
  exact (sublist.map _).sum_le_sum fun _ _ => Nat.zero_le _

theorem fits_of_kept {p p' : Handle × Entry K V → Bool} {weight : Nat}
    (fits : s.bound.isExceededBy (weight + s.weightOf p) = false) (bound : s'.bound = s.bound)
    (kept : ∀ handle record, p' (handle, record) = true → s'.bare? handle = some record →
      p (handle, record) = true ∧ s.bare? handle = some record) :
    s'.bound.isExceededBy (weight + s'.weightOf p') = false := by
  rw [bound]
  exact Bound.isExceededBy_mono (Nat.add_le_add_left (weightOf_le kept) weight) fits

theorem Consistent.weight_le (consistent : s.Consistent) (found : s.bare? handle = some record)
    {p : Handle × Entry K V → Bool}
    (weightless : ∀ other record', other ≠ handle → s.bare? other = some record' →
      p (other, record') = false →
      record'.weighs = 0) : s.weight ≤ record.weighs + s.weightOf p := by
  have others (records : List (Handle × Entry K V)) (stored : records ⊆ s.records) :
      ((records.filter (·.1 ≠ handle)).map fun record => record.2.weighs).sum ≤
        ((records.filter p).map fun record => record.2.weighs).sum := by
    induction records with
    | nil => exact le_rfl
    | cons first rest ih =>
        obtain ⟨stored, rest⟩ := List.cons_subset.mp stored
        have fewer := ih rest
        have nothing (different : first.1 ≠ handle) := weightless first.1 first.2 different (mem_records.mp stored)
        simp only [List.filter_cons]
        split
        · rename_i different
          split
          · simpa using fewer
          · rename_i unchosen
            simpa [nothing (of_decide_eq_true different) (Bool.eq_false_of_not_eq_true unchosen)] using fewer
        · split
          · exact fewer.trans (by simp)
          · exact fewer
  rw [consistent.weight_eq, s.total_split handle, found, Option.elim_some]
  exact Nat.add_le_add_left (others s.records (List.Subset.refl _)) _

def among (handles : List Handle) (handle : Handle) (record : Handle × Entry K V) : Bool :=
  record.1 ∈ handles && record.1 ≠ handle

theorem Consistent.victim_ne (consistent : s.Consistent) {handles : List Handle}
    (behind : OnlyBehind (s.ordered s.victimRanking) handle handles) (found : s.bare? handle = some record)
    (light : s.bound.isExceededBy (record.weighs + s.weightOf (among handles handle)) = false)
    (exceeded : s.bound.isExceededBy s.weight = true) {victim : Handle} (chosen : s.victim? = some victim) :
    victim ≠ handle := by
  rintro rfl
  obtain ⟨earlier, later, order, allowed⟩ := behind
  have apart : victim ∉ earlier := by
    have nodup := order ▸ (consistent.queued s.victimRanking).nodup
    exact fun member => (List.nodup_append.mp nodup).2.2 victim member victim List.mem_cons_self rfl
  have weightless : ∀ other ∈ earlier, ¬ (s.entry? other).any (·.weight > 0) = true := by
    rw [victim?, order, List.find?_append] at chosen
    cases first : earlier.find? fun other => (s.entry? other).any (·.weight > 0) with
    | none => simpa using List.find?_eq_none.mp first
    | some other =>
        rw [first, Option.some_or, Option.some.injEq] at chosen
        exact absurd (chosen ▸ List.mem_of_find?_eq_some first) apart
  have all : s.weight ≤ record.weighs + s.weightOf (among handles victim) := by
    apply consistent.weight_le found
    intro other record' different stored unread
    obtain ⟨entry, live, rfl⟩ := bare?_eq_some.mp stored
    cases reserved : entry.isReserved with
    | true => simp [Entry.weighs, reserved]
    | false =>
        have queued := (consistent.mem_ordered s.victimRanking other).mpr ⟨entry, live, reserved⟩
        have before : other ∈ earlier := by
          rw [order, List.mem_append, List.mem_cons] at queued
          rcases queued with before | same | after
          · exact before
          · exact absurd same different
          · simp [among, allowed after, different] at unread
        have light := weightless other before
        simp only [live, Option.any_some, decide_eq_true_eq, Nat.not_lt, Nat.le_zero] at light
        simp [Entry.weighs, reserved, light]
  cases exceeded.symm.trans (Bound.isExceededBy_mono all light)

theorem Consistent.evictOldest_keeps (consistent : s.Consistent) {handles : List Handle}
    (behind : ∀ ranking, OnlyBehind (s.ordered ranking) handle handles) (found : s.bare? handle = some record)
    (light : s.bound.isExceededBy (record.weighs + s.weightOf (among handles handle)) = false) (reach : Reach)
    (steps : Nat) : (evictOldest reach steps s).bare? handle = some record := by
  induction steps generalizing s with
  | zero =>
      rw [evictOldest]
      split <;> exact found
  | succ steps ih =>
      rw [evictOldest]
      split
      · rename_i exceeded
        cases chosen : s.victim? with
        | none => exact found
        | some victim =>
            have different := consistent.victim_ne (behind _) found light exceeded chosen
            obtain ⟨_, entry, chosen', live, _⟩ := consistent.victim exceeded
            cases chosen.symm.trans chosen'
            have discarded := consistent.discard live reach (s.trueCause reach victim .size)
            refine ih discarded.consistent (fun ranking => ?_) ?_ ?_
            · rw [discarded.ordered]
              exact (behind ranking).erase different
            · exact (discarded.differ.others handle different.symm).trans found
            · apply fits_of_kept light discarded.bound
              intro other record' holds left
              rw [discarded.differ.bare?] at left
              split at left
              · cases left
              · exact ⟨holds, left⟩
      · exact found

theorem Consistent.evict_keeps (consistent : s.Consistent) {handles : List Handle}
    (behind : ∀ ranking, OnlyBehind (s.replayReads.ordered ranking) handle handles)
    (found : s.bare? handle = some record)
    (light : s.bound.isExceededBy (record.weighs + s.weightOf (among handles handle)) = false) (reach : Reach) :
    (s.evict reach (some handle)).bare? handle = some record := by
  have replayed := consistent.replayReads
  have found' : s.replayReads.bare? handle = some record := (replayed.bare? handle).trans found
  have light' : s.replayReads.bound.isExceededBy
      (record.weighs + s.replayReads.weightOf (among handles handle)) = false :=
    fits_of_kept light replayed.bound fun other _ holds stored => ⟨holds, (replayed.bare? other).symm.trans stored⟩
  have kept : s.replayReads.evictOversized reach (some handle) = s.replayReads := by
    obtain ⟨entry, live, rfl⟩ := bare?_eq_some.mp found'
    have alone := Bound.isExceededBy_mono (Nat.le_add_right _ _) light'
    rw [evictOversized, live]
    cases reserved : entry.isReserved with
    | true => simp [reserved]
    | false =>
        rw [Entry.weighs_bare, Entry.weighs, reserved, if_neg Bool.false_ne_true] at alone
        simp [alone]
  unfold Segment.evict
  split
  · dsimp only
    rw [kept]
    exact replayed.consistent.evictOldest_keeps behind found' light' reach _
  · exact found

def Keeps (s : Segment K V) (now : Nat) (key : Shared K) (value : Shared V) : Prop :=
  ∃ handle record, s.bare? handle = some record ∧ record.Fresh s.policy now key value

theorem Stores.keeps (stores : Stores now key value s s' handle)
    (light : s.bound.isExceededBy
      (s.policy.weigh key.data value.data + s.weightOf (among s.readLog.toList handle)) = false) (reach : Reach) :
    (s'.evict reach (some handle)).Keeps now key value := by
  obtain ⟨before, after, ledger, transition, fresh, policy, bound, readLog⟩ := stores.transition
  have evicted := transition.consistent.evict reach (some handle)
  have after_policy : (s'.evict reach (some handle)).policy = s.policy :=
    (evicted.policy transition.consistent).trans (transition.policy.trans policy)
  have behind (ranking : Ranking) : OnlyBehind (s'.replayReads.ordered ranking) handle s.readLog.toList := by
    have last : OnlyBehind (s'.ordered ranking) handle s.readLog.toList :=
      ⟨(s.ordered ranking).erase handle, [], stores.ordered ranking, List.nil_subset _⟩
    rw [transition.consistent.replayReads.ordered]
    cases ranking with
    | write => exact last
    | access =>
        rw [transition.readLog.trans readLog]
        exact last.replayed
  have light' : s'.bound.isExceededBy (after.weighs + s'.weightOf (among s.readLog.toList handle)) = false := by
    rw [fresh.weighs]
    apply fits_of_kept light (transition.bound.trans bound)
    intro other record noted stored
    have different : other ≠ handle := by
      rintro rfl
      simp [among] at noted
    exact ⟨noted, (transition.differ.others other different).symm.trans stored⟩
  have stays := transition.consistent.evict_keeps behind transition.differ.after light' reach
  exact ⟨handle, after, stays, after_policy ▸ fresh⟩

theorem Keeps.rebooked {ledger : Ledger K V} (keeps : s.Keeps now key value) (rebooked : Rebooked s s' ledger)
    (policy : ledger.policy = s.policy) : s'.Keeps now key value := by
  obtain ⟨handle, record, found, fresh⟩ := keeps
  refine ⟨handle, record, (rebooked.bare? handle).trans found, ?_⟩
  rwa [rebooked.policy, policy]

theorem strong_keys (strong : s.policy.isStrong = true) : s.policy.keyStrength = .strong := by
  simp only [Policy.isStrong, Bool.and_eq_true, decide_eq_true_eq] at strong
  exact strong.1

theorem Keyed.of_strong (keyed : s.Keyed hash reach) (strong : s.policy.isStrong = true) (reach' : Reach) :
    s.Keyed hash reach' := by
  have anyway {key : K} {handle : Handle} (stands : s.StandsFor reach' key handle) : s.StandsFor reach key handle := by
    obtain ⟨record, found, _, same⟩ := stands
    refine ⟨record, found, ?_, same⟩
    rw [strong_keys strong]
    rfl
  exact ⟨keyed.hashed, fun key first second stands stands' =>
    keyed.distinct key first second (anyway stands) (anyway stands')⟩

/-- The segment is in order, and no key or value is lost while it is stored. -/
structure Sound (hash : K → UInt64) (s : Segment K V) : Prop where
  consistent : s.Consistent
  strong : s.policy.isStrong = true
  keyed : ∀ reach, s.Keyed hash reach

theorem Sound.rebooked {ledger : Ledger K V} (sound : s.Sound hash) (rebooked : Rebooked s s' ledger)
    (policy : ledger.policy = s.policy) : s'.Sound hash where
  consistent := rebooked.consistent
  strong := by
    rw [rebooked.policy, policy]
    exact sound.strong
  keyed reach := rebooked.keyed policy (sound.keyed reach)

section Operations

variable [DecidableEq K]

/-- Either reads are replayed before every write, because entries grow too old, or the other entries of which reads are
noted leave room for the weight. -/
def Calm (s : Segment K V) (key : K) (weight : Nat) : Prop :=
  s.policy.lifetime.isLimited = true ∨
    s.bound.isExceededBy
      (weight + s.weightOf fun record => record.1 ∈ s.readLog.toList && record.2.key.data ≠ key) = false

theorem Calm.swept {allowed : Entry K V → Cause → Prop} {weight : Nat} (calm : s.Calm key.data weight)
    (light : s.bound.isExceededBy weight = false) (purge : Purge reach allowed s s') (consistent : s.Consistent)
    (replayed : s.policy.lifetime.isLimited = true → s'.readLog = #[])
    (alone : ∀ other record, s'.bare? other = some record → record.key.data = key.data → other = handle) :
    s'.bound.isExceededBy (weight + s'.weightOf (among s'.readLog.toList handle)) = false := by
  rcases calm with limited | room
  · have unread : s'.records.filter (among [] handle) = [] :=
      List.filter_eq_nil_iff.mpr fun record _ => by simp [among]
    rwa [purge.bound consistent, replayed limited, weightOf, unread]
  · apply fits_of_kept room (purge.bound consistent)
    intro other record noted stored
    simp only [among, Bool.and_eq_true, decide_eq_true_eq] at noted ⊢
    refine ⟨⟨?_, fun same => noted.2 (alone other record stored same)⟩, purge.bare? consistent stored⟩
    rcases purge.readLog_eq consistent with empty | same
    · simp [empty] at noted
    · exact same ▸ noted.1

theorem Sound.run (sound : s.Sound hash) (reach : Reach) (now : Nat) (op : Operation K V) :
    (op.run hash reach now s).Sound hash := by
  have runs := sound.consistent.runs hash reach now op
  have strong : (op.run hash reach now s).policy.isStrong = true := by
    rw [(runs.rules sound.consistent).1]
    exact sound.strong
  exact ⟨runs.consistent sound.consistent, strong,
    (runs.keyed sound.consistent (sound.keyed reach)).of_strong strong⟩

theorem Sound.insert_keeps (sound : s.Sound hash) (calm : s.Calm key.data (s.policy.weigh key.data value.data))
    (light : s.bound.isExceededBy (s.policy.weigh key.data value.data) = false) (reach : Reach) (now : Nat) :
    (s.insert reach now key (hash key.data) value false).2.Keeps now key value := by
  obtain ⟨t, purge, replayed, inserted⟩ := sound.consistent.insert_stores hash reach now key value false
  have policy := purge.policy sound.consistent
  rcases inserted with ⟨u, handle, stores, only, stored⟩ | ⟨impossible, _⟩
  · rw [stored]
    refine stores.keeps ?_ reach
    rw [policy]
    apply calm.swept light purge sound.consistent replayed
    intro other record found same
    exact only (sound.keyed reach) other ⟨record, found, by rw [policy, strong_keys sound.strong]; rfl, same⟩
  · cases impossible

theorem Sound.finishLoad_keeps_of_left (sound : s.Sound hash)
    (calm : s.Calm key.data (s.policy.weigh key.data value.data))
    (light : s.bound.isExceededBy (s.policy.weigh key.data value.data) = false)
    (left : (s.prepare reach now).bare? handle = some record) {load : LoadId} (own : record.load? = some load)
    (same : record.key.data = key.data) :
    (s.finishLoad reach now key (hash key.data) load (some value)).Keeps now key value := by
  have consistent := sound.consistent
  have purge := consistent.prepare reach now
  have consistent' := purge.consistent consistent
  have keyed' := purge.keyed consistent (sound.keyed reach)
  have policy := purge.policy consistent
  have replayed := consistent.prepare_readLog reach now
  have reached (object : Shared K) : (s.prepare reach now).policy.keyStrength.reaches reach object = true := by
    rw [policy, strong_keys sound.strong]
    rfl
  obtain ⟨entry, live, rfl⟩ := bare?_eq_some.mp left
  have located := keyed'.find?_eq consistent'.toLinked live (reached entry.key) same
  obtain ⟨u, stores, stored⟩ := consistent'.storeLoaded_stores live same reach now value
  rw [(finishLoad_of_own located own value).trans stored]
  generalize s.prepare reach now = t at *
  rw [← policy] at calm light
  refine stores.keeps (calm.swept light purge consistent replayed ?_) reach
  intro other record found' same'
  exact keyed'.distinct key.data other handle ⟨record, found', reached record.key, same'⟩
    ⟨entry.bare, left, reached entry.key, same⟩

theorem Sound.finishLoad_keeps (sound : s.Sound hash) (calm : s.Calm key.data (s.policy.weigh key.data value.data))
    (light : s.bound.isExceededBy (s.policy.weigh key.data value.data) = false)
    (found : s.bare? handle = some record) {load : LoadId} (own : record.load? = some load)
    (same : record.key.data = key.data) (fresh : s.policy.stale? reach now record = none) :
    (s.finishLoad reach now key (hash key.data) load (some value)).Keeps now key value := by
  have purge := (sound.consistent.prepare reach now).mono fun _ _ => Policy.stale?_of_prepares
  have left := purge.kept sound.consistent found fun cause stale => by cases stale.symm.trans fresh
  exact sound.finishLoad_keeps_of_left calm light left own same

theorem Sound.read_of_keeps (sound : s.Sound hash) (keeps : s.Keeps now key value) {later : Nat}
    (young : s.policy.lifetime.isOver later now now = false) (reach : Reach) :
    ∃ refresh, (s.read reach later (hash key.data) key.data).1 = .live value refresh := by
  obtain ⟨handle, record, found, fresh⟩ := keeps
  obtain ⟨entry, live, rfl⟩ := bare?_eq_some.mp found
  have strong := sound.strong
  simp only [Policy.isStrong, Bool.and_eq_true, decide_eq_true_eq] at strong
  have reached : s.policy.keyStrength.reaches reach entry.key = true := by
    rw [strong.1]
    rfl
  have located := (sound.keyed reach).find?_eq sound.consistent.toLinked live reached fresh.same
  have content : entry.content = .ready value := fresh.content
  have visible : entry.visible? = some value := by rw [Entry.visible?, content]
  have current : s.policy.stale? reach later entry = none := by
    have written : entry.written = now := fresh.written
    have accessed : entry.accessed = now := fresh.accessed
    have counted : entry.isReserved = false := Entry.isReserved_eq_false.mpr ⟨value, visible⟩
    have expired : s.policy.isExpired later entry = false := by rw [Policy.isExpired, written, accessed, young]
    have kept : s.policy.isLost reach entry = false := by simp [Policy.isLost, visible, strong, Strength.reaches]
    simp [Policy.stale?, counted, expired, kept]
  simp [Segment.read, located, content, current, Policy.value?_of_stale? current visible]

end Operations

end SegmentedCache.Segment
