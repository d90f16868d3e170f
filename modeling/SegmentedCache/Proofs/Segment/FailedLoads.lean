import SegmentedCache.Proofs.Segment.Losses
import SegmentedCache.Proofs.Segment.SingleFlight

namespace SegmentedCache

/-!
Loads that end without a value. Apart from the sweep that comes before, only the entry that such a load was on its
way to can tell that it ever ran.
-/

variable {K V : Type}

def Entry.forgone? (entry : Entry K V) : Option (Entry K V) :=
  entry.visible?.map fun old => entry.setContent (.ready old)

namespace Entry

variable {entry : Entry K V}

theorem forgone?_of_reserved (reserved : entry.visible? = none) : entry.forgone? = none := by
  rw [forgone?, reserved, Option.map_none]

theorem forgone?_of_counted {old : Shared V} (counted : entry.visible? = some old) :
    entry.forgone? = some (entry.setContent (.ready old)) := by
  rw [forgone?, counted, Option.map_some]

theorem forgone?_elim (f : Entry K V → Nat) (reserved : entry.visible? = none → f entry = 0)
    (counted : ∀ old, entry.visible? = some old → f (entry.setContent (.ready old)) = f entry) :
    entry.forgone?.elim 0 f = f entry := by
  cases visible : entry.visible? with
  | none => rw [forgone?_of_reserved visible, reserved visible, Option.elim_none]
  | some old => rw [forgone?_of_counted visible, Option.elim_some, counted old visible]

theorem counts_forgone? (entry : Entry K V) : entry.forgone?.elim 0 counts = entry.counts := by
  apply forgone?_elim
  · exact fun reserved => if_pos (entry.isReserved_iff.mpr reserved)
  · exact fun old counted => (if_neg (by simp [isReserved_eq_false.mpr ⟨old, counted⟩])).symm

theorem weighs_forgone? (entry : Entry K V) : entry.forgone?.elim 0 weighs = entry.weighs := by
  apply forgone?_elim
  · exact fun reserved => if_pos (entry.isReserved_iff.mpr reserved)
  · exact fun old counted => (if_neg (by simp [isReserved_eq_false.mpr ⟨old, counted⟩])).symm

end Entry

theorem Policy.stale?_ready {policy : Policy K V} {reach : Reach} {now : Nat} {entry : Entry K V} {old : Shared V}
    (counted : entry.visible? = some old) :
    policy.stale? reach now (entry.setContent (.ready old)) = policy.stale? reach now entry := by
  have unreserved : entry.isReserved = false := Entry.isReserved_eq_false.mpr ⟨old, counted⟩
  have lost : policy.isLost reach (entry.setContent (.ready old)) = policy.isLost reach entry := by
    have visible : (entry.setContent (.ready old)).visible? = some old := rfl
    rw [isLost, visible, isLost, counted]
    rfl
  have expired : policy.isExpired now (entry.setContent (.ready old)) = policy.isExpired now entry := rfl
  rw [stale?, stale?, lost, expired, unreserved]
  rfl

namespace Segment

variable {hash : K → UInt64} {reach held : Reach} {ended : LoadId → Prop} {s s' : Segment K V} {handle : Handle}
  {record : Entry K V} {id : LoadId} {now : Nat}

theorem Consistent.giveUp (consistent : s.Consistent) {entry : Entry K V} (live : s.entry? handle = some entry)
    (reach : Reach) :
    ∃ ledger, Transition s (s.giveUp reach handle entry) handle (some entry.bare) entry.bare.forgone?
      ledger ∧ ledger.policy = s.policy ∧ ledger.bound = s.bound ∧ ledger.ordered = s.ordered ∧
      ledger.removals = s.removals := by
  unfold Segment.giveUp
  cases counted : entry.visible? with
  | none =>
      have discarded := consistent.discard live reach .explicit
      have outside (ranking : Ranking) : (s.ordered ranking).erase handle = s.ordered ranking := by
        apply List.erase_of_not_mem
        rw [consistent.mem_ordered]
        rintro ⟨entry', live', unreserved⟩
        cases live.symm.trans live'
        rw [entry.isReserved_iff.mpr counted] at unreserved
        cases unreserved
      refine ⟨_, by simpa [Entry.forgone?, counted] using discarded, rfl, rfl, funext outside, ?_⟩
      simp [Policy.removalsOf, counted]
  | some old =>
      have reserved : (entry.setContent (.ready old)).isReserved = entry.isReserved :=
        (Entry.isReserved_eq_false.mpr ⟨old, counted⟩).symm
      have reverted := consistent.modifyEntry live (f := (·.setContent (.ready old))) (fun _ => rfl) (fun _ => rfl)
        reserved rfl
      rw [Entry.forgone?, Entry.visible?_bare, counted]
      exact ⟨_, reverted, rfl, rfl, rfl, rfl⟩

section Again

variable [DecidableEq K] {key : Shared K}

theorem Consistent.claim_of_absent (consistent : s.Consistent) (keyed : s.Keyed hash reach)
    (absent : s.Absent reach key.data) (now : Nat) (thread : ThreadId) :
    ∃ load, (s.claim reach now thread key (hash key.data)).1 = .granted load := by
  have prepared := consistent.prepare reach now
  have consistent' := prepared.consistent consistent
  have absent' : (s.prepare reach now).Absent reach key.data := fun handle stands =>
    absent handle (stands.mono (prepared.policy consistent) fun _ => prepared.bare? consistent)
  have missing := ((prepared.keyed consistent keyed).find?_eq_none consistent'.toLinked).mpr absent'
  simp [Segment.claim, missing, Segment.grant]

theorem Consistent.claimRefresh_of_ready (consistent : s.Consistent) (keyed : s.Keyed hash reach)
    (found : s.bare? handle = some record) (reached : s.policy.keyStrength.reaches reach record.key = true)
    (same : record.key.data = key.data) {value : Shared V} (ready : record.content = .ready value)
    (fresh : s.policy.stale? reach now record = none) (thread : ThreadId) :
    ∃ load, (s.claimRefresh reach now thread key (hash key.data) true).1 = some (load, value) := by
  obtain ⟨entry, live, rfl⟩ := bare?_eq_some.mp found
  have located := keyed.find?_eq consistent.toLinked live reached same
  have ready : entry.content = .ready value := ready
  have fresh : s.policy.stale? reach now entry = none := fresh
  simp [Segment.claimRefresh, located, ready, fresh, Segment.issue]

end Again

variable [DecidableEq K]

/-- The second segment is what the first is after the load `id` of `key` ended without a value, and the losses are
what the sweep took before. -/
structure NoTrace (hash : K → UInt64) (reach : Reach) (now : Nat) (id : LoadId) (key : Shared K)
    (losses : List (Loss K V)) (s s' : Segment K V) : Prop where
  stale : ∀ loss ∈ losses, s.bare? loss.handle = some loss.record ∧
    s.policy.stale? reach now loss.record = some loss.cause
  distinct : (losses.map (·.handle)).Nodup
  gone : ∀ handle ∈ losses.map (·.handle), s'.bare? handle = none
  vacant : ∀ handle, s.bare? handle = none → s'.bare? handle = none
  others : ∀ handle ∉ losses.map (·.handle), ∀ record, s.bare? handle = some record →
    record.load? ≠ some id →
    s'.bare? handle = some record
  byWrite : s'.ordered .write = (s.ordered .write).filter (· ∉ losses.map (·.handle))
  count : s'.count + (losses.map (·.record.counts)).sum = s.count
  weight : s'.weight + (losses.map (·.record.weighs)).sum = s.weight
  removals : s'.removals =
    s.removals ++ losses.flatMap fun loss => s.policy.removalsOf reach loss.record loss.cause
  reserved : ∀ handle ∉ losses.map (·.handle), ∀ record, s.bare? handle = some record →
    record.load? = some id →
    record.visible? = none → s'.find? reach (hash key.data) key.data = none ∧ ∀ later thread,
      ∃ load, (s'.claim reach later thread key (hash key.data)).1 = .granted load
  refreshed : ∀ handle ∉ losses.map (·.handle), ∀ record, s.bare? handle = some record →
    record.load? = some id →
    ∀ old, record.visible? = some old → s'.bare? handle = some (record.setContent (.ready old)) ∧
      ∀ later thread, s'.policy.stale? reach later record = none →
        ∃ load, (s'.claimRefresh reach later thread key (hash key.data) true).1 = some (load, old)

namespace NoTrace

variable {u : Segment K V} {losses : List (Loss K V)} {key : Shared K}

theorem of_gone
    (thinned : Thinned reach (fun entry cause => s.policy.stale? reach now entry = some cause) losses [] s u)
    (gone : ∀ handle record, u.bare? handle = some record → record.load? ≠ some id) :
    NoTrace hash reach now id key losses s u := by
  have left {other : Handle} (outside : other ∉ losses.map (·.handle)) : u.bare? other = s.bare? other := by
    rw [thinned.bare?, if_neg outside]
  refine ⟨fun loss member => ⟨thinned.held loss member, thinned.permitted loss member⟩,
    thinned.distinct, ?_, ?_, ?_, thinned.byWrite, thinned.count, thinned.weight, ?_, ?_, ?_⟩
  · intro handle member
    rw [thinned.bare?, if_pos member]
  · intro handle vacant
    rw [thinned.bare?, vacant, ite_self]
  · exact fun handle outside record found _ => (left outside).trans found
  · rw [thinned.removals, List.append_nil]
  · exact fun handle outside record found held => absurd held (gone handle record ((left outside).trans found))
  · exact fun handle outside record found held => absurd held (gone handle record ((left outside).trans found))

theorem of_own {ledger : Ledger K V} {entry : Entry K V} (flights : Flights ended held u) (keyed : u.Keyed hash reach)
    (thinned : Thinned reach (fun entry cause => s.policy.stale? reach now entry = some cause) losses [] s u)
    (consistent : u.Consistent) (located : u.find? reach (hash key.data) key.data = some (handle, entry))
    (own : entry.load? = some id) (transition : Transition u s' handle (some entry.bare) entry.bare.forgone? ledger)
    (same_policy : ledger.policy = u.policy) (ordered : ledger.ordered = u.ordered)
    (removals : ledger.removals = u.removals) : NoTrace hash reach now id key losses s s' := by
  obtain ⟨live, reached, same⟩ := find?_eq_some located
  have consistent' := transition.consistent
  have policy' : s'.policy = u.policy := transition.policy.trans same_policy
  have removals' : s'.removals = u.removals := transition.removals.trans removals
  have left {other : Handle} (outside : other ∉ losses.map (·.handle)) : u.bare? other = s.bare? other := by
    rw [thinned.bare?, if_neg outside]
  -- No other record holds the load, so whatever differs after it is the entry found here.
  have here {other : Handle} {record : Entry K V} (found : u.bare? other = some record)
      (held : record.load? = some id) : other = handle ∧ record = entry.bare := by
    have same := flights.single found (bare?_of_found live) held own
    rw [same, bare?_of_found live] at found
    exact ⟨same, (Option.some.inj found).symm⟩
  have elsewhere {other : Handle} {record : Entry K V} (found : u.bare? other = some record)
      (different : record.load? ≠ some id) : s'.bare? other = some record := by
    rw [transition.differ.others other, found]
    rintro rfl
    cases found.symm.trans (bare?_of_found live)
    exact different own
  have keyed' : s'.Keyed hash reach := by
    have differ := transition.differ
    cases counted : entry.bare.visible? with
    | none =>
        rw [Entry.forgone?_of_reserved counted] at differ
        apply keyed.mono policy'
        intro other record found
        rw [differ.bare?] at found
        split at found
        · cases found
        · exact found
    | some old =>
        rw [Entry.forgone?_of_counted counted] at differ
        exact keyed.differ differ policy' (.inl ⟨_, rfl, rfl, rfl⟩)
  refine ⟨fun loss member => ⟨thinned.held loss member, thinned.permitted loss member⟩,
    thinned.distinct, ?_, ?_, ?_, ?_, ?_, ?_, ?_, ?_, ?_⟩
  · intro other member
    have gone : u.bare? other = none := by rw [thinned.bare?, if_pos member]
    rw [transition.differ.others other, gone]
    rintro rfl
    cases gone.symm.trans (bare?_of_found live)
  · intro other vacant
    have gone : u.bare? other = none := by rw [thinned.bare?, vacant, ite_self]
    rw [transition.differ.others other, gone]
    rintro rfl
    cases gone.symm.trans (bare?_of_found live)
  · exact fun other outside record found different => elsewhere ((left outside).trans found) different
  · rw [transition.ordered, ordered, thinned.byWrite]
  · have total := transition.differ.total Entry.counts
    rw [← consistent'.count_eq, ← consistent.count_eq, Entry.counts_forgone?, Option.elim_some] at total
    rw [Nat.add_right_cancel total, thinned.count]
  · have total := transition.differ.total Entry.weighs
    rw [← consistent'.weight_eq, ← consistent.weight_eq, Entry.weighs_forgone?, Option.elim_some] at total
    rw [Nat.add_right_cancel total, thinned.weight]
  · rw [removals', thinned.removals, List.append_nil]
  · intro other outside record found held reserved
    obtain ⟨rfl, rfl⟩ := here ((left outside).trans found) held
    have gone : s'.bare? other = none := by rw [transition.differ.after, Entry.forgone?_of_reserved reserved]
    have absent := keyed.absent_of_gone (standsFor_of_find? located) policy' gone transition.differ.others
    exact ⟨(keyed'.find?_eq_none consistent'.toLinked).mpr absent, fun later thread =>
      consistent'.claim_of_absent keyed' absent later thread⟩
  · intro other outside record found held old counted
    obtain ⟨rfl, rfl⟩ := here ((left outside).trans found) held
    have ready : s'.bare? other = some (entry.bare.setContent (.ready old)) := by
      rw [transition.differ.after, Entry.forgone?_of_counted counted]
    refine ⟨ready, fun later thread fresh => ?_⟩
    apply consistent'.claimRefresh_of_ready keyed' ready (policy' ▸ reached) same rfl
    rw [Policy.stale?_ready counted, fresh]

end NoTrace

/-- A load that gave no value leaves no trace, whatever happened between its start and its end. -/
theorem Flights.finishLoad_none (flights : Flights ended held s) (honoured : s.policy.Honours reach held)
    (consistent : s.Consistent) (keyed : s.Keyed hash reach) {load : Load K V} (issued : s.loads[id]? = some load)
    (now : Nat) :
    ∃ losses, NoTrace hash reach now id load.key losses s
      (s.finishLoad reach now load.key (hash load.key.data) id none) := by
  have prepared := consistent.prepare reach now
  have consistent' := prepared.consistent consistent
  have keyed' := prepared.keyed consistent keyed
  have flights' := prepared.flights consistent flights
  obtain ⟨losses, thinned⟩ := consistent.prepare_thinned reach now
  refine ⟨losses, ?_⟩
  have finishing := s.finishing reach now load.key (hash load.key.data) id none
  generalize s.finishLoad reach now load.key (hash load.key.data) id none = s' at finishing ⊢
  cases finishing with
  | dropped gone =>
      obtain ⟨load', issued', key_eq, _⟩ := (prepared.later consistent).kept id load issued
      have honoured' := prepared.policy consistent ▸ honoured
      refine .of_gone thinned (flights'.gone honoured' consistent' keyed' (consistent.reclaimed_prepare reach now)
        issued' ?_)
      rwa [key_eq]
  | forgone located own =>
      obtain ⟨ledger, transition, policy, _, ordered, removals⟩ :=
        consistent'.giveUp (find?_eq_some located).1 reach
      exact .of_own flights' keyed' thinned consistent' located own transition policy ordered removals

end Segment
end SegmentedCache
