import SegmentedCache.Proofs.Segment.Accounting
import SegmentedCache.Proofs.Segment.Standing

namespace SegmentedCache

/-!
Segments that hold no value. Loads may be on their way to them. A value that is put or loaded then, and is not held
afterwards, is reported by the operation that brings it.
-/

variable {K V : Type}

namespace Operation

def Reached (policy : Policy K V) (reach : Reach) : Operation K V → Prop
  | finishLoad key _ (some value) | insert key value _ =>
      policy.keyStrength.reaches reach key = true ∧ policy.valueStrength.reaches reach value = true
  | _ => True

def displaced? (op : Operation K V) (s : Segment K V) : Option Cause :=
  (op.ends?.bind (s.loads[·]?)).bind (·.displaced)

end Operation

namespace Policy

variable {policy : Policy K V} {reach : Reach} {entry : Entry K V}

theorem not_isLost {value : Shared V} (visible : entry.visible? = some value)
    (key_reached : policy.keyStrength.reaches reach entry.key = true)
    (value_reached : policy.valueStrength.reaches reach value = true) : policy.isLost reach entry = false := by
  simp [isLost, visible, key_reached, value_reached]

theorem visible_of_removes {bound : Bound} {now : Nat} {key : Shared K} {id : LoadId} {loaded : Option (Shared V)}
    {cause : Cause} (removes : (Operation.finishLoad key id loaded).Removes policy bound reach now entry cause) :
    entry.visible? ≠ none := by
  intro reserved
  have reserved' := entry.isReserved_iff.mpr reserved
  rcases removes with prepares | evicts
  · have stale := stale?_of_prepares prepares
    simp [stale?, reserved'] at stale
  · cases reserved'.symm.trans evicts.2.1

end Policy

namespace Segment

variable {s t s' : Segment K V} {handle : Handle} {hash : K → UInt64} {reach held : Reach} {now : Nat}
  {allowed : Entry K V → Cause → Prop} {record : Entry K V} {removal : Removal K V}

theorem mem_pairs {pair : K × Shared V} :
    pair ∈ s.pairs ↔ ∃ handle record, s.bare? handle = some record ∧ record.pair? = some pair := by
  simp only [pairs, counted, List.mem_filterMap, List.mem_filter, List.mem_map]
  constructor
  · rintro ⟨entry, ⟨⟨⟨handle, _⟩, stored, rfl⟩, _⟩, shown⟩
    exact ⟨handle, _, bare?_of_found (mem_stored.mp stored), shown⟩
  · rintro ⟨handle, record, found, shown⟩
    obtain ⟨entry, live, rfl⟩ := bare?_eq_some.mp found
    obtain ⟨value, visible, _⟩ := Option.map_eq_some_iff.mp shown
    have counted : entry.isReserved = false := Entry.isReserved_eq_false.mpr ⟨value, visible⟩
    exact ⟨entry, ⟨⟨⟨handle, entry⟩, mem_stored.mpr live, rfl⟩, by rw [counted, Bool.not_false]⟩, shown⟩

theorem Weighed.weigh_eq_zero (weighed : s.Weighed) (nothing : s.bound.limit = some 0) {pair : K × Shared V}
    (member : pair ∈ s.pairs) : s.policy.weigh pair.1 pair.2.data = 0 := by
  have light : s.weight = 0 := by
    simpa [Bound.isExceededBy, nothing] using weighed.within
  obtain ⟨entry, inside, shown⟩ := List.mem_filterMap.mp member
  obtain ⟨value, visible, rfl⟩ := Option.map_eq_some_iff.mp shown
  rw [weighed.weight_eq, List.sum_eq_zero_iff] at light
  have price := light _ (List.mem_map.mpr ⟨entry, inside, rfl⟩)
  rwa [Policy.price, visible, Option.elim_some] at price

def Vacant (s : Segment K V) : Prop :=
  s.pairs = []

namespace Vacant

variable (vacant : s.Vacant)

include vacant

theorem reserved (found : s.bare? handle = some record) : record.visible? = none := by
  cases visible : record.visible? with
  | none => rfl
  | some value =>
      have member : (record.key.data, value) ∈ s.pairs :=
        mem_pairs.mpr ⟨handle, record, found, by rw [Entry.pair?, visible, Option.map_some]⟩
      rw [vacant] at member
      cases member

theorem count (consistent : s.Consistent) : s.count = 0 := by
  rw [consistent.count_eq, total, List.sum_eq_zero_iff]
  intro counts member
  obtain ⟨⟨handle, record⟩, inside, rfl⟩ := List.mem_map.mp member
  have reserved := vacant.reserved (mem_records.mp inside)
  exact if_pos (record.isReserved_iff.mpr reserved)

theorem contains [DecidableEq K] (reach : Reach) (now : Nat) (code : UInt64) (key : K) :
    s.contains reach now code key = false := by
  cases located : s.find? reach code key with
  | none => rw [Segment.contains, located, Option.any_none]
  | some found =>
      have reserved := vacant.reserved (bare?_of_found (find?_eq_some located).1)
      simp [Segment.contains, located, found.2.isReserved_iff.mpr reserved]

theorem toList (reach : Reach) (now : Nat) : s.toList reach now = [] := by
  rw [Segment.toList, List.filterMap_eq_nil_iff]
  rintro ⟨handle, entry⟩ stored
  have reserved := vacant.reserved (bare?_of_found (mem_stored.mp stored))
  rw [Entry.visible?_bare] at reserved
  simp [Policy.value?, reserved]

theorem of_differ {before after : Option (Entry K V)} (differ : Differ s t handle before after) {other : Handle}
    (found : t.bare? other = some record) {value : Shared V} (visible : record.visible? = some value) :
    after = some record := by
  rw [differ.bare?] at found
  split at found
  · exact found
  · cases (vacant.reserved found).symm.trans visible

end Vacant

theorem accounts_eq_zero : s.accounts = 0 ↔ s.Vacant ∧ s.removals = [] := by
  simp [accounts, Vacant]

theorem Purge.mem_removals (purge : Purge reach allowed s s') (consistent : s.Consistent)
    (member : removal ∈ s'.removals) :
    removal ∈ s.removals ∨ ∃ handle record value, s.bare? handle = some record ∧
      record.visible? = some value ∧
      allowed record removal.cause := by
  obtain ⟨losses, thinned⟩ := purge.thinned consistent
  rw [thinned.removals, List.append_nil] at member
  rcases List.mem_append.mp member with earlier | new
  · exact .inl earlier
  · obtain ⟨loss, inside, reported⟩ := List.mem_flatMap.mp new
    obtain ⟨value, visible, rfl⟩ := List.mem_map.mp reported
    exact .inr ⟨loss.handle, loss.record, value, thinned.held loss inside, Option.mem_toList.mp visible,
      thinned.permitted loss inside⟩

theorem Vacant.evicts {before : Option (Entry K V)} {after : Entry K V} {ledger : Ledger K V} {bound : Bound}
    {stores : Prop} (vacant : s.Vacant) (transition : Transition s t handle before (some after) ledger)
    (unreported : ledger.removals = []) (reachable : s.policy.isLost reach after = false)
    (purge : Purge reach (fun entry cause => stores ∧ s.policy.Evicts bound reach entry cause) t s')
    (member : removal ∈ s'.removals) : removal.cause = .size := by
  rcases purge.mem_removals transition.consistent member with
    earlier | ⟨other, record, value, found, visible, _, _, _, cause_eq⟩
  · rw [transition.removals, unreported] at earlier
    cases earlier
  · cases vacant.of_differ transition.differ found visible
    rw [cause_eq, Policy.trueCause, reachable, if_neg Bool.false_ne_true]

section Runs

variable [DecidableEq K] {op : Operation K V} {accepted : List (K × Shared V)} {ended : LoadId → Prop} {id : LoadId}

omit [DecidableEq K] in
theorem Flights.not_displaced (flights : Flights ended held t) (later : Load.Later s.loads t.loads)
    (found : t.bare? handle = some record) (carried : record.load? = some id) :
    (s.loads[id]?).bind (·.displaced) = none := by
  obtain ⟨_, load, issued, _, undisplaced, _⟩ := flights.carried handle record id found carried
  cases displaced : (s.loads[id]?).bind (·.displaced) with
  | none => rfl
  | some cause =>
      obtain ⟨earlier, issued', known⟩ := Option.bind_eq_some_iff.mp displaced
      obtain ⟨load', issued'', _, same⟩ := later.kept id earlier issued'
      cases issued.symm.trans issued''
      cases undisplaced.symm.trans (same cause known)

omit [DecidableEq K] in
theorem Vacant.displaced_of_gone (vacant : s.Vacant) (flights : Flights ended held s) (consistent : s.Consistent)
    (purge : Purge reach allowed s t) (counted : ∀ entry cause, allowed entry cause → entry.visible? ≠ none)
    (gone : ∀ handle record, t.bare? handle = some record → record.load? ≠ some id) {load : Load K V}
    (issued : s.loads[id]? = some load) (running : ¬ ended id) : ∃ cause, load.displaced = some cause := by
  rcases flights.displaced id load issued running with ⟨handle, record, found, carried⟩ | displaced
  · obtain ⟨losses, thinned⟩ := purge.thinned consistent
    have left := thinned.bare?_of_spared found fun cause may => counted record cause may (vacant.reserved found)
    exact absurd carried (gone handle record left)
  · exact displaced

theorem Runs.causes (runs : Runs hash reach now op accepted s s') (consistent : s.Consistent)
    (keyed : s.Keyed hash reach) (flights : Flights ended held s) (honoured : s.policy.Honours reach held)
    (fits : op.Fits ended held s) (vacant : s.Vacant) (unreported : s.removals = [])
    (reached : op.Reached s.policy reach) (member : removal ∈ s'.removals) :
    removal.cause = (op.displaced? s).getD .size := by
  have nothing := accounts_eq_zero.mpr ⟨vacant, unreported⟩
  have balance := runs.accounts consistent
  rw [nothing, zero_add] at balance
  obtain ⟨before, after, first, act, last⟩ := runs.parts
  have consistent' := first.consistent consistent
  have policy := first.policy consistent
  have flights' := first.flights consistent flights
  have later := first.later consistent
  -- The sweep that comes first finds nothing, so that the segment is vacant when the value is stored.
  obtain ⟨vacant', unreported'⟩ := accounts_eq_zero.mp ((first.accounts consistent).trans nothing)
  rw [← policy] at reached last
  have honoured' : before.policy.Honours reach held := policy ▸ honoured
  have silent (idle : accepted = []) : removal.cause = (op.displaced? s).getD .size := by
    rw [idle] at balance
    rw [(accounts_eq_zero.mp balance).2] at member
    cases member
  cases act with
  | idle | used | granted | renewing | reverted | abandoned | dropped | forgot => exact silent rfl
  | overwritten _ found counted =>
      cases (vacant'.reserved (bare?_of_found (find?_eq_some found).1)).symm.trans counted
  | added _ _ transition =>
      obtain ⟨key_reached, value_reached⟩ := reached
      exact vacant'.evicts transition unreported' (Policy.not_isLost rfl key_reached value_reached) last member
  | @filled _ _ _ _ entry _ value weight _ writes found _ transition =>
      obtain ⟨live, key_reached, _⟩ := find?_eq_some found
      have kept (value_reached : before.policy.valueStrength.reaches reach value = true) :
          before.policy.isLost reach (entry.store value weight now).bare = false :=
        Policy.not_isLost rfl key_reached value_reached
      cases writes with
      | insert => exact vacant'.evicts transition unreported' (kept reached.2) last member
      | finishLoad own =>
          rw [Operation.displaced?, Operation.ends?, Option.bind_some,
            flights'.not_displaced later (bare?_of_found live) own]
          exact vacant'.evicts transition unreported' (kept reached.2) last member
  | @reported _ _ key id value reclaimed gone rebooked =>
      obtain ⟨running, load, issued, rfl⟩ := fits.finishes key id _ rfl
      obtain ⟨load', issued', own, learnt⟩ := later.kept id load issued
      have lost := flights'.gone honoured' consistent' (first.keyed consistent keyed) reclaimed issued' (own ▸ gone)
      obtain ⟨cause, known⟩ := vacant.displaced_of_gone flights consistent first
        (fun _ _ => Policy.visible_of_removes) lost issued running
      rcases last.mem_removals rebooked.consistent member with earlier | ⟨other, record, value, found, visible, _⟩
      · rw [rebooked.removals, unreported', List.nil_append, List.mem_singleton] at earlier
        rw [earlier, issued', Option.bind_some, learnt cause known]
        simp [Operation.displaced?, Operation.ends?, issued, known]
      · rw [rebooked.bare?] at found
        cases (vacant'.reserved found).symm.trans visible

end Runs

end Segment
end SegmentedCache
