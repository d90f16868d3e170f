import SegmentedCache.Proofs.Segment.Invariant

namespace SegmentedCache

/-!
Loads in flight. A load that was issued and has not ended is on its way to the one entry of its key, or it lost that
entry and knows why. Callers hold on to the key of a load until they end it, and end it once.
-/

variable {K V : Type}

namespace Load

/-- Loads at a later time: none is forgotten, none changes its key, and the first cause stands. -/
structure Later (loads loads' : Array (Load K V)) : Prop where
  kept : ∀ (id : LoadId) (load : Load K V), loads[id]? = some load → ∃ load', loads'[id]? = some load' ∧
    load'.key = load.key ∧ ∀ cause, load.displaced = some cause → load'.displaced = some cause

theorem Later.refl (loads : Array (Load K V)) : Later loads loads :=
  ⟨fun _ load issued => ⟨load, issued, rfl, fun _ known => known⟩⟩

theorem Later.trans {loads loads' loads'' : Array (Load K V)} (first : Later loads loads')
    (second : Later loads' loads'') : Later loads loads'' := by
  constructor
  intro id load issued
  obtain ⟨load', issued', key', cause'⟩ := first.kept id load issued
  obtain ⟨load'', issued'', key'', cause''⟩ := second.kept id load' issued'
  exact ⟨load'', issued'', key''.trans key', fun cause known => cause'' cause (cause' cause known)⟩

theorem getElem?_displaceIn (loads : Array (Load K V)) (target : Option LoadId) (cause : Cause) (id : LoadId) :
    (displaceIn loads target cause)[id]? =
      if target = some id then (loads[id]?).map (displace cause) else loads[id]? := by
  cases target with
  | none => simp [displaceIn]
  | some target => simp [displaceIn, Array.getElem?_modify]

theorem Later.displaceIn (loads : Array (Load K V)) (target : Option LoadId) (cause : Cause) :
    Later loads (displaceIn loads target cause) := by
  constructor
  intro id load issued
  rw [getElem?_displaceIn, issued]
  split
  · exact ⟨_, rfl, rfl, fun first known => by simp [displace, known]⟩
  · exact ⟨load, rfl, rfl, fun _ known => known⟩

theorem Later.push (loads : Array (Load K V)) (load : Load K V) : Later loads (loads.push load) := by
  constructor
  intro id load' issued
  obtain ⟨bound, _⟩ := Array.getElem?_eq_some_iff.mp issued
  refine ⟨load', ?_, rfl, fun _ known => known⟩
  rw [Array.getElem?_push_lt bound, ← issued]
  simp

end Load

theorem Strength.reaches_mono {α : Type} {strength : Strength} {reach reach' : Reach}
    (wider : ∀ object, reach object = true → reach' object = true) {object : Shared α}
    (reached : strength.reaches reach object = true) : strength.reaches reach' object = true := by
  cases strength with
  | strong | soft => rfl
  | weak => exact wider _ reached

def Policy.Honours (policy : Policy K V) (reach held : Reach) : Prop :=
  ∀ key : Shared K, held key.id = true → policy.keyStrength.reaches reach key = true

theorem Policy.Honours.mono {policy : Policy K V} {reach reach' held : Reach} (honoured : policy.Honours reach held)
    (wider : ∀ object, reach object = true → reach' object = true) : policy.Honours reach' held :=
  fun key kept => Strength.reaches_mono wider (honoured key kept)

theorem Policy.honours_self (policy : Policy K V) (reach : Reach) : policy.Honours reach reach := by
  intro key reached
  cases policy.keyStrength with
  | strong | soft => rfl
  | weak => exact reached

namespace Operation

def starts? : Operation K V → Option (Shared K)
  | claim _ key | claimRefresh _ key _ => some key
  | _ => none

/-- What callers keep to: who starts a load holds its key, and who ends one does it for the first time and with the key
that the load was started for. -/
structure Fits (ended : LoadId → Prop) (reach : Reach) (s : Segment K V) (op : Operation K V) : Prop where
  starts : ∀ key, op.starts? = some key → reach key.id = true
  finishes : ∀ key id loaded, op = finishLoad key id loaded →
    ¬ ended id ∧ ∃ load, s.loads[id]? = some load ∧ load.key = key

def endedAfter (ended : LoadId → Prop) (op : Operation K V) (id : LoadId) : Prop :=
  ended id ∨ op.ends? = some id

theorem Fits.later {ended : LoadId → Prop} {reach : Reach} {s s' : Segment K V} {op : Operation K V}
    (fits : op.Fits ended reach s) (later : Load.Later s.loads s'.loads) : op.Fits ended reach s' where
  starts := fits.starts
  finishes key id loaded same := by
    obtain ⟨running, load, issued, own⟩ := fits.finishes key id loaded same
    obtain ⟨load', issued', key_eq, _⟩ := later.kept id load issued
    exact ⟨running, load', issued', key_eq.trans own⟩

end Operation

namespace Segment

variable {s s' : Segment K V} {handle : Handle} {hash : K → UInt64} {reach held : Reach} {now : Nat}
  {ended ended' : LoadId → Prop}

/-- How loads and entries belong together. `ended` are the loads that have ended. -/
structure Flights (ended : LoadId → Prop) (reach : Reach) (s : Segment K V) : Prop where
  carried : ∀ handle record id, s.bare? handle = some record → record.load? = some id →
    ¬ ended id ∧ ∃ load, s.loads[id]? = some load ∧ load.key.data = record.key.data ∧ load.displaced = none ∧
      (record.visible? = none → load.key = record.key)
  displaced : ∀ id load, s.loads[id]? = some load → ¬ ended id →
    (∃ handle record, s.bare? handle = some record ∧ record.load? = some id) ∨
    ∃ cause, load.displaced = some cause
  attended : ∀ id load, s.loads[id]? = some load → ¬ ended id → reach load.key.id = true
  known : ∀ id, ended id → id < s.loads.size
  /-- As keys of loads are held, no key is lost before its entry is removed. -/
  unique : ∀ first second record record', s.bare? first = some record → s.bare? second = some record' →
    record.key.data = record'.key.data → first = second

namespace Flights

theorem single (flights : Flights ended reach s) {first second : Handle} {record record' : Entry K V} {id : LoadId}
    (found : s.bare? first = some record) (found' : s.bare? second = some record') (held : record.load? = some id)
    (held' : record'.load? = some id) : first = second := by
  obtain ⟨_, load, issued, key_eq, _⟩ := flights.carried first record id found held
  obtain ⟨_, load', issued', key_eq', _⟩ := flights.carried second record' id found' held'
  cases issued.symm.trans issued'
  exact flights.unique first second record record' found found' (key_eq.symm.trans key_eq')

theorem change {before after : Option (Entry K V)} (flights : Flights ended reach s)
    (differ : Differ s s' handle before after)
    (elsewhere : ∀ id, before.bind Entry.load? ≠ some id → after.bind Entry.load? ≠ some id →
      s'.loads[id]? = s.loads[id]? ∧ (ended' id ↔ ended id))
    (new : ∀ id, after.bind Entry.load? = some id → before.bind Entry.load? = some id ∨ s.loads[id]? = none)
    (arrives : ∀ record id, after = some record → record.load? = some id →
      ¬ ended' id ∧ ∃ load, s'.loads[id]? = some load ∧ load.key.data = record.key.data ∧
        load.displaced = none ∧
        (record.visible? = none → load.key = record.key) ∧ reach load.key.id = true)
    (leaves : ∀ id load, before.bind Entry.load? = some id → after.bind Entry.load? ≠ some id →
      s'.loads[id]? = some load → ¬ ended' id → (∃ cause, load.displaced = some cause) ∧
        reach load.key.id = true)
    (fresh : ∀ record, after = some record → (∃ old, before = some old ∧ old.key.data = record.key.data) ∨
      ∀ other old, s.bare? other = some old → old.key.data ≠ record.key.data)
    (known : ∀ id, ended' id → id < s'.loads.size) : Flights ended' reach s' := by
  -- a record at another handle is none of the loads that come or go
  have apart {other : Handle} {record : Entry K V} {id : LoadId} (different : other ≠ handle)
      (found : s.bare? other = some record) (held : record.load? = some id) :
      before.bind Entry.load? ≠ some id ∧ after.bind Entry.load? ≠ some id := by
    have not_before : before.bind Entry.load? ≠ some id := by
      intro leaving
      obtain ⟨old, rfl, held'⟩ := Option.bind_eq_some_iff.mp leaving
      exact different (flights.single found differ.before held held')
    refine ⟨not_before, fun arriving => ?_⟩
    obtain ⟨_, load, issued, _⟩ := flights.carried other record id found held
    rcases new id arriving with leaving | unissued
    · exact not_before leaving
    · cases issued.symm.trans unissued
  refine ⟨?_, ?_, ?_, known, ?_⟩
  · intro other record id found held
    rw [differ.bare?] at found
    split at found
    · obtain ⟨running, load, issued, key_eq, undisplaced, own, _⟩ := arrives record id found held
      exact ⟨running, load, issued, key_eq, undisplaced, own⟩
    · rename_i different
      obtain ⟨not_before, not_after⟩ := apart different found held
      rw [(elsewhere id not_before not_after).1, (elsewhere id not_before not_after).2]
      exact flights.carried other record id found held
  · intro id load issued running
    by_cases arriving : after.bind Entry.load? = some id
    · obtain ⟨record, rfl, held⟩ := Option.bind_eq_some_iff.mp arriving
      exact .inl ⟨handle, record, differ.after, held⟩
    by_cases leaving : before.bind Entry.load? = some id
    · exact .inr (leaves id load leaving arriving issued running).1
    obtain ⟨same, same_end⟩ := elsewhere id leaving arriving
    rw [same] at issued
    rw [same_end] at running
    rcases flights.displaced id load issued running with ⟨other, record, found, held⟩ | cause
    · left
      refine ⟨other, record, ?_, held⟩
      have different : other ≠ handle := by
        rintro rfl
        exact leaving (by rw [← differ.before, found, Option.bind_some, held])
      rw [differ.others other different, found]
    · exact .inr cause
  · intro id load issued running
    by_cases arriving : after.bind Entry.load? = some id
    · obtain ⟨record, rfl, held⟩ := Option.bind_eq_some_iff.mp arriving
      obtain ⟨_, load', issued', _, _, _, reached⟩ := arrives record id rfl held
      cases issued.symm.trans issued'
      exact reached
    by_cases leaving : before.bind Entry.load? = some id
    · exact (leaves id load leaving arriving issued running).2
    obtain ⟨same, same_end⟩ := elsewhere id leaving arriving
    exact flights.attended id load (same ▸ issued) (same_end.not.mp running)
  · have alone {other : Handle} {record old : Entry K V} (different : other ≠ handle)
      (after_eq : after = some record)
        (found : s.bare? other = some old) : record.key.data ≠ old.key.data := by
      intro same
      rcases fresh record after_eq with ⟨own, rfl, own_key⟩ | strange
      · exact different (flights.unique other handle old own found differ.before (same.symm.trans own_key.symm))
      · exact strange other old found same.symm
    intro first second record record' found found' same
    rw [differ.bare?] at found found'
    split at found
    · rename_i here
      split at found'
      · rename_i here'
        exact here.trans here'.symm
      · rename_i there
        exact absurd same (alone there found found')
    · rename_i there
      split at found'
      · exact absurd same.symm (alone there found' found)
      · exact flights.unique first second record record' found found' same

theorem rebooked {ledger : Ledger K V} (flights : Flights ended reach s) (rebooked : Rebooked s s' ledger)
    (loads : ledger.loads = s.loads) : Flights ended reach s' := by
  have loads_eq : s'.loads = s.loads := rebooked.loads.trans loads
  constructor
  · intro handle record id found
    rw [loads_eq]
    exact flights.carried handle record id ((rebooked.bare? handle).symm.trans found)
  · intro id load issued running
    simp only [rebooked.bare?]
    exact flights.displaced id load (loads_eq ▸ issued) running
  · intro id load issued
    exact flights.attended id load (loads_eq ▸ issued)
  · intro id ceased
    rw [loads_eq]
    exact flights.known id ceased
  · intro first second record record' found found'
    exact flights.unique first second record record' ((rebooked.bare? first).symm.trans found)
      ((rebooked.bare? second).symm.trans found')

theorem leave {before : Entry K V} {after : Option (Entry K V)} {cause : Cause} (flights : Flights ended reach s)
    (differ : Differ s s' handle (some before) after)
    (keeps : ∀ record, after = some record → record.load? = none ∧ record.key = before.key)
    (loads : s'.loads = Load.displaceIn s.loads before.load? cause) : Flights ended reach s' := by
  have nothing (id : LoadId) : after.bind Entry.load? ≠ some id := by
    intro arriving
    obtain ⟨record, after_eq, held⟩ := Option.bind_eq_some_iff.mp arriving
    cases (keeps record after_eq).1.symm.trans held
  apply flights.change differ
  · intro id not_before _
    rw [Option.bind_some] at not_before
    rw [loads, Load.getElem?_displaceIn, if_neg not_before]
    exact ⟨rfl, .rfl⟩
  · exact fun id arriving => absurd arriving (nothing id)
  · intro record id after_eq held
    cases (keeps record after_eq).1.symm.trans held
  · intro id load leaving _ issued running
    rw [Option.bind_some] at leaving
    rw [loads, Load.getElem?_displaceIn, if_pos leaving] at issued
    obtain ⟨old, old_issued, rfl⟩ := Option.map_eq_some_iff.mp issued
    obtain ⟨_, load', issued', _, undisplaced, _⟩ := flights.carried handle before id differ.before leaving
    cases old_issued.symm.trans issued'
    exact ⟨⟨cause, by simp [Load.displace, undisplaced]⟩, flights.attended id old old_issued running⟩
  · exact fun record after_eq => .inl ⟨before, rfl, by rw [(keeps record after_eq).2]⟩
  · intro id ceased
    have bound := flights.known id ceased
    rw [loads]
    unfold Load.displaceIn
    split <;> simpa using bound

theorem stay {before : Option (Entry K V)} {after : Entry K V} (flights : Flights ended reach s)
    (differ : Differ s s' handle before (some after)) (loads : s'.loads = s.loads)
    (same : before.bind Entry.load? = after.load?)
    (keeps : ∀ old, before = some old → after.key = old.key ∧ after.visible? = old.visible?)
    (fresh : before = none → ∀ other old, s.bare? other = some old → old.key.data ≠ after.key.data) :
    Flights ended reach s' := by
  apply flights.change differ
  · intro id _ _
    rw [loads]
    exact ⟨rfl, .rfl⟩
  · intro id arriving
    rw [Option.bind_some, ← same] at arriving
    exact .inl arriving
  · intro record id after_eq held
    cases after_eq
    obtain ⟨old, rfl, held'⟩ := Option.bind_eq_some_iff.mp (same.trans held)
    obtain ⟨running, load, issued, key_eq, undisplaced, own⟩ := flights.carried handle old id differ.before held'
    obtain ⟨key_same, visible_same⟩ := keeps old rfl
    rw [key_same, visible_same, loads]
    exact ⟨running, load, issued, key_eq, undisplaced, own, flights.attended id load issued running⟩
  · intro id load leaving staying
    rw [Option.bind_some, ← same] at staying
    exact absurd leaving staying
  · intro record after_eq
    cases after_eq
    cases before with
    | none => exact .inr (fresh rfl)
    | some old => exact .inl ⟨old, rfl, by rw [(keeps old rfl).1]⟩
  · intro id ceased
    rw [loads]
    exact flights.known id ceased

theorem start {before : Option (Entry K V)} {after : Entry K V} {key : Shared K} {owner : Option ThreadId}
    (flights : Flights ended reach s) (differ : Differ s s' handle before (some after))
    (loads : s'.loads = s.loads.push { key, owner }) (held : after.load? = some s.loads.size)
    (idle : before.bind Entry.load? = none) (reached : reach key.id = true) (key_eq : key.data = after.key.data)
    (own : after.visible? = none → key = after.key)
    (fits : (∃ old, before = some old ∧ old.key.data = after.key.data) ∨
      ∀ other old, s.bare? other = some old → old.key.data ≠ after.key.data) : Flights ended reach s' := by
  have issued : s'.loads[s.loads.size]? = some { key, owner } := by simp [loads]
  have running : ¬ ended s.loads.size := fun ceased => Nat.lt_irrefl _ (flights.known _ ceased)
  apply flights.change differ
  · intro id _ not_after
    rw [Option.bind_some, held, ne_eq, Option.some_inj] at not_after
    rw [loads, Array.getElem?_push, if_neg (Ne.symm not_after)]
    exact ⟨rfl, .rfl⟩
  · intro id arriving
    rw [Option.bind_some, held, Option.some_inj] at arriving
    subst arriving
    exact .inr (by simp)
  · intro record id after_eq held'
    cases after_eq
    cases held.symm.trans held'
    exact ⟨running, _, issued, key_eq, rfl, own, reached⟩
  · intro id load leaving
    cases idle.symm.trans leaving
  · intro record after_eq
    cases after_eq
    exact fits
  · intro id ceased
    have bound := flights.known id ceased
    rw [loads, Array.size_push]
    exact Nat.lt_succ_of_lt bound

theorem finish {before : Entry K V} {after : Option (Entry K V)} {id : LoadId} (flights : Flights ended reach s)
    (differ : Differ s s' handle (some before) after) (own : before.load? = some id)
    (keeps : ∀ record, after = some record → record.load? = none ∧ record.key = before.key)
    (loads : ∀ other ≠ id, s'.loads[other]? = s.loads[other]?) (size : s'.loads.size = s.loads.size) :
    Flights (fun other => ended other ∨ some id = some other) reach s' := by
  have nothing (other : LoadId) : after.bind Entry.load? ≠ some other := by
    intro arriving
    obtain ⟨record, after_eq, held⟩ := Option.bind_eq_some_iff.mp arriving
    cases (keeps record after_eq).1.symm.trans held
  apply flights.change differ
  · intro other not_before _
    rw [Option.bind_some, own, ne_eq, Option.some_inj] at not_before
    refine ⟨loads other (Ne.symm not_before), ?_⟩
    simp [not_before]
  · exact fun other arriving => absurd arriving (nothing other)
  · intro record other after_eq held
    cases (keeps record after_eq).1.symm.trans held
  · intro other load leaving _ _ running
    rw [Option.bind_some, own] at leaving
    exact absurd (.inr leaving) running
  · exact fun record after_eq => .inl ⟨before, rfl, by rw [(keeps record after_eq).2]⟩
  · intro other ceased
    rw [size]
    rcases ceased with ceased | same
    · exact flights.known other ceased
    · cases same
      obtain ⟨_, load, issued, _⟩ := flights.carried handle before id differ.before own
      exact (Array.getElem?_eq_some_iff.mp issued).1

theorem late {id : LoadId} {load : Load K V} (flights : Flights ended reach s) (issued : s.loads[id]? = some load)
    (gone : ∀ handle record, s.bare? handle = some record → record.load? ≠ some id) :
    Flights (fun other => ended other ∨ some id = some other) reach s where
  carried handle record other found held := by
    obtain ⟨running, rest⟩ := flights.carried handle record other found held
    refine ⟨?_, rest⟩
    rintro (ceased | same)
    · exact running ceased
    · cases same
      exact gone handle record found held
  displaced other load issued running := flights.displaced other load issued fun ceased => running (.inl ceased)
  attended other load issued running := flights.attended other load issued fun ceased => running (.inl ceased)
  known other ceased := by
    rcases ceased with ceased | same
    · exact flights.known other ceased
    · cases same
      exact (Array.getElem?_eq_some_iff.mp issued).1
  unique := flights.unique

end Flights

theorem Purge.flights {allowed : Entry K V → Cause → Prop} (purge : Purge reach allowed s s')
    (consistent : s.Consistent) (flights : Flights ended held s) : Flights ended held s' := by
  induction purge with
  | done s => exact flights
  | replay _ ih =>
      have replayed := consistent.replayReads
      exact ih replayed.consistent (flights.rebooked replayed rfl)
  | @discard _ _ _ _ cause found _ _ ih =>
      have discarded := consistent.discard found reach cause
      exact ih discarded.consistent (flights.leave discarded.differ nofun discarded.loads)

theorem Purge.later {allowed : Entry K V → Cause → Prop} (purge : Purge reach allowed s s')
    (consistent : s.Consistent) : Load.Later s.loads s'.loads := by
  induction purge with
  | done s => exact .refl _
  | @replay s s' _ ih =>
      have replayed := consistent.replayReads
      have same : s.replayReads.loads = s.loads := replayed.loads
      exact same ▸ ih replayed.consistent
  | @discard s s' handle entry cause found _ _ ih =>
      have discarded := consistent.discard found reach cause
      have learnt : Load.Later s.loads (s.discard reach handle cause).loads := by
        rw [discarded.loads]
        exact .displaceIn ..
      exact learnt.trans (ih discarded.consistent)

theorem Flights.reached (flights : Flights ended held s) (honoured : s.policy.Honours reach held)
    (reclaimed : s.Reclaimed reach) {record : Entry K V} (found : s.bare? handle = some record) :
    s.policy.keyStrength.reaches reach record.key = true := by
  cases counted : record.visible? with
  | none =>
      obtain ⟨id, content⟩ := Entry.visible?_eq_none.mp counted
      have carried : record.load? = some id := by rw [Entry.load?, content]
      obtain ⟨running, load, issued, _, _, own⟩ := flights.carried handle record id found carried
      rw [← own counted]
      exact honoured load.key (flights.attended id load issued running)
  | some value =>
      have kept := reclaimed handle record found
      simp only [Policy.isLost, counted, Bool.or_eq_false_iff, Bool.not_eq_false'] at kept
      exact kept.1

theorem Flights.none_of_absent (flights : Flights ended held s) (honoured : s.policy.Honours reach held)
    (reclaimed : s.Reclaimed reach) {key : K} (absent : s.Absent reach key) (other : Handle) (old : Entry K V)
    (found : s.bare? other = some old) : old.key.data ≠ key :=
  fun same => absent other ⟨old, found, flights.reached honoured reclaimed found, same⟩

theorem Flights.of_not_ending {op : Operation K V} (flights : Flights ended held s) (running : op.ends? = none) :
    Flights (op.endedAfter ended) held s := by
  have same : op.endedAfter ended = ended := by
    funext id
    simp [Operation.endedAfter, running]
  rwa [same]

section Runs

variable [DecidableEq K] {op : Operation K V} {accepted : List (K × Shared V)} {before : Prop}

theorem Flights.find?_eq (flights : Flights ended held s) (honoured : s.policy.Honours reach held)
    (consistent : s.Consistent) (keyed : s.Keyed hash reach) (reclaimed : s.Reclaimed reach) {entry : Entry K V}
    (found : s.entry? handle = some entry) :
    s.find? reach (hash entry.key.data) entry.key.data = some (handle, entry) :=
  have reached := flights.reached honoured reclaimed (bare?_of_found found)
  keyed.find?_eq consistent.toLinked found reached rfl

theorem Flights.gone (flights : Flights ended held s) (honoured : s.policy.Honours reach held)
    (consistent : s.Consistent) (keyed : s.Keyed hash reach) (reclaimed : s.Reclaimed reach) {id : LoadId}
    {load : Load K V} (issued : s.loads[id]? = some load)
    (missing : ∀ handle entry, s.find? reach (hash load.key.data) load.key.data = some (handle, entry) →
      entry.load? ≠ some id) (handle : Handle) (record : Entry K V) (found : s.bare? handle = some record) :
    record.load? ≠ some id := by
  intro carried
  obtain ⟨entry, live, rfl⟩ := bare?_eq_some.mp found
  obtain ⟨_, load', issued', key_eq, _⟩ := flights.carried handle entry.bare id found carried
  cases issued.symm.trans issued'
  have located := flights.find?_eq honoured consistent keyed reclaimed live
  rw [Entry.key_bare] at key_eq
  rw [← key_eq] at located
  exact missing handle entry located carried

theorem Act.flights (act : Act hash reach now before op accepted s s') (holds : before)
    (honoured : s.policy.Honours reach held) (consistent : s.Consistent) (keyed : s.Keyed hash reach)
    (flights : Flights ended held s) (fits : op.Fits ended held s) : Flights (op.endedAfter ended) held s' := by
  cases act with
  | idle running => exact flights.of_not_ending running
  | @used _ _ _ _ entry _ _ running _ transition =>
      have kept : (s.policy.used now entry).bare.load? = entry.load? ∧ (s.policy.used now entry).key = entry.key ∧
          (s.policy.used now entry).visible? = entry.visible? := by
        unfold Policy.used
        split <;> exact ⟨rfl, rfl, rfl⟩
      refine (flights.stay transition.differ transition.loads kept.1.symm ?_ (by rintro ⟨⟩)).of_not_ending running
      rintro _ ⟨⟩
      exact kept.2
  | @granted _ _ _ _ key reclaimed absent transition =>
      refine (flights.start transition.differ transition.loads rfl rfl (fits.starts key rfl) rfl (fun _ => rfl)
        (.inr ?_)).of_not_ending rfl
      exact flights.none_of_absent honoured reclaimed (absent holds)
  | @renewing _ _ _ entry _ key _ value found ready transition =>
      have same := (find?_eq_some found).2.2
      refine (flights.start transition.differ transition.loads rfl ?_ (fits.starts key rfl) same.symm
        (by rintro ⟨⟩) (.inl ⟨_, rfl, rfl⟩)).of_not_ending rfl
      simp [Entry.load?, ready]
  | added reclaimed absent transition =>
      refine (flights.stay transition.differ transition.loads rfl (by rintro _ ⟨⟩) fun _ => ?_).of_not_ending rfl
      exact flights.none_of_absent honoured reclaimed (absent holds)
  | filled writes _ _ transition | overwritten writes _ _ transition =>
      cases writes with
      | insert =>
          refine (flights.leave transition.differ ?_ transition.loads).of_not_ending rfl
          rintro _ ⟨⟩
          exact ⟨rfl, rfl⟩
      | finishLoad own =>
          refine flights.finish transition.differ own ?_ (fun other _ => congrArg (·[other]?) transition.loads)
            (congrArg Array.size transition.loads)
          rintro _ ⟨⟩
          exact ⟨rfl, rfl⟩
  | reverted _ own _ transition =>
      refine flights.finish transition.differ own ?_ (fun _ _ => by rw [transition.loads]; rfl) ?_
      · rintro _ ⟨⟩
        exact ⟨rfl, rfl⟩
      · rw [transition.loads]
        rfl
  | abandoned _ own _ transition =>
      refine flights.finish transition.differ own (by rintro _ ⟨⟩) (fun other different => ?_) ?_
      · rw [transition.loads, Load.getElem?_displaceIn, if_neg]
        exact fun same => different (Option.some.inj same).symm
      · rw [transition.loads]
        exact Array.size_modify
  | @reported _ _ key id value reclaimed gone rebooked =>
      obtain ⟨running, load, issued, rfl⟩ := fits.finishes key id _ rfl
      exact (flights.late issued (flights.gone honoured consistent keyed reclaimed issued gone)).rebooked rebooked rfl
  | @dropped _ key id reclaimed gone =>
      obtain ⟨running, load, issued, rfl⟩ := fits.finishes key id _ rfl
      exact flights.late issued (flights.gone honoured consistent keyed reclaimed issued gone)
  | forgot rebooked => exact (flights.rebooked rebooked rfl).of_not_ending rfl

theorem Act.later (act : Act hash reach now before op accepted s s') : Load.Later s.loads s'.loads := by
  cases act with
  | idle | dropped => exact .refl _
  | used _ _ transition => exact transition.loads ▸ .refl _
  | granted _ _ transition | renewing _ _ transition => exact transition.loads ▸ .push ..
  | added _ _ transition | reverted _ _ _ transition => exact transition.loads ▸ .refl _
  | filled writes _ _ transition | overwritten writes _ _ transition =>
      cases writes with
      | insert => exact transition.loads ▸ .displaceIn ..
      | finishLoad => exact transition.loads ▸ .refl _
  | @abandoned _ _ _ _ _ load _ _ _ transition =>
      exact transition.loads ▸ Load.Later.displaceIn s.loads (some load) .explicit
  | reported _ _ rebooked | forgot rebooked => exact rebooked.loads ▸ .refl _

end Runs

end Segment
end SegmentedCache
