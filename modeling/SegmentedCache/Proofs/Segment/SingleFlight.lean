import SegmentedCache.Proofs.Segment.Flights

namespace SegmentedCache

/-!
Single flight. Whatever the order of operations, there is at most one load in flight for a key that was not
displaced, and the cause for which a load was displaced is that of the operation that took its entry.
-/

variable {K V : Type}

namespace Operation

inductive Displaces (policy : Policy K V) (bound : Bound) (reach : Reach) (now : Nat) :
    Operation K V → Entry K V → Cause → Prop where
  | removed {op : Operation K V} {entry : Entry K V} {cause : Cause}
      (removes : op.Removes policy bound reach now entry cause) : Displaces policy bound reach now op entry cause
  | overwritten {entry : Entry K V} {key : Shared K} (value : Shared V) (onlyIfNew : Bool)
      (same : key.data = entry.key.data) :
      Displaces policy bound reach now (insert key value onlyIfNew) entry .replaced

theorem removes_of_evicts {policy : Policy K V} {bound : Bound} {reach : Reach} {now : Nat} {op : Operation K V}
    {entry : Entry K V} {cause : Cause} (stores : op.stores = true) (evicts : policy.Evicts bound reach entry cause) :
    op.Removes policy bound reach now entry cause := by
  cases op with
  | finishLoad => exact .inr evicts
  | insert => exact .inr (.inl evicts)
  | _ => cases stores

end Operation

theorem Policy.Evicts.congr {policy : Policy K V} {bound : Bound} {reach : Reach} {entry entry' : Entry K V}
    {cause : Cause} (evicts : policy.Evicts bound reach entry' cause) (key : entry'.key = entry.key)
    (content : entry'.content = entry.content) : policy.Evicts bound reach entry cause := by
  have visible : entry'.visible? = entry.visible? := by rw [Entry.visible?, content, Entry.visible?]
  have reserved : entry'.isReserved = entry.isReserved := by rw [Entry.isReserved, content, Entry.isReserved]
  obtain ⟨bounded, counted, cause_eq⟩ := evicts
  refine ⟨bounded, reserved ▸ counted, cause_eq.trans ?_⟩
  rw [trueCause, trueCause, isLost, isLost, visible, key]

namespace Segment

variable {s s' : Segment K V} {handle : Handle} {hash : K → UInt64} {reach : Reach} {now : Nat}
  {ended : LoadId → Prop} {record : Entry K V} {id : LoadId}

def Learnt (s : Segment K V) (id : LoadId) (cause : Cause) : Prop :=
  ∃ load, s.loads[id]? = some load ∧ load.displaced = some cause

theorem Learnt.later {cause : Cause} (learnt : s.Learnt id cause) (later : Load.Later s.loads s'.loads) :
    s'.Learnt id cause := by
  obtain ⟨load, issued, known⟩ := learnt
  obtain ⟨load', issued', _, same⟩ := later.kept id load issued
  exact ⟨load', issued', same cause known⟩

theorem Flights.learnt_of_displaceIn (flights : Flights ended reach s) (found : s.bare? handle = some record)
    (held : record.load? = some id) {cause : Cause} (loads : s'.loads = Load.displaceIn s.loads (some id) cause) :
    s'.Learnt id cause := by
  obtain ⟨_, load, issued, _, undisplaced, _⟩ := flights.carried handle record id found held
  refine ⟨load.displace cause, ?_, by simp [Load.displace, undisplaced]⟩
  rw [loads, Load.getElem?_displaceIn, if_pos rfl, issued, Option.map_some]

theorem Purge.fate {allowed : Entry K V → Cause → Prop} (purge : Purge reach allowed s s')
    (consistent : s.Consistent) (flights : Flights ended reach s) (found : s.bare? handle = some record)
    (held : record.load? = some id) :
    s'.bare? handle = some record ∨ ∃ cause, s'.Learnt id cause ∧ allowed record cause := by
  induction purge with
  | done s => exact .inl found
  | replay _ ih =>
      have replayed := consistent.replayReads
      exact ih replayed.consistent (flights.rebooked replayed rfl) ((replayed.bare? handle).trans found)
  | @discard s s' gone entry cause live permitted rest ih =>
      have discarded := consistent.discard live reach cause
      by_cases same : handle = gone
      · subst same
        cases found.symm.trans (bare?_of_found live)
        have loads : (s.discard reach handle cause).loads = Load.displaceIn s.loads (some id) cause := by
          rw [← held]
          exact discarded.loads
        have learnt := flights.learnt_of_displaceIn found held loads
        exact .inr ⟨cause, learnt.later (rest.later discarded.consistent), permitted⟩
      · exact ih discarded.consistent (flights.leave discarded.differ nofun discarded.loads)
          ((discarded.differ.others handle same).trans found)

section Runs

variable [DecidableEq K] {op : Operation K V} {accepted : List (K × Shared V)} {before : Prop}

theorem Act.fate (act : Act hash reach now before op accepted s s') (flights : Flights ended reach s)
    (found : s.bare? handle = some record) (held : record.load? = some id) (running : op.ends? ≠ some id) :
    (∃ time, s'.bare? handle = some (record.touch time)) ∨
      s'.Learnt id .replaced ∧
        ∃ key value onlyIfNew, op = .insert key value onlyIfNew ∧ key.data = record.key.data := by
  have kept {changed : Handle} {old : Option (Entry K V)} {after : Option (Entry K V)}
      (differ : Differ s s' changed old after) (different : handle ≠ changed) :
      ∃ time, s'.bare? handle = some (record.touch time) :=
    ⟨record.accessed, (differ.others handle different).trans found⟩
  have elsewhere {changed : Handle} {old : Option (Entry K V)} {after : Option (Entry K V)}
      (differ : Differ s s' changed old after) (idle : old.bind Entry.load? ≠ some id) : handle ≠ changed := by
    rintro rfl
    rw [← differ.before, found, Option.bind_some] at idle
    exact idle held
  cases act with
  | idle | dropped => exact .inl ⟨record.accessed, found⟩
  | @used _ _ _ changed entry _ _ _ _ transition =>
      left
      by_cases same : handle = changed
      · subst same
        cases found.symm.trans transition.differ.before
        rw [transition.differ.after, Policy.used]
        split
        · exact ⟨now, rfl⟩
        · exact ⟨entry.accessed, rfl⟩
      · exact kept transition.differ same
  | granted _ _ transition | added _ _ transition =>
      exact .inl (kept transition.differ (elsewhere transition.differ nofun))
  | @renewing _ _ _ entry _ _ _ _ _ ready transition =>
      have idle : entry.load? = none := by rw [Entry.load?, ready]
      refine .inl (kept transition.differ (elsewhere transition.differ ?_))
      simp [idle]
  | @filled _ _ _ changed entry _ _ _ _ writes located _ transition
  | @overwritten _ _ _ changed entry _ _ _ _ _ writes located _ transition =>
      by_cases same : handle = changed
      · subst same
        cases found.symm.trans transition.differ.before
        cases writes with
        | insert _ _ onlyIfNew =>
            refine .inr ⟨flights.learnt_of_displaceIn found held ?_, _, _, onlyIfNew, rfl,
              (find?_eq_some located).2.2.symm⟩
            rw [transition.loads, ← held]
            rfl
        | finishLoad own => exact absurd (own.symm.trans held) running
      · exact .inl (kept transition.differ same)
  | reverted _ own _ transition | abandoned _ own _ transition =>
      have not_own : (some _ : Option LoadId) ≠ some id := running
      refine .inl (kept transition.differ (elsewhere transition.differ ?_))
      rw [Option.bind_some, Entry.load?_bare, own]
      exact not_own
  | reported _ _ rebooked | forgot rebooked =>
      exact .inl ⟨record.accessed, (rebooked.bare? handle).trans found⟩

theorem Runs.flights (runs : Runs hash reach now op accepted s s') {held : Reach}
    (honoured : s.policy.Honours reach held) (consistent : s.Consistent) (keyed : s.Keyed hash reach)
    (flights : Flights ended held s) (fits : op.Fits ended held s) : Flights (op.endedAfter ended) held s' := by
  obtain ⟨before, after, first, act, last⟩ := runs.parts
  have consistent' := first.consistent consistent
  have acted := act.flights keyed (first.policy consistent ▸ honoured) consistent' (first.keyed consistent keyed)
    (first.flights consistent flights) (fits.later (first.later consistent))
  exact last.flights (act.consistent consistent') acted

theorem Runs.later (runs : Runs hash reach now op accepted s s') (consistent : s.Consistent) :
    Load.Later s.loads s'.loads := by
  obtain ⟨before, after, first, act, last⟩ := runs.parts
  have consistent' := first.consistent consistent
  exact ((first.later consistent).trans act.later).trans (last.later (act.consistent consistent'))

theorem Runs.touched (runs : Runs hash reach now op accepted s s') (consistent : s.Consistent)
    (keyed : s.Keyed hash reach) (flights : Flights ended reach s) (fits : op.Fits ended reach s)
    (found : s.bare? handle = some record) (held : record.load? = some id) (running : op.ends? ≠ some id) :
    (∃ time, s'.bare? handle = some (record.touch time)) ∨
      ∃ cause, s'.Learnt id cause ∧ op.Displaces s.policy s.bound reach now record cause := by
  obtain ⟨before, after, first, act, last⟩ := runs.parts
  have consistent' := first.consistent consistent
  have consistent'' := act.consistent consistent'
  have flights' := first.flights consistent flights
  have acted := act.flights keyed (before.policy.honours_self reach) consistent' (first.keyed consistent keyed) flights'
    (fits.later (first.later consistent))
  rcases first.fate consistent flights found held with found' | ⟨cause, learnt, removes⟩
  · rcases act.fate flights' found' held running with ⟨time, found''⟩ | ⟨learnt, stored⟩
    · rcases last.fate consistent'' acted found'' held with left | ⟨cause, learnt, stores, evicts⟩
      · exact .inl ⟨time, left⟩
      · exact .inr ⟨cause, learnt, .removed (Operation.removes_of_evicts stores (evicts.congr rfl rfl))⟩
    · obtain ⟨key, value, onlyIfNew, rfl, same⟩ := stored
      exact .inr ⟨.replaced, learnt.later (last.later consistent''), .overwritten value onlyIfNew same⟩
  · exact .inr ⟨cause, learnt.later (act.later.trans (last.later consistent'')), .removed removes⟩

theorem Runs.fate (runs : Runs hash reach now op accepted s s') (consistent : s.Consistent)
    (keyed : s.Keyed hash reach) (flights : Flights ended reach s) (fits : op.Fits ended reach s)
    (found : s.bare? handle = some record) (held : record.load? = some id) (running : op.ends? ≠ some id) :
    (∃ record', s'.bare? handle = some record' ∧ record'.load? = some id) ∨
      ∃ cause, s'.Learnt id cause ∧ op.Displaces s.policy s.bound reach now record cause :=
  (runs.touched consistent keyed flights fits found held running).imp_left fun ⟨_, left⟩ => ⟨_, left, held⟩

end Runs

theorem flights_create (policy : Policy K V) (bound : Bound) (length : Nat) (reach : Reach) :
    Flights (fun _ => False) reach (create policy bound length) where
  carried handle record id found := by cases (bare?_create policy bound length handle).symm.trans found
  displaced id load issued := by simp [create] at issued
  attended id load issued := by simp [create] at issued
  known id ceased := ceased.elim
  unique first _ record _ found := by cases (bare?_create policy bound length first).symm.trans found

/-- The states that operations lead to while callers keep to what they have to: they hold the keys of the loads that
they started until they end them. `ended` are the loads that have ended. -/
inductive Attended [DecidableEq K] (hash : K → UInt64) (policy : Policy K V) (bound : Bound) (exponent : Nat) :
    Reach → (LoadId → Prop) → Segment K V → Prop where
  | create (reach : Reach) :
      Attended hash policy bound exponent reach (fun _ => False) (create policy bound (2 ^ exponent))
  | run {reach : Reach} {ended : LoadId → Prop} {s : Segment K V}
      (attended : Attended hash policy bound exponent reach ended s) (now : Nat) (op : Operation K V)
      (fits : op.Fits ended reach s) :
      Attended hash policy bound exponent reach (op.endedAfter ended) (op.run hash reach now s)
  | release {reach reach' : Reach} {ended : LoadId → Prop} {s : Segment K V}
      (attended : Attended hash policy bound exponent reach ended s)
      (lost : ∀ handle entry, s.entry? handle = some entry → reach' entry.key.id = true →
        reach entry.key.id = true)
      (held : ∀ id load, s.loads[id]? = some load → ¬ ended id → reach' load.key.id = true) :
      Attended hash policy bound exponent reach' ended s

section Attended

variable [DecidableEq K] {policy : Policy K V} {bound : Bound} {exponent : Nat}

theorem Attended.invariant (attended : Attended hash policy bound exponent reach ended s) :
    s.Consistent ∧ s.Keyed hash reach ∧ Flights ended reach s := by
  induction attended with
  | create reach =>
      exact ⟨consistent_create policy bound exponent, keyed_create policy bound _,
        flights_create policy bound _ reach⟩
  | @run reach ended s attended now op fits ih =>
      obtain ⟨consistent, keyed, flights⟩ := ih
      have runs := consistent.runs hash reach now op
      exact ⟨runs.consistent consistent, runs.keyed consistent keyed,
        runs.flights (s.policy.honours_self reach) consistent keyed flights fits⟩
  | release attended lost held ih =>
      obtain ⟨consistent, keyed, flights⟩ := ih
      exact ⟨consistent, keyed.release lost, { flights with attended := held }⟩

end Attended

end Segment
end SegmentedCache
