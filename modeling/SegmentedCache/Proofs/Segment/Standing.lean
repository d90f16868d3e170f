import SegmentedCache.Proofs.Segment.SingleFlight
import SegmentedCache.Proofs.Segment.Weights

namespace SegmentedCache

/-!
What operations do to loads. An operation starts one load at most, and of the others it only displaces some: their keys,
owners and outcomes are no business of a segment.
-/

variable {K V : Type}

namespace Load

def standing (load : Load K V) : Load K V :=
  { load with displaced := none }

theorem standing_of_undisplaced {load : Load K V} (undisplaced : load.displaced = none) : load.standing = load := by
  rw [standing, ← undisplaced]

theorem standing_displaceIn (loads : Array (Load K V)) (target : Option LoadId) (cause : Cause) :
    (displaceIn loads target cause).map standing = loads.map standing := by
  apply Array.ext_getElem?
  intro id
  rw [Array.getElem?_map, Array.getElem?_map, getElem?_displaceIn]
  split
  · rw [Option.map_map]
    rfl
  · rfl

end Load

namespace Segment

variable {s s' : Segment K V} {hash : K → UInt64} {reach : Reach} {now : Nat}

def standings (s : Segment K V) : Array (Load K V) :=
  s.loads.map Load.standing

theorem size_standings (s : Segment K V) : s.standings.size = s.loads.size :=
  Array.size_map

theorem Purge.standings {allowed : Entry K V → Cause → Prop} (purge : Purge reach allowed s s')
    (consistent : s.Consistent) : s'.standings = s.standings := by
  induction purge with
  | done => rfl
  | replay _ ih =>
      have replayed := consistent.replayReads
      rw [ih replayed.consistent, Segment.standings, replayed.loads]
      rfl
  | @discard _ _ _ _ cause found _ _ ih =>
      have discarded := consistent.discard found reach cause
      rw [ih discarded.consistent, Segment.standings, discarded.loads]
      exact Load.standing_displaceIn ..

theorem Flights.modifyLoad {ended : LoadId → Prop} {held : Reach} (flights : Flights ended held s) (target : LoadId)
    {f : Load K V → Load K V} (kept : ∀ load, (f load).key = load.key ∧ (f load).displaced = load.displaced) :
    Flights ended held (s.modifyLoad target f) := by
  have loads (id : LoadId) : (s.modifyLoad target f).loads[id]? =
      if target = id then (s.loads[id]?).map f else s.loads[id]? := Array.getElem?_modify
  have earlier {id : LoadId} {load' : Load K V} (issued : (s.modifyLoad target f).loads[id]? = some load') :
      ∃ load, s.loads[id]? = some load ∧ load'.key = load.key ∧ load'.displaced = load.displaced := by
    rw [loads] at issued
    split at issued
    · obtain ⟨load, issued', rfl⟩ := Option.map_eq_some_iff.mp issued
      exact ⟨load, issued', kept load⟩
    · exact ⟨load', issued, rfl, rfl⟩
  refine ⟨?_, ?_, ?_, ?_, flights.unique⟩
  · intro handle record id found carried
    obtain ⟨running, load, issued, key_eq, undisplaced, own⟩ := flights.carried handle record id found carried
    refine ⟨running, ?_⟩
    rw [loads, issued]
    split
    · exact ⟨f load, rfl, by rw [(kept load).1, key_eq], by rw [(kept load).2, undisplaced],
        fun reserved => (kept load).1.trans (own reserved)⟩
    · exact ⟨load, rfl, key_eq, undisplaced, own⟩
  · intro id load' issued running
    obtain ⟨load, issued', _, displaced_eq⟩ := earlier issued
    rw [displaced_eq]
    exact flights.displaced id load issued' running
  · intro id load' issued running
    obtain ⟨load, issued', key_eq, _⟩ := earlier issued
    rw [key_eq]
    exact flights.attended id load issued' running
  · intro id ceased
    simpa [Segment.modifyLoad] using flights.known id ceased

section Runs

variable [DecidableEq K] {op : Operation K V} {accepted : List (K × Shared V)} {keyed : Prop}

theorem Act.standings (act : Act hash reach now keyed op accepted s s') (idle : op.starts? = none) :
    s'.standings = s.standings := by
  cases act with
  | idle | dropped => rfl
  | granted | renewing => cases idle
  | used _ _ transition | added _ _ transition | reverted _ _ _ transition =>
      rw [Segment.standings, transition.loads]
      rfl
  | filled writes _ _ transition | overwritten writes _ _ transition =>
      rw [Segment.standings, transition.loads]
      cases writes with
      | insert => exact Load.standing_displaceIn ..
      | finishLoad => rfl
  | @abandoned _ _ _ _ _ load _ _ _ transition =>
      rw [Segment.standings, transition.loads]
      exact Load.standing_displaceIn s.loads (some load) .explicit
  | reported _ _ rebooked | forgot rebooked =>
      rw [Segment.standings, rebooked.loads]
      rfl

theorem Runs.standings (runs : Runs hash reach now op accepted s s') (consistent : s.Consistent)
    (idle : op.starts? = none) : s'.standings = s.standings := by
  obtain ⟨before, after, first, act, last⟩ := runs.parts
  have consistent' := first.consistent consistent
  rw [last.standings (act.consistent consistent'), act.standings idle, first.standings consistent]

end Runs

section Claims

variable [DecidableEq K] {thread : ThreadId} {key : Shared K} {code : UInt64}

/-- What an answer to a claim means: a load that is granted is new, and one to wait for is on its way to an entry. -/
def Answers (s : Segment K V) (thread : ThreadId) (key : Shared K) : Claim V → Segment K V → Prop
  | .granted id, t => id = s.loads.size ∧ t.standings = s.standings.push { key, owner := some thread }
  | .taken id, t => t.standings = s.standings ∧ ∃ handle record, t.bare? handle = some record ∧
      record.load? = some id
  | .needless _, t => t.standings = s.standings

omit [DecidableEq K] in
theorem Consistent.grant_answers (consistent : s.Consistent) (now : Nat) (thread : ThreadId) (key : Shared K)
    (code : UInt64) : s.Answers thread key (s.grant now thread key code).1 (s.grant now thread key code).2 := by
  obtain ⟨handle, granted⟩ := consistent.grant now thread key code
  refine ⟨rfl, ?_⟩
  rw [Segment.standings, granted.loads]
  exact Array.map_push

omit [DecidableEq K] in
theorem Answers.of_standings {t : Segment K V} {claim : Claim V} (answers : t.Answers thread key claim s')
    (same : t.standings = s.standings) : s.Answers thread key claim s' := by
  have size : t.loads.size = s.loads.size := by rw [← size_standings, same, size_standings]
  cases claim with
  | granted id => exact ⟨answers.1.trans size, same ▸ answers.2⟩
  | taken id => exact ⟨answers.1.trans same, answers.2⟩
  | needless value => exact answers.trans same

theorem Consistent.claim_answers (consistent : s.Consistent) (reach : Reach) (now : Nat) (thread : ThreadId)
    (key : Shared K) (code : UInt64) :
    s.Answers thread key (s.claim reach now thread key code).1 (s.claim reach now thread key code).2 := by
  have prepared := consistent.prepare reach now
  have consistent' := prepared.consistent consistent
  apply Answers.of_standings _ (prepared.standings consistent)
  have claiming := s.claiming reach now thread key code
  generalize s.claim reach now thread key code = result at claiming ⊢
  generalize s.prepare reach now = t at *
  cases claiming with
  | absent => exact consistent'.grant_answers now thread key code
  | @awaited handle entry _ located own =>
      exact ⟨rfl, handle, entry.bare, bare?_of_found (find?_eq_some located).1, own⟩
  | live located =>
      have used := consistent'.use (find?_eq_some located).1 now
      rw [Answers, standings, used.loads]
      rfl
  | @stale _ _ _ cause located =>
      have discarded := consistent'.discard (find?_eq_some located).1 reach cause
      apply (discarded.consistent.grant_answers now thread key code).of_standings
      rw [standings, discarded.loads]
      exact Load.standing_displaceIn ..

theorem claimRefresh_answers (s : Segment K V) (reach : Reach) (now : Nat) (thread : ThreadId) (key : Shared K)
    (code : UInt64) (force : Bool) :
    ((s.claimRefresh reach now thread key code force).1 = none ∧
      (s.claimRefresh reach now thread key code force).2 = s) ∨
    ∃ old, (s.claimRefresh reach now thread key code force).1 = some (s.loads.size, old) ∧
      (s.claimRefresh reach now thread key code force).2.standings =
        s.standings.push { key, owner := some thread } := by
  have renewing := s.renewing reach now thread key code force
  generalize s.claimRefresh reach now thread key code force = result at renewing ⊢
  cases renewing with
  | declined => exact .inl ⟨rfl, rfl⟩
  | started => exact .inr ⟨_, rfl, Array.map_push⟩

theorem pending_of_read {id : LoadId} (pending : (s.read reach now code key.data).1 = .pending id) :
    ∃ handle record, s.bare? handle = some record ∧ record.load? = some id := by
  have reading := s.reading reach now code key.data
  generalize s.read reach now code key.data = result at reading pending
  cases reading with
  | @awaited handle entry _ located reserved =>
      cases pending
      exact ⟨handle, entry.bare, bare?_of_found (find?_eq_some located).1, by
        rw [Entry.load?_bare, Entry.load?, reserved]⟩
  | absent | stale | live => cases pending

end Claims

/-- A segment in order, whose loads are on their way or have ended as `ended` says. Nobody loses the keys that are
`held`. -/
structure Tended (hash : K → UInt64) (policy : Policy K V) (held : Reach) (ended : LoadId → Prop)
    (s : Segment K V) : Prop where
  consistent : s.Consistent
  policy_eq : s.policy = policy
  hashed : ∀ handle record, s.bare? handle = some record → record.hash = hash record.key.data
  flights : Flights ended held s

namespace Tended

variable {policy : Policy K V} {held held' : Reach} {ended : LoadId → Prop}

theorem keyed (tended : s.Tended hash policy held ended) (reach : Reach) : s.Keyed hash reach where
  hashed := tended.hashed
  distinct key first second stands stands' := by
    obtain ⟨record, found, _, same⟩ := stands
    obtain ⟨record', found', _, same'⟩ := stands'
    exact tended.flights.unique first second record record' found found' (same.trans same'.symm)

theorem hold (tended : s.Tended hash policy held ended)
    (held_keys : ∀ id load, s.loads[id]? = some load → ¬ ended id → held' load.key.id = true) :
    s.Tended hash policy held' ended :=
  { tended with flights := { tended.flights with attended := held_keys } }

theorem modifyLoad (tended : s.Tended hash policy held ended) (target : LoadId) {f : Load K V → Load K V}
    (kept : ∀ load, (f load).key = load.key ∧ (f load).displaced = load.displaced) :
    (s.modifyLoad target f).Tended hash policy held ended where
  consistent := (tended.consistent.modifyLoad target f).consistent
  policy_eq := tended.policy_eq
  hashed := tended.hashed
  flights := tended.flights.modifyLoad target kept

theorem run [DecidableEq K] (tended : s.Tended hash policy held ended) (honoured : policy.Honours reach held)
    (op : Operation K V) (fits : op.Fits ended held s) :
    ({ op.run hash reach now s with removals := [], growths := [] } : Segment K V).Tended hash policy held
      (op.endedAfter ended) := by
  have keyed := tended.keyed reach
  have runs := tended.consistent.runs hash reach now op
  have flights := runs.flights (tended.policy_eq ▸ honoured) tended.consistent keyed tended.flights fits
  have collected := (runs.consistent tended.consistent).collected
  exact ⟨collected.consistent, (runs.rules tended.consistent).1.trans tended.policy_eq,
    (runs.keyed tended.consistent keyed).hashed, flights.rebooked collected rfl⟩

end Tended

theorem tended_create (hash : K → UInt64) (policy : Policy K V) (bound : Bound) (exponent : Nat) (held : Reach) :
    (create policy bound (2 ^ exponent)).Tended hash policy held fun _ => False where
  consistent := consistent_create policy bound exponent
  policy_eq := rfl
  hashed :=
    have keyed : Keyed hash held (create policy bound (2 ^ exponent)) := keyed_create policy bound _
    keyed.hashed
  flights := flights_create policy bound _ held

end Segment
end SegmentedCache
