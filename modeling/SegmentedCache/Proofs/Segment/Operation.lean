import SegmentedCache.Proofs.Segment.Keys
import SegmentedCache.Segment.Read

namespace SegmentedCache

/-!
The operations on one segment. Each removes what its housekeeping takes, then changes one record on purpose, and may
then remove what is over the bound.
-/

variable {K V : Type}

inductive Operation (K V : Type) where
  | read (key : K)
  | claim (thread : ThreadId) (key : Shared K)
  | claimRefresh (thread : ThreadId) (key : Shared K) (force : Bool)
  | finishLoad (key : Shared K) (load : LoadId) (loaded : Option (Shared V))
  | insert (key : Shared K) (value : Shared V) (onlyIfNew : Bool)
  | remove (key : K)
  | clear
  | releaseSoft
  | cleanUp

namespace Operation

variable [DecidableEq K]

def run (hash : K → UInt64) (reach : Reach) (now : Nat) (op : Operation K V) (s : Segment K V) : Segment K V :=
  match op with
  | read key => (s.read reach now (hash key) key).2
  | claim thread key => (s.claim reach now thread key (hash key.data)).2
  | claimRefresh thread key force => (s.claimRefresh reach now thread key (hash key.data) force).2
  | finishLoad key load loaded => s.finishLoad reach now key (hash key.data) load loaded
  | insert key value onlyIfNew => (s.insert reach now key (hash key.data) value onlyIfNew).2
  | remove key => (s.remove reach now (hash key) key).2
  | clear => s.clear reach
  | releaseSoft => s.releaseSoft reach
  | cleanUp => s.cleanUp reach now

/-- The values that an operation stores or takes from a loader, under their keys. A value that is only to be stored if
the key is new is turned away where there is a live one. -/
def accepted (hash : K → UInt64) (reach : Reach) (now : Nat) (op : Operation K V) (s : Segment K V) :
    List (K × Shared V) :=
  match op with
  | finishLoad key _ (some value) => [(key.data, value)]
  | insert key value onlyIfNew =>
      bif onlyIfNew && (s.insert reach now key (hash key.data) value onlyIfNew).1.isSome then []
      else [(key.data, value)]
  | _ => []

def key? : Operation K V → Option K
  | read key | remove key => some key
  | claim _ key | claimRefresh _ key _ | finishLoad key _ _ | insert key _ _ => some key.data
  | clear | releaseSoft | cleanUp => none

def ends? : Operation K V → Option LoadId
  | finishLoad _ load _ => some load
  | _ => none

def stores : Operation K V → Bool
  | finishLoad .. | insert .. => true
  | _ => false

def Removes (policy : Policy K V) (bound : Bound) (reach : Reach) (now : Nat) (op : Operation K V)
    (entry : Entry K V) (cause : Cause) : Prop :=
  match op with
  | read _ | claimRefresh .. => False
  | claim _ key =>
      policy.Prepares reach now entry cause ∨ entry.key.data = key.data ∧ policy.stale? reach now entry = some cause
  | finishLoad .. => policy.Prepares reach now entry cause ∨ policy.Evicts bound reach entry cause
  | insert key _ _ =>
      policy.Prepares reach now entry cause ∨ policy.Evicts bound reach entry cause ∨
        entry.key.data = key.data ∧ policy.stale? reach now entry = some cause
  | remove key =>
      policy.Prepares reach now entry cause ∨
        entry.key.data = key ∧ cause = policy.trueCause reach entry .explicit
  | clear => cause = policy.trueCause reach entry .explicit
  | releaseSoft => policy.valueStrength = .soft ∧ entry.isReserved = false ∧ cause = .collected
  | cleanUp => policy.Prepares reach now entry cause ∨ policy.Evicts bound reach entry cause

end Operation

namespace Policy

variable {policy : Policy K V} {reach : Reach} {now : Nat} {entry : Entry K V}

theorem prepares_of_stale? {cause : Cause} (stale : policy.stale? reach now entry = some cause) :
    policy.Prepares reach now entry cause := by
  unfold stale? at stale
  split at stale
  · cases stale
  · rename_i counted
    split at stale
    · rename_i lost
      cases stale
      exact .inl ⟨lost, rfl⟩
    · rename_i kept
      split at stale
      · rename_i expired
        cases stale
        exact .inr ⟨Bool.not_eq_true _ ▸ counted, expired, by rw [trueCause, if_neg kept]⟩
      · cases stale

end Policy

namespace Segment

variable {s s' : Segment K V} {handle : Handle} {reach : Reach}

section Storing

variable {entry : Entry K V}

def overwrittenLedger (s : Segment K V) (reach : Reach) (handle : Handle) (key : Shared K) (old : Shared V)
    (loads : Array (Load K V)) : Ledger K V :=
  { s.ledger with
    ordered := fun ranking => LinkedQueue.movedToEnd (s.ordered ranking) handle
    loads
    removals := s.removals ++
      [{ key := ⟨key, true⟩, value := ⟨old, s.policy.valueStrength.reaches reach old⟩, cause := .replaced }] }

theorem Consistent.fillReserved (consistent : s.Consistent) (live : s.entry? handle = some entry)
    (reserved : entry.visible? = none) (reach : Reach) (now : Nat) (value : Shared V) (weight : Nat) :
    ∃ t, Transition s t handle (some entry.bare) (some (entry.store value weight now).bare)
        { s.ledger with
          ordered := fun ranking => s.ordered ranking ++ [handle]
          loads := Load.displaceIn s.loads entry.load? .replaced } ∧
      s.fillReserved reach now value weight handle entry = t.evict reach (some handle) := by
  have displaced := consistent.displace entry.load? .replaced
  have live' : Segment.entry? (s.displace entry.load? .replaced) handle = some entry := by
    rw [displace_eq]
    exact live
  have filled := displaced.consistent.fill live' reserved value weight now
  have noted := filled.consistent.noteChange
  rw [filled.ledger, displaced.ledger, displaced.ordered] at noted
  exact ⟨_, displaced.followed (filled.rebooked noted), rfl⟩

theorem Consistent.overwrite (consistent : s.Consistent) (live : s.entry? handle = some entry) {old : Shared V}
    (counted : entry.visible? = some old) (reach : Reach) (now : Nat) (key : Shared K) (value : Shared V)
    (weight : Nat) :
    ∃ t, Transition s t handle (some entry.bare) (some (entry.store value weight now).bare)
        (s.overwrittenLedger reach handle key old (Load.displaceIn s.loads entry.load? .replaced)) ∧
      s.overwrite reach now key value weight handle entry old = t.evict reach (some handle) := by
  have displaced := consistent.displace entry.load? .replaced
  have reported := displaced.consistent.report
    { key := ⟨key, true⟩, value := ⟨old, s.policy.valueStrength.reaches reach old⟩, cause := .replaced }
  rw [displaced.ledger, displaced.removals] at reported
  have live' : Segment.entry? ((s.displace entry.load? .replaced).report
      { key := ⟨key, true⟩, value := ⟨old, s.policy.valueStrength.reaches reach old⟩, cause := .replaced })
        handle =
      some entry := by
    rw [displace_eq]
    exact live
  have renewed := reported.consistent.renew live' (Entry.isReserved_eq_false.mpr ⟨old, counted⟩) value weight now
  have noted := renewed.consistent.noteChange
  rw [renewed.ledger, reported.ledger, reported.ordered] at noted
  exact ⟨_, (displaced.trans reported).followed (renewed.rebooked noted), rfl⟩

theorem Consistent.storeLoaded_reserved (consistent : s.Consistent) (live : s.entry? handle = some entry)
    (reserved : entry.visible? = none) (reach : Reach) (now : Nat) (key : Shared K) (value : Shared V) :
    ∃ t, Transition s t handle (some entry.bare)
        (some (entry.store value (s.policy.weigh key.data value.data) now).bare)
        { s.ledger with ordered := fun ranking => s.ordered ranking ++ [handle] } ∧
      s.storeLoaded reach now key value handle entry = t.evict reach (some handle) := by
  have filled := consistent.fill live reserved value (s.policy.weigh key.data value.data) now
  have noted := filled.consistent.noteChange
  rw [filled.ledger] at noted
  refine ⟨_, filled.rebooked noted, ?_⟩
  unfold storeLoaded
  rw [reserved]

theorem Consistent.storeLoaded_counted (consistent : s.Consistent) (live : s.entry? handle = some entry)
    {old : Shared V} (counted : entry.visible? = some old) (reach : Reach) (now : Nat) (key : Shared K)
    (value : Shared V) :
    ∃ t, Transition s t handle (some entry.bare)
        (some (entry.store value (s.policy.weigh key.data value.data) now).bare)
        (s.overwrittenLedger reach handle key old s.loads) ∧
      s.storeLoaded reach now key value handle entry = t.evict reach (some handle) := by
  have renewed := consistent.renew live (Entry.isReserved_eq_false.mpr ⟨old, counted⟩) value
    (s.policy.weigh key.data value.data) now
  have reported := renewed.consistent.report
    { key := ⟨key, true⟩, value := ⟨old, s.policy.valueStrength.reaches reach old⟩, cause := .replaced }
  have noted := reported.consistent.noteChange
  rw [reported.ledger, renewed.ledger, renewed.removals] at noted
  refine ⟨_, renewed.rebooked (reported.trans noted), ?_⟩
  unfold storeLoaded
  rw [counted]
  rfl

end Storing

/-- An operation that stores `value` in `entry`, and what that does to the loads: a put displaces the load that is on
its way to the entry, and a load only writes to its own entry. -/
inductive Writes (loads : Array (Load K V)) (entry : Entry K V) :
    Operation K V → Shared K → Shared V → Array (Load K V) → Prop where
  | insert (key : Shared K) (value : Shared V) (onlyIfNew : Bool) :
      Writes loads entry (.insert key value onlyIfNew) key value
        (Load.displaceIn loads entry.load? .replaced)
  | finishLoad {key : Shared K} {value : Shared V} {load : LoadId} (own : entry.load? = some load) :
      Writes loads entry (.finishLoad key load (some value)) key value loads

/-- The change of one record that an operation makes on purpose, and the values that it accepts by it. A new entry is
the only one of its key if keys were in order, as `keyed` says, before the operation. -/
inductive Act [DecidableEq K] (hash : K → UInt64) (reach : Reach) (now : Nat) (keyed : Prop) :
    Operation K V → List (K × Shared V) → Segment K V → Segment K V → Prop where
  | idle {op : Operation K V} {s : Segment K V} (running : op.ends? = none) : Act hash reach now keyed op [] s s
  | used {op : Operation K V} {s s' : Segment K V} {handle : Handle} {entry : Entry K V}
      {order : Ranking → List Handle} {readLog : Array Handle} (running : op.ends? = none)
      (byWrite : order .write = s.ordered .write)
      (transition : Transition s s' handle (some entry.bare) (some (s.policy.used now entry).bare)
        { s.ledger with ordered := order, readLog }) : Act hash reach now keyed op [] s s'
  | granted {s s' : Segment K V} {handle : Handle} {thread : ThreadId} {key : Shared K}
      (reclaimed : s.Reclaimed reach) (absent : keyed → s.Absent reach key.data)
      (transition : Transition s s' handle none
        (some { key, hash := hash key.data, content := .loading s.loads.size none, weight := 0, written := now,
                accessed := now })
        { s.ledger with loads := s.loads.push { key, owner := some thread } }) :
      Act hash reach now keyed (.claim thread key) [] s s'
  | renewing {s s' : Segment K V} {handle : Handle} {entry : Entry K V} {thread : ThreadId} {key : Shared K}
      {force : Bool} {value : Shared V} (found : s.find? reach (hash key.data) key.data = some (handle, entry))
      (ready : entry.content = .ready value)
      (transition : Transition s s' handle (some entry.bare)
        (some (entry.setContent (.loading s.loads.size (some value))).bare)
        { s.ledger with loads := s.loads.push { key, owner := some thread } }) :
      Act hash reach now keyed (.claimRefresh thread key force) [] s s'
  | added {s s' : Segment K V} {handle : Handle} {key : Shared K} {value : Shared V} {onlyIfNew : Bool} {weight : Nat}
      (reclaimed : s.Reclaimed reach) (absent : keyed → s.Absent reach key.data)
      (transition : Transition s s' handle none
        (some { key, hash := hash key.data, content := .ready value, weight, written := now, accessed := now })
        { s.ledger with ordered := fun ranking => s.ordered ranking ++ [handle] }) :
      Act hash reach now keyed (.insert key value onlyIfNew) [(key.data, value)] s s'
  | filled {op : Operation K V} {s s' : Segment K V} {handle : Handle} {entry : Entry K V} {key : Shared K}
      {value : Shared V} {weight : Nat} {loads : Array (Load K V)} (writes : Writes s.loads entry op key value loads)
      (found : s.find? reach (hash key.data) key.data = some (handle, entry)) (reserved : entry.visible? = none)
      (transition : Transition s s' handle (some entry.bare) (some (entry.store value weight now).bare)
        { s.ledger with ordered := fun ranking => s.ordered ranking ++ [handle], loads }) :
      Act hash reach now keyed op [(key.data, value)] s s'
  | overwritten {op : Operation K V} {s s' : Segment K V} {handle : Handle} {entry : Entry K V} {key : Shared K}
      {value old : Shared V} {weight : Nat} {loads : Array (Load K V)}
      (writes : Writes s.loads entry op key value loads)
      (found : s.find? reach (hash key.data) key.data = some (handle, entry)) (counted : entry.visible? = some old)
      (transition : Transition s s' handle (some entry.bare) (some (entry.store value weight now).bare)
        (s.overwrittenLedger reach handle key old loads)) :
      Act hash reach now keyed op [(key.data, value)] s s'
  | reverted {s s' : Segment K V} {handle : Handle} {entry : Entry K V} {key : Shared K} {load : LoadId}
      {old : Shared V} (found : s.find? reach (hash key.data) key.data = some (handle, entry))
      (own : entry.load? = some load) (counted : entry.visible? = some old)
      (transition : Transition s s' handle (some entry.bare) (some (entry.setContent (.ready old)).bare) s.ledger) :
      Act hash reach now keyed (.finishLoad key load none) [] s s'
  | abandoned {s s' : Segment K V} {handle : Handle} {entry : Entry K V} {key : Shared K} {load : LoadId}
      (found : s.find? reach (hash key.data) key.data = some (handle, entry)) (own : entry.load? = some load)
      (reserved : entry.visible? = none)
      (transition : Transition s s' handle (some entry.bare) none
        { s.ledger with
          ordered := fun ranking => (s.ordered ranking).erase handle
          loads := Load.displaceIn s.loads (some load) .explicit }) :
      Act hash reach now keyed (.finishLoad key load none) [] s s'
  | reported {s s' : Segment K V} {key : Shared K} {load : LoadId} {value : Shared V}
      (reclaimed : s.Reclaimed reach)
      (gone : ∀ handle entry, s.find? reach (hash key.data) key.data = some (handle, entry) →
        entry.load? ≠ some load)
      (rebooked : Rebooked s s'
        { s.ledger with
          removals := s.removals ++
            [{ key := ⟨key, true⟩, value := ⟨value, true⟩,
               cause := ((s.loads[load]?).bind (·.displaced)).getD .explicit }] }) :
      Act hash reach now keyed (.finishLoad key load (some value)) [(key.data, value)] s s'
  | dropped {s : Segment K V} {key : Shared K} {load : LoadId} (reclaimed : s.Reclaimed reach)
      (gone : ∀ handle entry, s.find? reach (hash key.data) key.data = some (handle, entry) →
        entry.load? ≠ some load) :
      Act hash reach now keyed (.finishLoad key load none) [] s s
  | forgot {s s' : Segment K V} (rebooked : Rebooked s s' { s.ledger with readLog := #[] }) :
      Act hash reach now keyed .clear [] s s'

section Cases

variable [DecidableEq K] {hash : K → UInt64} {now : Nat}

/-- An operation is housekeeping, one change on purpose, and housekeeping again. -/
structure Runs (hash : K → UInt64) (reach : Reach) (now : Nat) (op : Operation K V) (accepted : List (K × Shared V))
    (s s' : Segment K V) : Prop where
  parts : ∃ before after, Purge reach (op.Removes s.policy s.bound reach now) s before ∧
    Act hash reach now (s.Keyed hash reach) op accepted before after ∧
    Purge reach (fun entry cause => op.stores = true ∧ s.policy.Evicts s.bound reach entry cause) after s'

structure Acts (hash : K → UInt64) (reach : Reach) (now : Nat) (op : Operation K V) (accepted : List (K × Shared V))
    (s s' : Segment K V) : Prop where
  parts : ∃ before after, Purge reach (s.policy.Prepares reach now) s before ∧
    Act hash reach now (s.Keyed hash reach) op accepted before after ∧
    (s' = after ∨ op.stores = true ∧ ∃ newest, s' = after.evict reach newest)

theorem Purge.runs {op : Operation K V} (purge : Purge reach (op.Removes s.policy s.bound reach now) s s')
    (running : op.ends? = none) : Runs hash reach now op [] s s' :=
  ⟨s', s', purge, .idle running, .done s'⟩

theorem Consistent.read_runs (consistent : s.Consistent) (key : K) :
    Runs hash reach now (.read key) [] s (s.read reach now (hash key) key).2 := by
  have quiet : Runs hash reach now (.read key) [] s s := (Purge.done s).runs rfl
  have reading := s.reading reach now (hash key) key
  generalize s.read reach now (hash key) key = result at reading ⊢
  cases reading with
  | absent | awaited | stale => exact quiet
  | live located =>
      exact ⟨s, _, .done s, .used rfl rfl (consistent.noteRead (find?_eq_some located).1 now), .done _⟩

theorem Consistent.claim_runs (consistent : s.Consistent) (thread : ThreadId) (key : Shared K) :
    Runs hash reach now (.claim thread key) [] s (s.claim reach now thread key (hash key.data)).2 := by
  have prepared := consistent.prepare reach now
  have consistent' := prepared.consistent consistent
  have policy := prepared.policy consistent
  have first : Purge reach ((Operation.claim thread key).Removes s.policy s.bound reach now) s (s.prepare reach now) :=
    prepared.mono fun _ _ => .inl
  have reclaimed := consistent.reclaimed_prepare reach now
  have claiming := s.claiming reach now thread key (hash key.data)
  generalize s.claim reach now thread key (hash key.data) = result at claiming ⊢
  generalize s.prepare reach now = t at *
  cases claiming with
  | absent missing =>
      obtain ⟨handle, granted⟩ := consistent'.grant now thread key (hash key.data)
      refine ⟨t, _, first, .granted reclaimed (fun keyed => ?_) granted, .done _⟩
      exact ((prepared.keyed consistent keyed).find?_eq_none consistent'.toLinked).mp missing
  | awaited => exact first.runs rfl
  | @live handle _ _ located =>
      have used := consistent'.use (find?_eq_some located).1 now
      exact ⟨t, _, first, .used rfl (t.orderedAfterUse_write handle) used, .done _⟩
  | @stale handle entry value cause located ready stale =>
      obtain ⟨live, _, same⟩ := find?_eq_some located
      have discarded := consistent'.discard live reach cause
      obtain ⟨handle', granted⟩ := discarded.consistent.grant now thread key (hash key.data)
      have emptied : Purge reach ((Operation.claim thread key).Removes s.policy s.bound reach now) t
          (t.discard reach handle cause) := .single live (.inr ⟨same, policy ▸ stale⟩)
      refine ⟨t.discard reach handle cause, _, first.trans emptied,
        .granted (emptied.reclaimed consistent' reclaimed) (fun keyed => ?_) granted, .done _⟩
      exact (prepared.keyed consistent keyed).absent_of_gone (standsFor_of_find? located) discarded.policy
        discarded.differ.after discarded.differ.others

theorem Consistent.claimRefresh_runs (consistent : s.Consistent) (thread : ThreadId) (key : Shared K)
    (force : Bool) :
    Runs hash reach now (.claimRefresh thread key force) [] s
      (s.claimRefresh reach now thread key (hash key.data) force).2 := by
  have renewing := s.renewing reach now thread key (hash key.data) force
  generalize s.claimRefresh reach now thread key (hash key.data) force = result at renewing ⊢
  cases renewing with
  | declined => exact (Purge.done s).runs rfl
  | started located ready =>
      have started := consistent.startRefresh (find?_eq_some located).1 ready thread key
      exact ⟨s, _, .done s, .renewing located ready started, .done _⟩

theorem Act.consistent {keyed : Prop} {op : Operation K V} {accepted : List (K × Shared V)}
    (act : Act hash reach now keyed op accepted s s') (consistent : s.Consistent) : s'.Consistent := by
  cases act with
  | idle | dropped => exact consistent
  | used _ _ transition | granted _ _ transition | renewing _ _ transition | added _ _ transition
  | filled _ _ _ transition | overwritten _ _ _ transition | reverted _ _ _ transition
  | abandoned _ _ _ transition => exact transition.consistent
  | reported _ _ rebooked | forgot rebooked => exact rebooked.consistent

theorem Act.rules {keyed : Prop} {op : Operation K V} {accepted : List (K × Shared V)}
    (act : Act hash reach now keyed op accepted s s') : s'.policy = s.policy ∧ s'.bound = s.bound := by
  cases act with
  | idle | dropped => exact ⟨rfl, rfl⟩
  | used _ _ transition | granted _ _ transition | renewing _ _ transition | added _ _ transition
  | filled _ _ _ transition | overwritten _ _ _ transition | reverted _ _ _ transition
  | abandoned _ _ _ transition => exact ⟨transition.policy, transition.bound⟩
  | reported _ _ rebooked | forgot rebooked => exact ⟨rebooked.policy, rebooked.bound⟩

theorem Acts.runs {op : Operation K V} {accepted : List (K × Shared V)} (acts : Acts hash reach now op accepted s s')
    (consistent : s.Consistent)
    (sweeps : ∀ entry cause, s.policy.Prepares reach now entry cause →
      op.Removes s.policy s.bound reach now entry cause) : Runs hash reach now op accepted s s' := by
  obtain ⟨before, after, first, act, last⟩ := acts.parts
  have consistent' := act.consistent (first.consistent consistent)
  rcases last with rfl | ⟨stores, newest, rfl⟩
  · exact ⟨before, s', first.mono sweeps, act, .done s'⟩
  · have evicted := consistent'.evict reach newest
    rw [act.rules.1, act.rules.2, first.policy consistent, first.bound consistent] at evicted
    exact ⟨before, after, first.mono sweeps, act, evicted.mono fun _ _ evicts => ⟨stores, evicts⟩⟩

theorem Consistent.finishLoad_acts (consistent : s.Consistent) (key : Shared K) (load : LoadId)
    (loaded : Option (Shared V)) :
    Acts hash reach now (.finishLoad key load loaded)
      ((Operation.finishLoad key load loaded).accepted hash reach now s) s
      (s.finishLoad reach now key (hash key.data) load loaded) := by
  have first := consistent.prepare reach now
  have consistent' := first.consistent consistent
  have reclaimed := consistent.reclaimed_prepare reach now
  have finishing := s.finishing reach now key (hash key.data) load loaded
  generalize s.finishLoad reach now key (hash key.data) load loaded = s' at finishing ⊢
  generalize s.prepare reach now = t at *
  cases finishing with
  | dropped gone => exact ⟨_, _, first, .dropped reclaimed gone, .inl rfl⟩
  | reported gone => exact ⟨t, _, first, .reported reclaimed gone (consistent'.report _), .inl rfl⟩
  | @forgone handle entry located own =>
      have live := (find?_eq_some located).1
      unfold giveUp
      cases counted : entry.visible? with
      | none =>
          have discarded := consistent'.discard live reach .explicit
          simp only [own, Policy.removalsOf, counted, Option.toList_none, List.map_nil, List.append_nil] at discarded
          exact ⟨t, _, first, .abandoned located own counted discarded, .inl rfl⟩
      | some old =>
          have reserved : (entry.setContent (.ready old)).isReserved = entry.isReserved :=
            (Entry.isReserved_eq_false.mpr ⟨old, counted⟩).symm
          have reverted := consistent'.modifyEntry live (f := (·.setContent (.ready old)))
            (fun _ => rfl) (fun _ => rfl) reserved rfl
          exact ⟨t, _, first, .reverted located own counted reverted, .inl rfl⟩
  | @stored handle entry value located own =>
      have live := (find?_eq_some located).1
      cases counted : entry.visible? with
      | none =>
          obtain ⟨u, filled, stored⟩ := consistent'.storeLoaded_reserved live counted reach now key value
          exact ⟨t, u, first, .filled (.finishLoad own) located counted filled, .inr ⟨rfl, _, stored⟩⟩
      | some old =>
          obtain ⟨u, renewed, stored⟩ := consistent'.storeLoaded_counted live counted reach now key value
          exact ⟨t, u, first, .overwritten (.finishLoad own) located counted renewed, .inr ⟨rfl, _, stored⟩⟩

theorem Consistent.insertNew_acts (consistent : s.Consistent) {t : Segment K V} {key : Shared K}
    {value : Shared V} {onlyIfNew : Bool} (first : Purge reach (s.policy.Prepares reach now) s t)
    (reclaimed : t.Reclaimed reach) (absent : s.Keyed hash reach → t.Absent reach key.data) (weight : Nat) :
    Acts hash reach now (.insert key value onlyIfNew) [(key.data, value)] s
      (t.insertNew reach now key (hash key.data) value weight) := by
  have added := (first.consistent consistent).add key (hash key.data) value weight now
  exact ⟨t, _, first, .added reclaimed absent added, .inr ⟨rfl, _, rfl⟩⟩

theorem Consistent.insert_acts (consistent : s.Consistent) (key : Shared K) (value : Shared V) (onlyIfNew : Bool) :
    Acts hash reach now (.insert key value onlyIfNew)
      ((Operation.insert key value onlyIfNew).accepted hash reach now s) s
      (s.insert reach now key (hash key.data) value onlyIfNew).2 := by
  have first := consistent.prepare reach now
  have consistent' := first.consistent consistent
  have policy := first.policy consistent
  have reclaimed := consistent.reclaimed_prepare reach now
  have inserting := s.inserting reach now key (hash key.data) value onlyIfNew
  unfold Operation.accepted
  dsimp only
  generalize s.insert reach now key (hash key.data) value onlyIfNew = result at inserting ⊢
  generalize s.prepare reach now = t at *
  cases inserting with
  | absent missing =>
      have absent (keyed : s.Keyed hash reach) : t.Absent reach key.data :=
        ((first.keyed consistent keyed).find?_eq_none consistent'.toLinked).mp missing
      simpa using consistent.insertNew_acts first reclaimed absent _
  | @stale _ handle entry cause located stale =>
      have live := (find?_eq_some located).1
      have discarded := consistent'.discard live reach cause
      have absent (keyed : s.Keyed hash reach) : (t.discard reach handle cause).Absent reach key.data :=
        (first.keyed consistent keyed).absent_of_gone (standsFor_of_find? located) discarded.policy
          discarded.differ.after discarded.differ.others
      have emptied : Purge reach (s.policy.Prepares reach now) t (t.discard reach handle cause) :=
        .single live (Policy.prepares_of_stale? (policy ▸ stale))
      simpa using consistent.insertNew_acts (first.trans emptied) (emptied.reclaimed consistent' reclaimed) absent _
  | reserved located reserved =>
      obtain ⟨u, filled, stored⟩ := consistent'.fillReserved (find?_eq_some located).1 reserved reach now value
        (t.policy.weigh key.data value.data)
      simp only [Option.isSome_none, Bool.and_false, cond_false]
      exact ⟨t, u, first, .filled (.insert key value onlyIfNew) located reserved filled, .inr ⟨rfl, _, stored⟩⟩
  | @turnedAway handle _ _ located =>
      have used := consistent'.use (find?_eq_some located).1 now
      exact ⟨t, _, first, .used rfl (t.orderedAfterUse_write handle) used, .inl rfl⟩
  | overwritten located counted =>
      obtain ⟨u, renewed, stored⟩ := consistent'.overwrite (find?_eq_some located).1 counted reach now key value
        (t.policy.weigh key.data value.data)
      exact ⟨t, u, first, .overwritten (.insert key value false) located counted renewed, .inr ⟨rfl, _, stored⟩⟩

theorem Consistent.remove_runs (consistent : s.Consistent) (key : K) :
    Runs hash reach now (.remove key) [] s (s.remove reach now (hash key) key).2 := by
  have prepared := consistent.prepare reach now
  have policy := prepared.policy consistent
  have first : Purge reach ((Operation.remove key).Removes s.policy s.bound reach now) s (s.prepare reach now) :=
    prepared.mono fun _ _ => .inl
  have removing := s.removing reach now (hash key) key
  generalize s.remove reach now (hash key) key = result at removing ⊢
  generalize s.prepare reach now = t at *
  have removed {handle : Handle} {entry : Entry K V} {cause : Cause}
      (located : t.find? reach (hash key) key = some (handle, entry))
      (right : cause = t.policy.trueCause reach entry .explicit) :
      Runs hash reach now (.remove key) [] s (t.discard reach handle cause) := by
    obtain ⟨live, _, same⟩ := find?_eq_some located
    exact (first.trans (.single live (.inr ⟨same, policy ▸ right⟩))).runs rfl
  cases removing with
  | absent => exact first.runs rfl
  | lost located lost => exact removed located (by rw [Policy.trueCause, if_pos lost])
  | found located kept => exact removed located (by rw [Policy.trueCause, if_neg kept])

theorem Consistent.clear_runs (consistent : s.Consistent) :
    Runs hash reach now .clear [] s (s.clear reach) := by
  obtain ⟨t, purge, cleared, _⟩ := consistent.clear reach
  rcases cleared with same | forgotten
  · exact same ▸ purge.runs rfl
  · rw [forgotten]
    exact ⟨t, _, purge, .forgot (purge.consistent consistent).forgetReads, .done _⟩

theorem Consistent.runs (consistent : s.Consistent) (hash : K → UInt64) (reach : Reach) (now : Nat)
    (op : Operation K V) : Runs hash reach now op (op.accepted hash reach now s) s (op.run hash reach now s) := by
  cases op with
  | read key => exact consistent.read_runs key
  | claim thread key => exact consistent.claim_runs thread key
  | claimRefresh thread key force => exact consistent.claimRefresh_runs thread key force
  | finishLoad key load loaded => exact (consistent.finishLoad_acts key load loaded).runs consistent fun _ _ => .inl
  | insert key value onlyIfNew => exact (consistent.insert_acts key value onlyIfNew).runs consistent fun _ _ => .inl
  | remove key => exact consistent.remove_runs key
  | clear => exact consistent.clear_runs
  | releaseSoft => exact (consistent.releaseSoft reach).runs rfl
  | cleanUp => exact (consistent.cleanUp reach now).runs rfl

end Cases

end Segment
end SegmentedCache
