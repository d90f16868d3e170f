import SegmentedCache.Proofs.Cache.Docket
import SegmentedCache.Proofs.Cache.Lasting
import SegmentedCache.Proofs.Segment.Standing

namespace SegmentedCache

/-!
Loads are looked after. What a cache does with its segments starts loads, ends them, or leaves them as they are.
-/

variable {K V τ : Type}

namespace Policy

/-- What reclamation spares: objects that can be reached, and all of them where nothing is reclaimed. -/
def spared (policy : Policy K V) (reach : Reach) : Reach :=
  fun object => reach object || !policy.reclaims

theorem reaches_of_spared {policy : Policy K V} {reach : Reach} {α : Type} {object : Shared α}
    (spared : policy.spared reach object.id = true) :
    policy.keyStrength.reaches reach object = true ∧ policy.valueStrength.reaches reach object = true := by
  simp only [Policy.spared, reclaims] at spared
  constructor
  · cases strength : policy.keyStrength with
    | strong | soft => rfl
    | weak => simpa [strength, Strength.reaches] using spared
  · cases strength : policy.valueStrength with
    | strong | soft => rfl
    | weak => simpa [strength, Strength.reaches] using spared

theorem honours_spared (policy : Policy K V) (reach : Reach) : policy.Honours reach (policy.spared reach) :=
  fun _ spared => (reaches_of_spared spared).1

end Policy

namespace Cache

def standing? (cache : Cache K V τ) (flight : Flight) : Option (Load K V) :=
  (cache.shards[flight.segment]?).bind (·.segment.standings[flight.load]?)

theorem standing?_eq (cache : Cache K V τ) (flight : Flight) :
    cache.standing? flight = (cache.load? flight).map Load.standing := by
  simp only [standing?, load?, Segment.standings, Array.getElem?_map, Option.map_bind, Function.comp_def]

theorem background_changeSegment (cache : Cache K V τ) (index : Nat) (f : Segment K V → Segment K V) :
    (cache.changeSegment index f).background = cache.background := by
  cases found : cache.shards[index]? with
  | none => rw [changeSegment_of_none found]
  | some shard =>
      obtain ⟨stats, log, changed⟩ := changeSegment_eq found f
      rw [changed]

theorem standing?_changeSegment (cache : Cache K V τ) (index : Nat) (f : Segment K V → Segment K V)
    (flight : Flight) :
    (cache.changeSegment index f).standing? flight =
      if flight.segment = index then
        (cache.shards[index]?).bind (fun shard => (f shard.segment).standings[flight.load]?)
      else cache.standing? flight := by
  cases found : cache.shards[index]? with
  | none =>
      rw [changeSegment_of_none found]
      split
      · rename_i here
        rw [standing?, here, found]
        rfl
      · rfl
  | some shard =>
      obtain ⟨stats, log, changed⟩ := changeSegment_eq found f
      have inside := (Array.getElem?_eq_some_iff.mp found).1
      rw [changed, standing?, Array.getElem?_setIfInBounds]
      by_cases here : flight.segment = index
      · rw [if_pos here.symm, if_pos (here ▸ inside), if_pos here]
        rfl
      · rw [if_neg (Ne.symm here), if_neg here]
        rfl

theorem standing?_modifyLoad (cache : Cache K V τ) (flight : Flight) {f : Load K V → Load K V}
    (standing : ∀ load, (f load).standing = f load.standing) :
    (cache.modifyLoad flight f).standing? =
      Function.update cache.standing? flight ((cache.standing? flight).map f) := by
  funext other
  have modified : (cache.modifyLoad flight f).load? other =
      if other = flight then (cache.load? flight).map f else cache.load? other := by
    obtain ⟨segment, load⟩ := other
    obtain ⟨segment', load'⟩ := flight
    simp only [load?, modifyLoad, Array.getElem?_modify, Flight.mk.injEq]
    by_cases here : segment = segment'
    · subst here
      cases cache.shards[segment]? with
      | none => simp
      | some shard =>
          simp only [↓reduceIte, Option.map_some, Option.bind_some, Segment.modifyLoad,
            Array.getElem?_modify, true_and]
          by_cases same : load = load'
          · simp [same]
          · simp [same, Ne.symm same]
    · simp [here, Ne.symm here]
  rw [standing?_eq, modified]
  by_cases same : other = flight
  · subst same
    rw [if_pos rfl, Function.update_self, standing?_eq, Option.map_map, Option.map_map]
    exact congrArg (Option.map · _) (funext standing)
  · rw [if_neg same, Function.update_of_ne same, standing?_eq]

def Tended (held : Reach) (spent : Flight → Prop) (cache : Cache K V τ) : Prop :=
  cache.Each fun index shard => shard.segment.Tended cache.hash cache.policy held fun id => spent ⟨index, id⟩

structure Drifts (held : Reach) (spent : Flight → Prop) (cache cache' : Cache K V τ) : Prop where
  steady : Steady cache cache'
  tended : cache'.Tended held spent
  standing : cache'.standing? = cache.standing?
  background : cache'.background = cache.background

structure Starts (held : Reach) (spent : Flight → Prop) (flight : Flight) (key : Shared K) (thread : ThreadId)
    (cache cache' : Cache K V τ) : Prop where
  steady : Steady cache cache'
  tended : cache'.Tended held spent
  new : cache.standing? flight = none
  standing : cache'.standing? = Function.update cache.standing? flight (some { key, owner := some thread })
  background : cache'.background = cache.background

inductive Claims (held : Reach) (spent : Flight → Prop) (index : Nat) (key : Shared K) (thread : ThreadId)
    (cache cache' : Cache K V τ) : Claim V → Prop where
  | granted {id : LoadId} (starts : Starts held spent ⟨index, id⟩ key thread cache cache') :
      Claims held spent index key thread cache cache' (.granted id)
  | taken {id : LoadId} (drifts : Drifts held spent cache cache')
      (issued : (cache'.standing? ⟨index, id⟩).isSome = true) :
      Claims held spent index key thread cache cache' (.taken id)
  | needless {value : Shared V} (drifts : Drifts held spent cache cache') :
      Claims held spent index key thread cache cache' (.needless value)

variable {cache t cache' : Cache K V τ} {held reach : Reach} {spent : Flight → Prop} {flight : Flight}
  {key : Shared K} {thread : ThreadId}

theorem Drifts.refl (tended : cache.Tended held spent) : Drifts held spent cache cache :=
  ⟨.refl cache, tended, rfl, rfl⟩

theorem Drifts.trans (first : Drifts held spent cache t) (second : Drifts held spent t cache') :
    Drifts held spent cache cache' :=
  ⟨first.steady.trans second.steady, second.tended, second.standing.trans first.standing,
    second.background.trans first.background⟩

theorem Drifts.starts (first : Drifts held spent cache t) (second : Starts held spent flight key thread t cache') :
    Starts held spent flight key thread cache cache' :=
  ⟨first.steady.trans second.steady, second.tended, first.standing ▸ second.new, first.standing ▸ second.standing,
    second.background.trans first.background⟩

namespace Tended

theorem hold {held' : Reach} (tended : cache.Tended held spent)
    (held_keys : ∀ flight load, cache.standing? flight = some load → ¬ spent flight → held' load.key.id = true) :
    cache.Tended held' spent := by
  intro index shard found
  refine (tended index shard found).hold fun id load issued running => ?_
  refine held_keys ⟨index, id⟩ load.standing ?_ running
  rw [standing?_eq, load?, found, Option.bind_some, issued, Option.map_some]

section Clock

variable [Clock τ]

theorem readClock (tended : cache.Tended held spent) : Drifts held spent cache cache.readClock.2 :=
  ⟨⟨rfl, rfl, rfl, rfl, rfl, rfl, rfl, rfl⟩, tended, rfl, rfl⟩

end Clock

theorem logged (tended : cache.Tended held spent) (event : LogEvent) : Drifts held spent cache (cache.logged event) :=
  ⟨⟨rfl, rfl, rfl, rfl, rfl, rfl, rfl, rfl⟩, tended, rfl, rfl⟩

theorem count (tended : cache.Tended held spent) (f : Stats → Stats) : Drifts held spent cache (cache.count f) := by
  obtain ⟨stats, counted⟩ := cache.count_eq f
  rw [counted]
  exact ⟨⟨rfl, rfl, rfl, rfl, rfl, rfl, rfl, rfl⟩, tended, rfl, rfl⟩

theorem noteRead (tended : cache.Tended held spent) (index : Nat) :
    Drifts held spent cache
      { cache with shards := cache.shards.modify index fun shard => { shard with reads := shard.reads + 1 } } where
  steady := ⟨rfl, rfl, rfl, rfl, rfl, rfl, rfl, Array.size_modify⟩
  tended := Each.modify tended index fun _ _ holds => holds
  standing := by
    funext flight
    simp only [standing?, Array.getElem?_modify]
    split
    · rw [Option.bind_map]
      rfl
    · rfl
  background := rfl

theorem modifyLoad (tended : cache.Tended held spent) (flight : Flight) {f : Load K V → Load K V}
    (kept : ∀ load, (f load).key = load.key ∧ (f load).displaced = load.displaced) :
    (cache.modifyLoad flight f).Tended held spent :=
  Each.modify tended flight.segment fun _ _ holds => holds.modifyLoad flight.load kept

theorem drifts {index : Nat} {f : Segment K V → Segment K V}
    (tended : (cache.changeSegment index f).Tended held spent)
    (same : ∀ shard, cache.shards[index]? = some shard → (f shard.segment).standings = shard.segment.standings) :
    Drifts held spent cache (cache.changeSegment index f) where
  steady := changeSegment_steady ..
  tended := tended
  standing := by
    funext flight
    rw [standing?_changeSegment]
    split
    · rename_i here
      rw [standing?, here]
      cases found : cache.shards[index]? with
      | none => rfl
      | some shard => rw [Option.bind_some, same shard found, Option.bind_some]
    · rfl
  background := background_changeSegment ..

theorem starts {index : Nat} {shard : Shard K V} {f : Segment K V → Segment K V}
    (tended : (cache.changeSegment index f).Tended held spent) (found : cache.shards[index]? = some shard)
    (pushed : (f shard.segment).standings = shard.segment.standings.push { key, owner := some thread }) :
    Starts held spent ⟨index, shard.segment.loads.size⟩ key thread cache (cache.changeSegment index f) where
  steady := changeSegment_steady ..
  tended := tended
  new := by simp [standing?, found, ← Segment.size_standings]
  standing := by
    funext flight
    rw [standing?_changeSegment, found, Option.bind_some, pushed, Array.getElem?_push, Segment.size_standings]
    obtain ⟨segment, load⟩ := flight
    by_cases here : segment = index
    · subst here
      by_cases new : load = shard.segment.loads.size
      · subst new
        rw [if_pos rfl, if_pos rfl, Function.update_self]
      · rw [if_pos rfl, if_neg new, Function.update_of_ne (by simp [new]), standing?, found]
        rfl
    · rw [if_neg here, Function.update_of_ne (by simp [here])]
  background := background_changeSegment ..

theorem issued {index : Nat} {shard : Shard K V} (tended : cache.Tended held spent)
    (found : cache.shards[index]? = some shard) {handle : Handle} {record : Entry K V} {id : LoadId}
    (live : shard.segment.bare? handle = some record) (carried : record.load? = some id) :
    (cache.standing? ⟨index, id⟩).isSome = true := by
  obtain ⟨_, load, known, _⟩ := (tended index shard found).flights.carried handle record id live carried
  rw [standing?_eq, load?, found, Option.bind_some, known]
  rfl

variable [DecidableEq K]

theorem operate {spent' : Flight → Prop} (tended : cache.Tended held spent)
    (honoured : cache.policy.Honours reach held) (index now : Nat) (op : Operation K V)
    (fits : ∀ shard, cache.shards[index]? = some shard →
      op.Fits (fun id => spent ⟨index, id⟩) held shard.segment)
    (elsewhere : ∀ flight, flight.segment ≠ index → (spent' flight ↔ spent flight))
    (here : ∀ id, spent' ⟨index, id⟩ ↔ op.endedAfter (fun id => spent ⟨index, id⟩) id) :
    (cache.changeSegment index (op.run cache.hash reach now)).Tended held spent' := by
  have unchanged (other : Nat) (shard : Shard K V) (found : cache.shards[other]? = some shard)
      (different : other ≠ index) :
      shard.segment.Tended cache.hash cache.policy held fun id => spent' ⟨other, id⟩ := by
    have same : (fun id => spent' ⟨other, id⟩) = fun id => spent ⟨other, id⟩ :=
      funext fun id => propext (elsewhere ⟨other, id⟩ different)
    rw [same]
    exact tended other shard found
  cases found : cache.shards[index]? with
  | none =>
      rw [changeSegment_of_none found]
      intro other shard found'
      apply unchanged other shard found'
      rintro rfl
      cases found.symm.trans found'
  | some shard =>
      obtain ⟨stats, log, changed⟩ := changeSegment_eq found (op.run cache.hash reach now)
      rw [changed]
      intro other shard' found'
      rw [Array.getElem?_setIfInBounds] at found'
      split at found'
      · rename_i same
        subst same
        split at found'
        · cases found'
          have same : (fun id => spent' ⟨index, id⟩) = op.endedAfter fun id => spent ⟨index, id⟩ :=
            funext fun id => propext (here id)
          rw [same]
          exact (tended index shard found).run honoured op (fits shard found)
        · cases found'
      · rename_i different
        exact unchanged other shard' found' (Ne.symm different)

theorem operate_running (tended : cache.Tended held spent) (honoured : cache.policy.Honours reach held)
    (index now : Nat) (op : Operation K V) (running : op.ends? = none)
    (reached : ∀ key, op.starts? = some key → held key.id = true) :
    (cache.changeSegment index (op.run cache.hash reach now)).Tended held spent := by
  refine tended.operate honoured index now op (fun _ _ => ⟨reached, ?_⟩) (fun _ _ => .rfl) fun id => ?_
  · rintro key id loaded rfl
    cases running
  · simp [Operation.endedAfter, running]

theorem idle (tended : cache.Tended held spent) (honoured : cache.policy.Honours reach held) (index now : Nat)
    (op : Operation K V) (running : op.ends? = none) (starts : op.starts? = none) :
    Drifts held spent cache (cache.changeSegment index (op.run cache.hash reach now)) := by
  apply drifts
  · exact tended.operate_running honoured index now op running fun key started => by cases starts.symm.trans started
  · intro shard found
    have consistent := (tended index shard found).consistent
    exact (consistent.runs cache.hash reach now op).standings consistent starts

theorem claim (tended : cache.Tended held spent) (honoured : cache.policy.Honours reach held) (now : Nat)
    (thread : ThreadId) (reached : held key.id = true) {index : Nat} {shard : Shard K V}
    (found : cache.shards[index]? = some shard) :
    Claims held spent index key thread cache
      (cache.changeSegment index ((Operation.claim thread key).run cache.hash reach now))
      (shard.segment.claim reach now thread key (cache.hash key.data)).1 := by
  have answers := (tended index shard found).consistent.claim_answers reach now thread key (cache.hash key.data)
  have tended' : (cache.changeSegment index ((Operation.claim thread key).run cache.hash reach now)).Tended
      held spent := by
    apply tended.operate_running honoured index now (.claim thread key) rfl
    rintro _ ⟨⟩
    exact reached
  have drifts (same : (shard.segment.claim reach now thread key (cache.hash key.data)).2.standings =
      shard.segment.standings) :
      Drifts held spent cache (cache.changeSegment index ((Operation.claim thread key).run cache.hash reach now)) := by
    refine tended'.drifts fun shard' found' => ?_
    cases found.symm.trans found'
    exact same
  obtain ⟨shard', found', segment⟩ := getElem?_changeSegment found
    ((Operation.claim thread key).run cache.hash reach now)
  generalize (shard.segment.claim reach now thread key (cache.hash key.data)).1 = claim at answers ⊢
  cases claim with
  | granted id =>
      obtain ⟨rfl, pushed⟩ := answers
      exact .granted (tended'.starts found pushed)
  | taken id =>
      obtain ⟨same, handle, record, live, carried⟩ := answers
      have live' : shard'.segment.bare? handle = some record := by
        rw [segment]
        exact live
      exact .taken (drifts same) (tended'.issued found' live' carried)
  | needless value => exact .needless (drifts answers)

theorem claimRefresh (tended : cache.Tended held spent) (honoured : cache.policy.Honours reach held) (now : Nat)
    (thread : ThreadId) (reached : held key.id = true) (index : Nat) (force : Bool) :
    ((cache.onSegment index none (·.claimRefresh reach now thread key (cache.hash key.data) force)).1 = none ∧
      Drifts held spent cache
        (cache.changeSegment index ((Operation.claimRefresh thread key force).run cache.hash reach now))) ∨
    ∃ id old,
      (cache.onSegment index none (·.claimRefresh reach now thread key (cache.hash key.data) force)).1 =
        some (id, old) ∧
      Starts held spent ⟨index, id⟩ key thread cache
        (cache.changeSegment index ((Operation.claimRefresh thread key force).run cache.hash reach now)) := by
  rw [onSegment_fst]
  have tended' : (cache.changeSegment index
      ((Operation.claimRefresh thread key force).run cache.hash reach now)).Tended held spent := by
    apply tended.operate_running honoured index now (.claimRefresh thread key force) rfl
    rintro _ ⟨⟩
    exact reached
  cases found : cache.shards[index]? with
  | none => exact .inl ⟨rfl, tended'.drifts fun shard' found' => by cases found.symm.trans found'⟩
  | some shard =>
      rw [Option.elim_some]
      rcases shard.segment.claimRefresh_answers reach now thread key (cache.hash key.data) force with
        ⟨none, same⟩ | ⟨old, claimed, pushed⟩
      · refine .inl ⟨none, tended'.drifts fun shard' found' => ?_⟩
        cases found.symm.trans found'
        dsimp only [Operation.run]
        rw [same]
      · exact .inr ⟨_, old, claimed, tended'.starts found pushed⟩

end Tended

end Cache
end SegmentedCache
