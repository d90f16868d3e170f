import SegmentedCache.Proofs.Cache.Reports
import SegmentedCache.Proofs.Cache.Settlement
import SegmentedCache.Proofs.Segment.Vacancy

namespace SegmentedCache

/-!
Why values leave a cache that held none before. A load may have lost its entry to another operation by the time that it
gives a value. Then the value leaves for the cause for which the entry did.
-/

variable {K V τ : Type}

namespace Cache

def displaced? (cache : Cache K V τ) : Event K V τ → Option Cause
  | .loaderEnded thread _ =>
      match cache.callsOf thread with
      | { frames := .loading _ flight .. :: _, .. } :: _ => (cache.load? flight).bind (·.displaced)
      | _ => none
  | _ => none

end Cache

def Moment.displaced? (moment : Moment K V τ) : Option Cause :=
  moment.cache.displaced? moment.event

namespace Cache

variable {cache : Cache K V τ} {held reach : Reach} {removal : Removal K V}

inductive Accepts (cache : Cache K V τ) : Event K V τ → List (K × Shared V) → Prop where
  | nothing (event : Event K V τ) : Accepts cache event []
  | put {thread : ThreadId} {arguments : List ObjectId} {request : Request K V} {key : Shared K} {value : Shared V}
      {rest : List (Frame K V)} {outer : List (Call K V)}
      (here : cache.callsOf thread = ⟨arguments, .start request :: rest⟩ :: outer) (onlyIfNew : Bool)
      (asks : request = bif onlyIfNew then .insertIfNew key value else .insert key value) :
      Accepts cache (.proceed thread) [(key.data, value)]
  | loaded {thread : ThreadId} {arguments : List ObjectId} {key : Shared K} {flight : Flight} {started : Nat}
      {source : Source} {purpose : Purpose V} {rest : List (Frame K V)} {outer : List (Call K V)}
      (here : cache.callsOf thread = ⟨arguments, .loading key flight started source purpose :: rest⟩ :: outer)
      (value : Shared V) : Accepts cache (.loaderEnded thread (.value value)) [(key.data, value)]

variable [DecidableEq K] [Clock τ]

theorem accepts_cases (cache : Cache K V τ) (held : Reach) (event : Event K V τ) :
    cache.Accepts event (cache.accepts held event) := by
  cases event with
  | call | listenerEnded | setClock | contend | closeBackground => exact .nothing _
  | loaderEnded thread ending =>
      dsimp only [accepts]
      split
      · rename_i here
        exact .loaded here _
      · exact .nothing _
  | proceed thread =>
      dsimp only [accepts]
      split
      · rename_i arguments request rest outer here
        cases request with
        | insert key value => exact .put here false rfl
        | insertIfNew key value =>
            dsimp only [storedBy]
            split
            · exact .nothing _
            · exact .put here true rfl
        | _ => exact .nothing _
      · exact .nothing _

omit [DecidableEq K] [Clock τ] in
theorem pairs_eq_nil : cache.pairs = [] ↔ cache.Each fun _ shard => shard.segment.Vacant := by
  rw [pairs, List.flatMap_eq_nil_iff]
  constructor
  · exact fun vacant index shard found => vacant shard (Array.mem_toList_iff.mpr (Array.mem_of_getElem? found))
  · intro vacant shard member
    obtain ⟨index, found⟩ := Array.mem_iff_getElem?.mp (Array.mem_toList_iff.mp member)
    exact vacant index shard found

omit [Clock τ] in
theorem Tended.causes {spent : Flight → Prop} (tended : cache.Tended held spent)
    (honoured : cache.policy.Honours reach held) (orderly : cache.Orderly) (vacant : cache.pairs = [])
    (told : cache.undelivered = []) {index now : Nat} (op : Operation K V)
    (fits : ∀ shard, cache.shards[index]? = some shard →
      op.Fits (fun id => spent ⟨index, id⟩) held shard.segment)
    (reached : op.Reached cache.policy reach)
    (member : removal ∈ (cache.changeSegment index (op.run cache.hash reach now)).undelivered) :
    ∃ shard, cache.shards[index]? = some shard ∧ removal.cause = (op.displaced? shard.segment).getD .size := by
  cases found : cache.shards[index]? with
  | none =>
      rw [changeSegment_of_none found, told] at member
      cases member
  | some shard =>
      obtain ⟨stats, log, changed⟩ := changeSegment_eq found (op.run cache.hash reach now)
      have reported : removal ∈ (op.run cache.hash reach now shard.segment).removals := by
        rw [changed, told] at member
        split at member
        · exact member
        · cases member
      have known := tended index shard found
      have runs := known.consistent.runs cache.hash reach now op
      rw [← known.policy_eq] at honoured reached
      exact ⟨shard, rfl, runs.causes known.consistent (known.keyed reach) known.flights honoured (fits shard found)
        (pairs_eq_nil.mp vacant index shard found) (orderly.shards index shard found).2 reached reported⟩

namespace Supervised

variable {ended : List (Ending K V)} {settled : List (Verdict V)} (supervised : cache.Supervised ended settled)

include supervised

omit [DecidableEq K] [Clock τ] in
theorem put_reached {thread : ThreadId} {arguments : List ObjectId} {request : Request K V} {key : Shared K}
    {value : Shared V} {rest : List (Frame K V)} {outer : List (Call K V)}
    (here : cache.callsOf thread = ⟨arguments, .start request :: rest⟩ :: outer)
    (objects : request.objects = [key.id, value.id]) (held : Reach) (onlyIfNew : Bool) :
    (Operation.insert key value onlyIfNew).Reached cache.policy (cache.reach held) := by
  have known : (⟨arguments, .start request :: rest⟩ : Call K V) ∈ cache.callsOf thread :=
    here ▸ List.mem_cons_self
  have begun := supervised.begun thread _ known request List.mem_cons_self
  have spared (object : ObjectId) (given : object ∈ request.objects) :
      cache.policy.spared (cache.reach held) object = true :=
    spared_of_mem_objects held (mem_objects known (.inl (begun ▸ given)))
  have key_reached := Policy.reaches_of_spared (spared key.id (by simp [objects]))
  have value_reached := Policy.reaches_of_spared (spared value.id (by simp [objects]))
  exact ⟨key_reached.1, value_reached.2⟩

omit [DecidableEq K] [Clock τ] in
theorem loaded_reached {thread : ThreadId} {arguments : List ObjectId} {key : Shared K} {flight : Flight}
    {started : Nat} {source : Source} {purpose : Purpose V} {rest : List (Frame K V)} {outer : List (Call K V)}
    (here : cache.callsOf thread = ⟨arguments, .loading key flight started source purpose :: rest⟩ :: outer)
    (held : Reach) (loaded : Option (Shared V)) :
    (Operation.finishLoad key flight.load loaded).Reached cache.policy
      fun object => cache.reach held object || loaded.any (·.id = object) := by
  cases loaded with
  | none => trivial
  | some value =>
      have spared := supervised.spared held (mem_tasks here rfl)
      have wider (object : ObjectId) (reached : cache.reach held object = true) :
          (cache.reach held object || (some value).any (·.id = object)) = true := by
        rw [reached, Bool.true_or]
      refine ⟨Strength.reaches_mono wider (Policy.reaches_of_spared spared).1, ?_⟩
      cases cache.policy.valueStrength <;> simp [Strength.reaches]

variable (composed : cache.Composed) (vacant : cache.pairs = [])

include composed vacant

theorem put_causes {thread : ThreadId} {arguments : List ObjectId} {request : Request K V} {key : Shared K}
    {value : Shared V} {rest : List (Frame K V)} {outer : List (Call K V)}
    (here : cache.callsOf thread = ⟨arguments, .start request :: rest⟩ :: outer) {onlyIfNew : Bool}
    (asks : request = bif onlyIfNew then .insertIfNew key value else .insert key value)
    (member : removal ∈ cache.reports held (.proceed thread)) : removal.cause = .size := by
  have objects : request.objects = [key.id, value.id] := by
    rw [asks]
    cases onlyIfNew <;> rfl
  have stored : (cache.heard.work (cache.reach held) thread (.start request)).1 =
      cache.heard.readClock.2.changeSegment (cache.segmentOf key.data)
        ((Operation.insert key value onlyIfNew).run cache.hash (cache.reach held) cache.readClock.1) := by
    rw [asks]
    cases onlyIfNew
    all_goals
      exact onSegment_snd cache.heard.readClock.2 _ none
        (·.insert (cache.reach held) cache.readClock.1 key (cache.hash key.data) value _)
  rw [reports_of_calls here, stored] at member
  have tended : cache.heard.readClock.2.Tended _ _ := supervised.tended_spared held
  obtain ⟨_, _, cause⟩ := tended.causes (cache.policy.honours_spared _) composed.orderly.heard.readClock vacant rfl
    (.insert key value onlyIfNew) (fun _ _ => ⟨nofun, nofun⟩)
    (supervised.put_reached here objects held onlyIfNew) member
  exact cause

theorem loaded_causes {thread : ThreadId} {arguments : List ObjectId} {key : Shared K} {flight : Flight} {started : Nat}
    {source : Source} {purpose : Purpose V} {rest : List (Frame K V)} {outer : List (Call K V)}
    (here : cache.callsOf thread = ⟨arguments, .loading key flight started source purpose :: rest⟩ :: outer)
    {value : Shared V} (member : removal ∈ cache.reports held (.loaderEnded thread (.value value))) :
    removal.cause = ((cache.load? flight).bind (·.displaced)).getD .size := by
  obtain ⟨own, running⟩ := supervised.own here rfl
  have wider (object : ObjectId) (reached : cache.reach held object = true) :
      (cache.reach held object || (some value).any (·.id = object)) = true := by
    rw [reached, Bool.true_or]
  obtain ⟨stats, counted⟩ := count_eq cache.heard.readClock.2 (·.countLoad (cache.heard.readClock.1 - started))
  rw [reports_of_loading here] at member
  simp only [endLoader, counted, Cache.finishLoad] at member
  have tended : Cache.Tended _ _ { cache.heard.readClock.2 with stats } := supervised.tended_spared held
  have orderly : Cache.Orderly { cache.heard.readClock.2 with stats } :=
    ⟨composed.orderly.shards, composed.orderly.chosen, composed.orderly.reloads⟩
  obtain ⟨shard, found, cause⟩ := tended.causes ((cache.policy.honours_spared _).mono wider) orderly vacant rfl
    (.finishLoad key flight.load (some value)) (fun shard found => fits_of_own own running (some value) found)
    (supervised.loaded_reached here held (some value)) member
  have issued : cache.shards[flight.segment]? = some shard := found
  rw [cause, load?, issued]
  rfl

theorem causes (held : Reach) (event : Event K V τ) (member : removal ∈ cache.reports held event) :
    removal.cause = (cache.displaced? event).getD .size := by
  have balance := composed.balance held event
  have accepts := cache.accepts_cases held event
  generalize cache.accepts held event = accepted at balance accepts
  cases accepts with
  | nothing =>
      rw [vacant, Multiset.coe_nil, add_zero, Multiset.coe_add, Multiset.coe_eq_zero, List.append_eq_nil_iff,
        List.map_eq_nil_iff] at balance
      rw [balance.2] at member
      cases member
  | put here onlyIfNew asks => exact supervised.put_causes composed vacant here asks member
  | loaded here value =>
      simp only [displaced?, here]
      exact supervised.loaded_causes composed vacant here member

end Supervised

end Cache
end SegmentedCache
