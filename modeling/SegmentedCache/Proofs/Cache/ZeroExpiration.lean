import SegmentedCache.Proofs.Cache.Causes
import SegmentedCache.Proofs.Cache.Delivery
import SegmentedCache.Proofs.Cache.ReadBack
import SegmentedCache.Proofs.Cache.Reading

namespace SegmentedCache

/-!
An expiration of zero. It bounds the weight of the cache to zero, so that a value that weighs something is evicted
by the operation that brings it. One that weighs nothing stays.
-/

variable {K V τ : Type}

def Request.missing? : Request K V → Option (Reply K V)
  | .lookup _ => some (.value none)
  | .contains _ => some (.flag false)
  | .entries => some (.entries [])
  | _ => none

namespace Cache

variable [DecidableEq K] [Clock τ] {config : Config K V} {hash : K → UInt64} {clock : τ} {cache : Cache K V τ}
  {past : List (Moment K V τ)} {held reach : Reach} {thread : ThreadId}

omit [DecidableEq K] [Clock τ] in
theorem steadfast_vacant : Steadfast fun t : Cache K V τ => t.pairs = [] :=
  ⟨fun _ _ same vacant => by rwa [pairs, same.shards]⟩

section Vacant

variable (vacant : cache.pairs = [])

include vacant

omit [Clock τ] in
theorem holdsAt_of_vacant (reach : Reach) (now : Nat) (key : K) : cache.holdsAt reach now key = false := by
  rw [holdsAt]
  cases found : cache.shards[cache.segmentOf key]? with
  | none => rfl
  | some shard => rw [Option.any_some, (pairs_eq_nil.mp vacant _ _ found).contains]

theorem lookup_of_vacant (reach : Reach) (key : K) :
    ∃ due, Due due ∧ (cache.lookup reach key).2 = due ++ [.give (.value none)] := by
  have missed := cache.holdsAt_eq reach key
  rw [holdsAt_of_vacant vacant, eq_comm, Option.isSome_eq_false_iff, Option.isNone_iff_eq_none] at missed
  exact missed ▸ cache.lookup_frames reach key

theorem startRequest_of_vacant {request : Request K V} {reply : Reply K V} (reads : request.missing? = some reply)
    (reach : Reach) (thread : ThreadId) :
    ∃ due, Due due ∧ (cache.startRequest reach thread request).2 = due ++ [.give reply] := by
  cases request with
  | lookup key =>
      cases reads
      exact lookup_of_vacant vacant reach key
  | contains key =>
      cases reads
      have missed := holdsAt_of_vacant vacant reach cache.readClock.1 key
      exact ⟨[], .inl rfl, congrArg (fun live => [Frame.give (.flag live)]) missed⟩
  | entries =>
      cases reads
      have nothing : cache.shards.toList.flatMap (fun shard => shard.segment.toList reach cache.readClock.1) = [] := by
        rw [List.flatMap_eq_nil_iff]
        intro shard member
        obtain ⟨index, found⟩ := Array.mem_iff_getElem?.mp (Array.mem_toList_iff.mp member)
        exact (pairs_eq_nil.mp vacant index shard found).toList reach cache.readClock.1
      exact ⟨[], .inl rfl, congrArg (fun entries => [Frame.give (.entries entries)]) nothing⟩
  | _ => cases reads

theorem find_of_vacant (reach : Reach) (key : Shared K) (source : Source) :
    (∃ load, (cache.find reach key source).2 = [.await key ⟨cache.segmentOf key.data, load⟩]) ∨
      ∃ now, (cache.find reach key source).2 = [.claim key source now] := by
  have seeking := cache.seeking reach key source
  generalize cache.find reach key source = result at seeking ⊢
  cases seeking with
  | served live | overdue live =>
      have held := (cache.live_iff_holdsAt reach key.data).mp ⟨_, _, live⟩
      cases (holdsAt_of_vacant vacant reach _ key.data).symm.trans held
  | joined => exact .inl ⟨_, rfl⟩
  | missed => exact .inr ⟨_, rfl⟩

omit [Clock τ] in
theorem claim_of_vacant {spent : Flight → Prop} (tended : cache.Tended held spent) {key : Shared K}
    (inside : cache.segmentOf key.data < cache.shards.size) (reach : Reach) (thread : ThreadId) (source : Source)
    (now : Nat) : ∃ claim, (∀ value, claim ≠ .needless value) ∧
      (cache.claim reach thread key source now).2 =
        [.deliver, .claimed key source (cache.segmentOf key.data) claim] := by
  have found : cache.shards[cache.segmentOf key.data]? = some cache.shards[cache.segmentOf key.data] :=
    Array.getElem?_eq_getElem inside
  have shard := tended _ _ found
  have needed := shard.consistent.needless_iff (shard.keyed reach) now thread key
  rw [(pairs_eq_nil.mp vacant _ _ found).contains] at needed
  rw [claim_eq, found]
  exact ⟨_, fun value needless => Bool.false_ne_true (needed.mp ⟨value, needless⟩), rfl⟩

end Vacant

theorem goes_missing {request : Request K V} {reply : Reply K V} (reads : request.missing? = some reply) :
    Goes held thread (fun _ given _ => given = reply) (fun t : Cache K V τ => t.pairs = []) [.start request] := by
  have anything : Steadfast fun _ : Cache K V τ => True := ⟨fun _ _ _ _ => trivial⟩
  apply Goes.work rfl
  intro t reach vacant
  obtain ⟨due, isDue, frames⟩ := startRequest_of_vacant vacant reads reach thread
  refine ⟨_, anything, trivial, ?_⟩
  show Goes held thread _ _ ((t.startRequest reach thread request).2 ++ [])
  rw [frames, List.append_nil]
  exact isDue.goes anything (Goes.give anything fun _ _ => rfl)

theorem Recorded.weigh_eq_zero {accepted : List (K × Shared V)} {notified : List (Removal K V)}
    (recorded : Recorded config hash clock cache accepted notified) (nothing : config.keepsNothing = true)
    {pair : K × Shared V} (member : pair ∈ cache.pairs) : config.weigh pair.1 pair.2.data = 0 := by
  obtain ⟨shard, inside, there⟩ := List.mem_flatMap.mp member
  obtain ⟨index, found⟩ := Array.mem_iff_getElem?.mp (Array.mem_toList_iff.mp inside)
  have weighed := recorded.weighed index shard found
  have limit : shard.segment.bound.limit = some 0 := by
    simp [weighed.bound, Bound.share, Config.bound, nothing]
  rw [← weigh_create config hash clock, ← weighed.policy]
  exact weighed.segment.weigh_eq_zero limit there

theorem History.vacant (history : History config hash clock past cache) (nothing : config.keepsNothing = true)
    (weighs : ∀ moment ∈ past, ∀ pair ∈ moment.accepts, 0 < config.weigh pair.1 pair.2.data) :
    cache.pairs = [] := by
  induction history with
  | create => exact pairs_create config hash clock
  | @step past cache history held event ih =>
      have before := ih fun moment member => weighs moment (List.mem_append_left _ member)
      have balance := history.recorded.composed.balance held event
      rw [before, Multiset.coe_nil, zero_add] at balance
      rw [List.eq_nil_iff_forall_not_mem]
      intro pair member
      have light := (history.step held event).recorded.weigh_eq_zero nothing member
      have accepted : pair ∈ (cache.accepts held event : Multiset (K × Shared V)) :=
        balance ▸ Multiset.mem_add.mpr (.inl (Multiset.mem_coe.mpr member))
      have heavy := weighs _ (List.mem_append_right _ List.mem_cons_self) pair (Multiset.mem_coe.mp accepted)
      exact heavy.ne' light

theorem Recorded.size_of_vacant {accepted : List (K × Shared V)} {notified : List (Removal K V)}
    (recorded : Recorded config hash clock cache accepted notified) (vacant : cache.pairs = []) : cache.size = 0 := by
  rw [size_eq_sum, List.sum_eq_zero_iff]
  intro count member
  obtain ⟨shard, inside, rfl⟩ := List.mem_map.mp member
  obtain ⟨index, found⟩ := Array.mem_iff_getElem?.mp (Array.mem_toList_iff.mp inside)
  have weighed := recorded.weighed index shard found
  rw [weighed.published]
  exact (pairs_eq_nil.mp vacant index shard found).count weighed.segment.consistent

theorem Composed.reports_eq (composed : cache.Composed) {event : Event K V τ} (before : cache.pairs = [])
    (after : (cache.step held event).1.pairs = []) :
    (cache.reports held event).map Removal.pair = cache.accepts held event := by
  have balance := composed.balance held event
  have accepts := cache.accepts_cases held event
  rw [before, after, Multiset.coe_nil, zero_add, zero_add, Multiset.coe_eq_coe] at balance
  generalize cache.accepts held event = accepted at balance accepts ⊢
  cases accepts with
  | nothing => exact List.perm_nil.mp balance
  | put | loaded => exact List.perm_singleton.mp balance

theorem History.reports_of_vacant (history : History config hash clock past cache)
    (proper : ∀ moment ∈ past, moment.IsProper) (nothing : config.keepsNothing = true)
    (weighs : ∀ moment ∈ past, ∀ pair ∈ moment.accepts, 0 < config.weigh pair.1 pair.2.data)
    {moment : Moment K V τ} (member : moment ∈ past) :
    moment.reports.map Removal.pair = moment.accepts ∧
      ∀ removal ∈ moment.reports, removal.cause = moment.displaced?.getD .size := by
  obtain ⟨earlier, later, split⟩ := List.append_of_mem member
  obtain ⟨led, leads⟩ := history.of_append split
  have known (moment' : Moment K V τ) (there : moment' ∈ earlier ++ [moment]) : moment' ∈ past := by
    rw [split, List.append_cons]
    exact List.mem_append_left _ there
  have known' (moment' : Moment K V τ) (there : moment' ∈ earlier) : moment' ∈ past :=
    known moment' (List.mem_append_left _ there)
  have before := led.vacant nothing fun moment' there => weighs moment' (known' moment' there)
  have after := leads.vacant nothing fun moment' there => weighs moment' (known moment' there)
  have supervised := led.supervised fun moment' there => proper moment' (known' moment' there)
  have composed := led.recorded.composed
  exact ⟨composed.reports_eq before after, fun removal reported =>
    supervised.causes composed before moment.held moment.event reported⟩

structure Forgets (config : Config K V) (past : List (Moment K V τ)) (cache : Cache K V τ) : Prop where
  empty : cache.size = 0 ∧ cache.pairs = []
  missed : ∀ thread arguments request rest outer reply,
    cache.callsOf thread = ⟨arguments, .start request :: rest⟩ :: outer →
    request.missing? = some reply → ∀ held,
      ∃ due, Due due ∧ (cache.step held (.proceed thread)).1.callsOf thread =
        ⟨arguments, due ++ .give reply :: rest⟩ :: outer
  answered : ∀ held thread request reply, request.missing? = some reply →
    Completes held thread (fun _ given _ => given = reply) (cache.step held (.call thread request)).1
  loads : ∀ thread arguments key source rest outer,
    cache.callsOf thread = ⟨arguments, .find key source :: rest⟩ :: outer → ∀ held,
      (∃ load, (cache.step held (.proceed thread)).1.callsOf thread =
        ⟨arguments, .await key ⟨cache.segmentOf key.data, load⟩ :: rest⟩ :: outer) ∨
      ∃ now, (cache.step held (.proceed thread)).1.callsOf thread =
        ⟨arguments, .claim key source now :: rest⟩ :: outer
  claims : ∀ thread arguments key source now rest outer,
    cache.callsOf thread = ⟨arguments, .claim key source now :: rest⟩ :: outer → ∀ held,
      ∃ claim, (∀ value, claim ≠ .needless value) ∧ (cache.step held (.proceed thread)).1.callsOf thread =
        ⟨arguments, .deliver :: .claimed key source (cache.segmentOf key.data) claim :: rest⟩ :: outer
  concludes : ∀ thread arguments key flight started source purpose rest outer,
    cache.callsOf thread = ⟨arguments, .loading key flight started source purpose :: rest⟩ :: outer →
    ∀ held value,
      (cache.step held (.loaderEnded thread (.value value))).1.callsOf thread =
        ⟨arguments, .deliver :: .settle flight (.ok value) :: .conclude source purpose (.ok value) :: rest⟩ :: outer
  given : ∀ thread arguments key flight started source purpose objects outer,
    cache.callsOf thread = ⟨arguments, [.loading key flight started source purpose, .holding objects]⟩ :: outer →
      ∀ held value, Completes held thread (fun _ reply _ => reply = purpose.reply value)
        (cache.step held (.loaderEnded thread (.value value))).1
  /-- What is accepted is reported at once. It leaves for its size, unless another operation took the entry of its
  load. -/
  reported : ∀ moment ∈ past, moment.reports.map Removal.pair = moment.accepts ∧
    ∀ removal ∈ moment.reports, removal.cause = moment.displaced?.getD .size
  told : config.listens = true →
    past.flatMap Moment.reports = past.flatMap Moment.notifies ++ cache.undelivered ∧
      ((∀ thread, cache.callsOf thread = []) → cache.undelivered = [])

theorem forgets_of_history (history : History config hash clock past cache)
    (proper : ∀ moment ∈ past, moment.IsProper) (nothing : config.keepsNothing = true)
    (weighs : ∀ moment ∈ past, ∀ pair ∈ moment.accepts, 0 < config.weigh pair.1 pair.2.data) :
    Forgets config past cache := by
  have vacant := history.vacant nothing weighs
  have supervised := history.supervised proper
  have composed := history.recorded.composed
  refine ⟨⟨history.recorded.size_of_vacant vacant, vacant⟩, ?_, ?_, ?_, ?_, ?_, ?_, ?_, ?_⟩
  · intro thread arguments request rest outer reply here reads held
    obtain ⟨due, isDue, frames⟩ := startRequest_of_vacant vacant reads (cache.reach held) thread
    refine ⟨due, isDue, ?_⟩
    rw [step, proceed_of_active here rfl, callsOf_setCalls, if_pos rfl]
    show ⟨arguments, (cache.startRequest (cache.reach held) thread request).2 ++ rest⟩ :: outer = _
    rw [frames, List.append_assoc, List.singleton_append]
  · exact fun held thread request reply reads => (goes_missing reads).call steadfast_vacant vacant
  · intro thread arguments key source rest outer here held
    rw [step, proceed_of_active here rfl, callsOf_setCalls, if_pos rfl]
    refine (find_of_vacant vacant (cache.reach held) key source).imp ?_ ?_
    · rintro ⟨load, frames⟩
      exact ⟨load, by rw [work, frames]; rfl⟩
    · rintro ⟨now, frames⟩
      exact ⟨now, by rw [work, frames]; rfl⟩
  · intro thread arguments key source now rest outer here held
    obtain ⟨claim, needed, frames⟩ := claim_of_vacant vacant (supervised.tended_spared held)
      (composed.orderly.chosen key.data) (cache.reach held) thread source now
    refine ⟨claim, needed, ?_⟩
    rw [step, proceed_of_active here rfl, callsOf_setCalls, if_pos rfl, work, frames]
    rfl
  · intro thread arguments key flight started source purpose rest outer here held value
    simp only [step, here, callsOf_setCalls, if_pos]
    rfl
  · intro thread arguments key flight started source purpose objects outer here held value
    have anything : Steadfast fun _ : Cache K V τ => True := ⟨fun _ _ _ _ => trivial⟩
    have concluded : Completes held thread (fun _ reply t => reply = purpose.reply value ∧ True)
        (cache.step held (.loaderEnded thread (.value value))).1 := by
      simp only [step, here]
      exact (goes_concluded anything fun _ _ => trivial).resume anything trivial
        ⟨rfl, rfl, rfl, rfl, rfl⟩ arguments outer
    exact concluded.imp fun _ _ _ done => done.1
  · exact fun moment member => history.reports_of_vacant proper nothing weighs member
  · intro listens
    refine ⟨history.reported listens, fun idle => ?_⟩
    have attentive := (history.recorded.invariant listens).1
    by_contra waiting
    obtain ⟨thread, call, member, _⟩ := attentive.due waiting
    rw [idle thread] at member
    cases member

theorem forgets_after_overtaking :
    let moves (thread : ThreadId) (steps : Nat) : List (Event Nat Nat ManualClock) := .replicate steps (.proceed thread)
    let config : Config Nat Nat :=
      { initialCapacity := 1, concurrencyLevel := 1, maximum := some 100, weigher := some fun _ value => value,
        expireAfterWrite := some ⟨0, 0, by decide⟩, listens := true }
    let events := .call 0 (.get ⟨0, 7⟩) :: moves 0 6 ++ .call 1 (.insert ⟨1, 7⟩ ⟨2, 70⟩) :: moves 1 3 ++
      .listenerEnded 1 .quiet :: moves 1 2 ++ .loaderEnded 0 (.value ⟨3, 71⟩) :: moves 0 2 ++
      .listenerEnded 0 .quiet :: moves 0 5 ++ .call 0 (.get ⟨4, 8⟩) :: moves 0 6 ++
      .loaderEnded 0 (.value ⟨5, 80⟩) :: moves 0 2 ++ .listenerEnded 0 .quiet :: moves 0 5
    let run := (create config (fun _ => 3) {}).run (fun _ => true) events
    (run.1.flatMap Moment.notifies).map (fun removal => (removal.pair, removal.cause)) =
        [((7, ⟨2, 70⟩), .size), ((7, ⟨3, 71⟩), .replaced), ((8, ⟨5, 80⟩), .size)] ∧
      (run.1.filterMap fun moment => match moment.signal with
        | .returned (.outcome outcome) => outcome.toOption
        | _ => none) = [⟨3, 71⟩, ⟨5, 80⟩] ∧
      Forgets config run.1 run.2 := by
  intro moves config events run
  have history : History config (fun _ => 3) {} run.1 run.2 := History.create.run (fun _ => true) events
  have weighs : ∀ moment ∈ run.1, ∀ pair ∈ moment.accepts, 0 < config.weigh pair.1 pair.2.data := by
    decide +kernel
  exact ⟨by decide +kernel, by decide +kernel,
    forgets_of_history history (proper_of_run (by simp [events, moves])) (by decide) weighs⟩

theorem keeps_what_weighs_nothing :
    let config : Config Nat Nat :=
      { initialCapacity := 1, concurrencyLevel := 1, maximum := some 100, weigher := some fun _ _ => 0,
        expireAfterWrite := some ⟨0, 0, by decide⟩ }
    let held : Reach := fun _ => true
    let events : List (Event Nat Nat ManualClock) :=
      .call 0 (.insert ⟨0, 7⟩ ⟨1, 70⟩) :: .replicate 3 (.proceed 0)
    let run := (create config (fun _ => 3) {}).run held events
    History config (fun _ => 3) {} run.1 run.2 ∧ config.keepsNothing = true ∧ run.2.size = 1 ∧
      ¬ Completes held 0 (fun _ reply _ => reply = .value none) (run.2.step held (.call 0 (.lookup 7))).1 ∧
        ¬ Forgets config run.1 run.2 := by
  intro config held events run
  have history : History config (fun _ => 3) {} run.1 run.2 := History.create.run held events
  have size : run.2.size = 1 := by decide +kernel
  obtain ⟨⟨_, reply, _⟩, looked_up, there⟩ :
      ∃ looked : List (LoaderEnd Nat × Nat) × Reply Nat Nat × Cache Nat Nat ManualClock,
        (run.2.step held (.call 0 (.lookup 7))).1.serve (fun _ _ => false) held 0 9 [] = some looked ∧
          Reply.data? looked.2.1 = some 70 :=
    ⟨_, (Option.some_get (by decide +kernel)).symm, by decide +kernel⟩
  refine ⟨history, by decide, size, fun completes => ?_, fun forgets => ?_⟩
  · have missed := completes.of_serves (serves_of_serve (by simp) looked_up)
    cases missed
    cases there
  · cases size.symm.trans forgets.empty.1

end Cache
end SegmentedCache
