import SegmentedCache.Proofs.Cache.Settlement
import SegmentedCache.Proofs.Segment.FailedLoads

namespace SegmentedCache.Cache

/-!
All the ways in which a load ends without a value come down to one operation on its segment.
-/

variable {K V τ : Type} [DecidableEq K] [Clock τ] {config : Config K V} {hash : K → UInt64} {clock : τ}
  {past : List (Moment K V τ)} {cache cache' : Cache K V τ} {held : Reach} {thread : ThreadId} {key : Shared K}
  {flight : Flight}

/-- The steps in which a load ends without a value: its loader gave none, failed or panicked, or its refresh was dropped
before anybody ran it. -/
inductive Fails (held : Reach) (thread : ThreadId) (key : Shared K) (flight : Flight) (cache : Cache K V τ) :
    Cache K V τ → Prop where
  | ended {arguments : List ObjectId} {started : Nat} {source : Source} {purpose : Purpose V}
      {frames : List (Frame K V)} {calls : List (Call K V)}
      (running : cache.callsOf thread = ⟨arguments, .loading key flight started source purpose :: frames⟩ :: calls)
      (ending : LoaderEnd V) (empty : ∀ value, ending ≠ .value value) :
      Fails held thread key flight cache (cache.step held (.loaderEnded thread ending)).1
  | dropped {arguments : List ObjectId} {frames : List (Frame K V)} {calls : List (Call K V)}
      (running : cache.callsOf thread = ⟨arguments, .cancel key flight :: frames⟩ :: calls) :
      Fails held thread key flight cache (cache.step held (.proceed thread)).1

/-- There are no other ways: whatever else ends a load gives a value. -/
theorem fails_of_ends {event : Event K V τ} {ending : Ending K V} (held : Reach) (ends : ending ∈ cache.ends event)
    (empty : ending.outcome.toOption = none) :
    ∃ thread, Fails held thread ending.task.key ending.task.flight cache (cache.step held event).1 := by
  cases event with
  | proceed thread =>
      dsimp only [Cache.ends] at ends
      split at ends
      · rename_i arguments frame frames calls running
        cases frame with
        | cancel =>
            cases List.mem_singleton.mp ends
            exact ⟨thread, .dropped running⟩
        | _ => cases ends
      · cases ends
  | loaderEnded thread ended =>
      dsimp only [Cache.ends] at ends
      split at ends
      · rename_i running
        cases List.mem_singleton.mp ends
        refine ⟨thread, .ended running ended ?_⟩
        rintro value rfl
        cases empty
      · cases ends
  | _ => cases ends

def isReading (cache : Cache K V τ) (now : Nat) : Prop :=
  now = cache.readClock.1 ∨ now = cache.readClock.2.readClock.1

theorem finishLoad_of_endLoader (cache : Cache K V τ) (reach : Reach) (key : Shared K) (flight : Flight)
    (started : Nat) (source : Source) (purpose : Purpose V) {ending : LoaderEnd V}
    (empty : ∀ value, ending ≠ .value value) :
    ∃ now clock stats, cache.isReading now ∧
      (cache.endLoader reach key flight started source purpose ending).1 =
        { cache with clock, stats }.finishLoad reach now key flight none := by
  have same (error : CacheError) : (fun object => reach object ||
      (Except.error error : LoadOutcome V).toOption.any (·.id = object)) = reach :=
    funext fun object => Bool.or_false _
  unfold endLoader
  cases ending with
  | value value => exact absurd rfl (empty value)
  | nothing | failed =>
      obtain ⟨stats, counted⟩ := count_eq cache.readClock.2 (·.countLoadFailure (cache.readClock.1 - started))
      refine ⟨cache.readClock.1, cache.readClock.2.clock, stats, .inl rfl, ?_⟩
      dsimp only
      rw [same, counted]
      rfl
  | panicked message =>
      obtain ⟨stats, counted⟩ := count_eq cache.readClock.2 (·.countLoadFailure (cache.readClock.1 - started))
      refine ⟨cache.readClock.2.readClock.1, cache.readClock.2.readClock.2.clock, stats, .inr rfl, ?_⟩
      dsimp only
      rw [counted]
      rfl

theorem Fails.finishLoad (fails : Fails held thread key flight cache cache') :
    ∃ now clock stats calls, cache.isReading now ∧
      cache' =
        ({ cache with clock, stats }.finishLoad (cache.reach held) now key flight none).setCalls thread calls := by
  cases fails with
  | @ended arguments started source purpose frames calls running ending empty =>
      obtain ⟨now, clock, stats, reading, ends⟩ :=
        finishLoad_of_endLoader cache (cache.reach held) key flight started source purpose empty
      refine ⟨now, clock, stats, ⟨arguments, (cache.endLoader (cache.reach held) key flight started source purpose
        ending).2 ++ frames⟩ :: calls, reading, ?_⟩
      simp only [step, running]
      rw [ends]
  | @dropped arguments frames calls running =>
      refine ⟨cache.readClock.1, cache.readClock.2.clock, cache.stats,
        ⟨arguments, (cache.giveUp (cache.reach held) key flight).2 ++ frames⟩ :: calls, .inl rfl, ?_⟩
      simp only [step, proceed, running]
      rfl

theorem Fails.issued (fails : Fails held thread key flight cache cache') {ended : List (Ending K V)}
    {settled : List (Verdict V)} (supervised : cache.Supervised ended settled) :
    ∃ shard load, cache.shards[flight.segment]? = some shard ∧ shard.segment.loads[flight.load]? = some load ∧
      load.key = key := by
  obtain ⟨keeper, own⟩ : ∃ keeper, cache.standing? flight = some (Task.load ⟨flight, key, keeper⟩) := by
    cases fails with
    | ended running => exact ⟨_, (supervised.own running rfl).1⟩
    | dropped running => exact ⟨_, (supervised.own running rfl).1⟩
  rw [standing?_eq, Option.map_eq_some_iff] at own
  obtain ⟨load, issued, standing⟩ := own
  obtain ⟨shard, found, issued⟩ := Option.bind_eq_some_iff.mp issued
  exact ⟨shard, load, found, issued, congrArg Load.key standing⟩

theorem failed_load_leaves_no_trace (history : History config hash clock past cache)
    (proper : ∀ moment ∈ past, moment.IsProper) (fails : Fails held thread key flight cache cache') :
    ∃ shard now losses s, cache.shards[flight.segment]? = some shard ∧ cache.isReading now ∧
      Segment.NoTrace cache.hash (cache.reach held) now flight.load key losses shard.segment s ∧
      cache'.shards = cache.shards.setIfInBounds flight.segment
        { shard with segment := { s with removals := [], growths := [] }, published := s.count } ∧
      cache'.undelivered = if cache.listens then cache.undelivered ++ s.removals else cache.undelivered := by
  have supervised := history.supervised proper
  obtain ⟨shard, load, found, issued, rfl⟩ := fails.issued supervised
  obtain ⟨now, clock', stats, calls, reading, rfl⟩ := fails.finishLoad
  have tended := supervised.tended_spared held flight.segment shard found
  have honoured : shard.segment.policy.Honours (cache.reach held) (cache.policy.spared (cache.reach held)) :=
    tended.policy_eq ▸ cache.policy.honours_spared (cache.reach held)
  obtain ⟨losses, noTrace⟩ :=
    tended.flights.finishLoad_none honoured tended.consistent (tended.keyed (cache.reach held)) issued now
  refine ⟨shard, now, losses, _, found, reading, noTrace, ?_⟩
  have found' : ({ cache with clock := clock', stats } : Cache K V τ).shards[flight.segment]? = some shard := found
  obtain ⟨stats', log, changed⟩ := changeSegment_eq found'
    (·.finishLoad (cache.reach held) now load.key (cache.hash load.key.data) flight.load none)
  rw [Cache.finishLoad, changed]
  exact ⟨rfl, rfl⟩

theorem no_trace_after_dropping :
    let moves (steps : Nat) : List (Event Nat Nat ManualClock) := .replicate steps (.proceed 0)
    let events := .call 0 (.insert ⟨0, 7⟩ ⟨1, 70⟩) :: moves 3 ++ .call 0 (.refresh ⟨2, 7⟩) :: moves 6 ++
      .call 0 .dropReload :: moves 1
    let run := (create { initialCapacity := 1, concurrencyLevel := 1, background := true } (fun _ => 3) {}).run
      (fun _ => true) events
    let cache' := (run.2.step (fun _ => true) (.proceed 0)).1
    cache'.pairs = [(7, ⟨1, 70⟩)] ∧ ∃ shard now losses s, run.2.shards[0]? = some shard ∧
      Segment.NoTrace run.2.hash (run.2.reach fun _ => true) now 0 ⟨2, 7⟩ losses shard.segment s := by
  intro moves events run cache'
  have history : History { initialCapacity := 1, concurrencyLevel := 1, background := true } (fun _ => 3)
      {} run.1 run.2 :=
    History.create.run (fun _ => true) events
  have ends : (run.2.ends (.proceed 0)).map (fun ending =>
      (ending.task.key, ending.task.flight, ending.outcome.toOption)) =
        [(⟨2, 7⟩, ⟨0, 0⟩, none)] := by decide +kernel
  obtain ⟨ending, member, same⟩ := List.mem_map.mp (ends ▸ List.mem_singleton_self _)
  simp only [Prod.mk.injEq] at same
  obtain ⟨key_eq, flight_eq, empty⟩ := same
  obtain ⟨thread, fails⟩ := fails_of_ends (fun _ => true) member empty
  rw [key_eq, flight_eq] at fails
  obtain ⟨shard, now, losses, s, found, _, noTrace, _⟩ := failed_load_leaves_no_trace history
    (proper_of_run (by simp [events, moves])) fails
  exact ⟨by decide +kernel, shard, now, losses, s, found, noTrace⟩

end SegmentedCache.Cache
