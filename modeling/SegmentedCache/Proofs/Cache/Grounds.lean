import SegmentedCache.Proofs.Cache.Deeds
import SegmentedCache.Proofs.Segment.Departures

namespace SegmentedCache

/-!
Runs in which every removal is reported with its true cause. One thread does everything, and the clock does not go back.
-/

variable {K V τ : Type}

/-- The removal is of an entry that departs in the deed, for the cause that is reported, or of a value that was
loaded too late and never counted. -/
structure Deed.Grounds [DecidableEq K] (hash : K → UInt64) (deed : Deed K V) (chronicle : Segment.Chronicle K V)
    (removal : Removal K V) : Prop where
  explains : Segment.Explains hash deed.reach deed.now deed.op deed.before (deed.after hash) chronicle
  grounds : (∃ departure, chronicle.Involves departure ∧ departure.Tells removal ∧
      departure.IsTrue deed.before.policy deed.reach deed.now deed.op) ∨
    Segment.Late hash deed.reach deed.op chronicle.before chronicle.after removal

namespace Cache

variable [DecidableEq K] [Clock τ] {config : Config K V} {hash : K → UInt64} {clock : τ}
  {past : List (Moment K V τ)} {cache : Cache K V τ} {thread : ThreadId} {deed : Deed K V} {policy : Policy K V}
  {removal : Removal K V}

omit [Clock τ] in
theorem Meets.grounds (meets : Meets policy deed.before) (hash : K → UInt64) (positive : policy.lifetime.Positive)
    (reached : deed.op.Reached policy deed.reach) :
    ∃ chronicle, ∀ removal ∈ (deed.after hash).removals, deed.Grounds hash chronicle removal := by
  obtain ⟨consistent, rfl, quiet, dated⟩ := meets
  have explained : ∃ chronicle,
      Segment.Explains hash deed.reach deed.now deed.op deed.before (deed.after hash) chronicle :=
    dated.explains hash consistent positive reached
  obtain ⟨chronicle, explains⟩ := explained
  exact ⟨chronicle, fun removal member => ⟨explains, explains.of_mem consistent quiet member⟩⟩

/-- In a run of one thread, with a clock that does not go back, what a step reports left in the one operation that may
remove entries, and for the cause that is reported. The listener is told of nothing else. -/
theorem grounds_of_history (history : History config hash clock past cache)
    (proper : ∀ moment ∈ past, moment.IsProper) (sequential : ∀ moment ∈ past, moment.IsSequential thread)
    (forward : Clock.Forward clock) (timely : ∀ moment ∈ past, moment.IsTimely) :
    (∀ moment ∈ past, ∀ removal ∈ moment.reports, ∃ deed, moment.deed? = some deed ∧
      moment.reports = (deed.after moment.cache.hash).removals ∧
        ∃ chronicle, deed.Grounds moment.cache.hash chronicle removal) ∧
      (config.listens = true → past.flatMap Moment.reports = past.flatMap Moment.notifies ++ cache.undelivered) := by
  refine ⟨fun moment member removal reported => ?_, history.reported⟩
  obtain ⟨earlier, later, split⟩ := List.append_of_mem member
  have recorded := (history.of_append split).1.recorded
  have done := recorded.composed.step_done moment.held moment.event
  cases does : moment.deed? with
  | none =>
      rw [show moment.cache.deed? moment.held moment.event = none from does] at done
      rw [show moment.reports = [] from done] at reported
      cases reported
  | some deed =>
      obtain ⟨meets, reached, _, reports⟩ := history.meets proper sequential forward timely moment member deed does
      have positive : moment.cache.policy.lifetime.Positive := by
        rw [recorded.policy_eq]
        exact Lifetime.positive_ofSpans _ _
      obtain ⟨chronicle, grounds⟩ := meets.grounds moment.cache.hash positive reached
      exact ⟨deed, rfl, reports, chronicle, grounds removal (reports ▸ reported)⟩

theorem grounds_of_three_removals :
    let moves (steps : Nat) : List (Event Nat Nat ManualClock) := .replicate steps (.proceed 0)
    let events := .setClock { nanos := 1 } :: .call 0 (.insert ⟨0, 7⟩ ⟨1, 1⟩) :: moves 4 ++
      .setClock { nanos := 4 } :: .call 0 (.insert ⟨2, 8⟩ ⟨3, 2⟩) :: moves 4 ++
      .setClock { nanos := 6 } :: .call 0 (.insert ⟨4, 8⟩ ⟨5, 4⟩) :: moves 1
    let run := (create { initialCapacity := 1, concurrencyLevel := 1, maximum := some 3,
                         weigher := some fun _ value => value, expireAfterWrite := some (.ofNanos 5), listens := true }
      (fun _ => 3) {}).run (fun _ => true) events
    ∃ moment ∈ run.1, moment.reports.map (fun removal => (removal.value.object.data, removal.cause)) =
        [(1, .expired), (2, .replaced), (4, .size)] ∧
      ∀ removal ∈ moment.reports, ∃ deed, moment.deed? = some deed ∧
        moment.reports = (deed.after moment.cache.hash).removals ∧
          ∃ chronicle, deed.Grounds moment.cache.hash chronicle removal := by
  intro moves events run
  have history : History _ _ _ run.1 run.2 := History.create.run (fun _ => true) events
  have sequential : run.1.all (fun moment => decide (moment.IsSequential 0)) = true := by decide +kernel
  have timely : run.1.all (fun moment => moment.event.isLater moment.cache.clock) = true := by decide +kernel
  have passes : Clock.Passes ({} : ManualClock) {} := ManualClock.passes (by decide)
  have found : ∃ moment ∈ run.1, moment.reports.map (fun removal => (removal.value.object.data, removal.cause)) =
      [(1, .expired), (2, .replaced), (4, .size)] := by decide +kernel
  have grounds := grounds_of_history history
    (proper_of_run fun event asked closing => by simp [closing, events, moves] at asked)
    (by simpa using sequential) passes.forward
    fun moment member => Moment.isTimely_of_isLater (List.all_eq_true.mp timely moment member)
  obtain ⟨moment, member, reports⟩ := found
  exact ⟨moment, member, reports, grounds.1 moment member⟩

end Cache
end SegmentedCache
