import SegmentedCache.Proofs.Cache.Deeds

namespace SegmentedCache

/-!
Runs in which nothing that can not be read any more outlives a write. One thread does everything, and the clock does not
go back.
-/

variable {K V τ : Type}

/-- The sweep of an operation takes what can not be read any more and nothing else, and of that nothing is counted
in the segment that is left in the end. -/
structure Deed.Sweeps (policy : Policy K V) (deed : Deed K V) (sweep : Segment K V → Segment K V)
    (left : Segment K V) : Prop where
  takes : ∀ handle record, (sweep deed.before).bare? handle = some record ↔
    deed.before.bare? handle = some record ∧ policy.stale? deed.reach deed.now record = none
  leaves : ∀ handle record, left.bare? handle = some record → record.isReserved = false →
    policy.isLost deed.reach record = false ∧ policy.isExpired deed.now record = false

namespace Cache

variable [DecidableEq K] [Clock τ] {config : Config K V} {hash : K → UInt64} {clock : τ}
  {past : List (Moment K V τ)} {cache : Cache K V τ} {thread : ThreadId} {deed : Deed K V} {policy : Policy K V}

omit [Clock τ] in
theorem Meets.sweeps (meets : Meets policy deed.before) (positive : policy.lifetime.Positive)
    (reached : deed.op.Reached policy deed.reach) {sweep : Segment K V → Segment K V}
    (sweeps : deed.op.sweep? deed.reach deed.now = some sweep) {left : Segment K V}
    (same : left = { deed.after hash with removals := [], growths := [] }) : deed.Sweeps policy sweep left := by
  obtain ⟨consistent, rfl, _, dated⟩ := meets
  obtain ⟨takes, live⟩ := dated.sweeps hash consistent positive reached sweeps
  refine ⟨takes, fun handle record found counted => ?_⟩
  have after : (deed.after hash).bare? handle = some record := by
    rw [same] at found
    exact found
  have fresh := live handle record after
  have rules := (consistent.runs hash deed.reach deed.now deed.op).rules consistent
  rw [rules.1, Policy.stale?_eq_none, counted] at fresh
  exact fresh.resolve_left nofun

/-- In a run of one thread, with a clock that does not go back, every operation that sweeps takes all that can not
be read any more at its time, although it stops at the first entry that is not too old. -/
theorem sweeps_of_history (history : History config hash clock past cache)
    (proper : ∀ moment ∈ past, moment.IsProper) (sequential : ∀ moment ∈ past, moment.IsSequential thread)
    (forward : Clock.Forward clock) (timely : ∀ moment ∈ past, moment.IsTimely) :
    ∀ moment ∈ past, ∀ deed, moment.deed? = some deed →
      ∀ sweep, deed.op.sweep? deed.reach deed.now = some sweep →
        ∃ shard, moment.next.shards[deed.index]? = some shard ∧
          deed.Sweeps moment.cache.policy sweep shard.segment := by
  intro moment member deed does sweep sweeps
  obtain ⟨meets, reached, ⟨shard, found, left⟩, _⟩ :=
    history.meets proper sequential forward timely moment member deed does
  obtain ⟨earlier, later, rfl⟩ := List.append_of_mem member
  have policy := (history.of_append rfl).1.recorded.policy_eq
  have positive : moment.cache.policy.lifetime.Positive := by
    rw [policy]
    exact Lifetime.positive_ofSpans _ _
  exact ⟨shard, found, meets.sweeps positive reached sweeps left⟩

theorem sweeps_before_a_put :
    let moves (steps : Nat) : List (Event Nat Nat ManualClock) := .replicate steps (.proceed 0)
    let events := .setClock { nanos := 1 } :: .call 0 (.insert ⟨0, 7⟩ ⟨1, 70⟩) :: moves 4 ++
      .setClock { nanos := 2 } :: .call 0 (.insert ⟨2, 8⟩ ⟨3, 80⟩) :: moves 4 ++
      .setClock { nanos := 3 } :: .call 0 (.lookup 7) :: moves 3 ++
      .setClock { nanos := 5 } :: .call 0 (.insert ⟨4, 9⟩ ⟨5, 90⟩) :: moves 1
    let run := (create { initialCapacity := 1, concurrencyLevel := 1, expireAfterAccess := some (.ofNanos 3),
                         expireAfterWrite := some (.ofNanos 6), valueStrength := .weak, listens := true }
      (fun _ => 3) {}).run (fun _ => true) events
    ∃ moment ∈ run.1, ∃ deed, moment.deed? = some deed ∧
      ∃ sweep, deed.op.sweep? deed.reach deed.now = some sweep ∧
      deed.before.records.map (·.2.key.data) = [7, 8] ∧ (sweep deed.before).records.map (·.2.key.data) = [7] ∧
        ∃ shard, moment.next.shards[deed.index]? = some shard ∧
          deed.Sweeps moment.cache.policy sweep shard.segment := by
  intro moves events run
  have history : History _ _ _ run.1 run.2 := History.create.run (fun _ => true) events
  have sequential : run.1.all (fun moment => decide (moment.IsSequential 0)) = true := by decide +kernel
  have timely : run.1.all (fun moment => moment.event.isLater moment.cache.clock) = true := by decide +kernel
  have passes : Clock.Passes ({} : ManualClock) {} := ManualClock.passes (by decide)
  have found : ∃ moment ∈ run.1, ∃ deed ∈ moment.deed?, ∃ sweep ∈ deed.op.sweep? deed.reach deed.now,
      deed.before.records.map (·.2.key.data) = [7, 8] ∧ (sweep deed.before).records.map (·.2.key.data) = [7] := by
    decide +kernel
  obtain ⟨moment, member, deed, does, sweep, sweeps, before, after⟩ := found
  have complete := sweeps_of_history history
    (proper_of_run fun event asked closing => by simp [closing, events, moves] at asked)
    (by simpa using sequential) passes.forward
    fun moment member => Moment.isTimely_of_isLater (List.all_eq_true.mp timely moment member)
  exact ⟨moment, member, deed, does, sweep, sweeps, before, after, complete moment member deed does sweep sweeps⟩

end Cache
end SegmentedCache
