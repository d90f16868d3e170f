import SegmentedCache.Proofs.Cache.ReadLogs

namespace SegmentedCache

/-!
No read is lost. Where one thread does everything, there is always room to note another, and what is noted stands for an
entry that counts, or for one that has left.
-/

variable {K V τ : Type}

def Frame.sought? : Frame K V → Option K
  | .start (.lookup key) => some key
  | .find key _ => some key.data
  | _ => none

def Cache.reached (cache : Cache K V τ) (index slot : Nat) : UInt32 :=
  (cache.shards[index]?).elim 0 (·.segment.arena.reached slot)

namespace Moment

variable [DecidableEq K] [Clock τ]

omit [DecidableEq K] [Clock τ] in
def sought? (moment : Moment K V τ) : Option K :=
  match moment.event with
  | .proceed thread =>
      match moment.cache.callsOf thread with
      | { frames := frame :: _, .. } :: _ => frame.sought?
      | _ => none
  | _ => none

def looked (moment : Moment K V τ) (key : K) : Cache K V τ :=
  moment.cache.looked (moment.cache.reach moment.held) key

/-- How often a slot of a segment is vacated. Each time it moves on to the next generation. -/
def turns (moment : Moment K V τ) (index slot : Nat) : Nat :=
  (moment.next.reached index slot - moment.cache.reached index slot).toNat

omit [DecidableEq K] [Clock τ] in
theorem here_of_sought {moment : Moment K V τ} {key : K} (sought : moment.sought? = some key) :
    ∃ thread arguments frame rest outer, moment.event = .proceed thread ∧
      moment.cache.callsOf thread = ⟨arguments, frame :: rest⟩ :: outer ∧ frame.sought? = some key := by
  unfold sought? at sought
  split at sought
  · rename_i thread proceeds
    split at sought
    · rename_i here
      exact ⟨thread, _, _, _, _, proceeds, here, sought⟩
    · cases sought
  · cases sought

end Moment

namespace Cache

section Turns

variable [DecidableEq K] [Clock τ] {past : List (Moment K V τ)} {moment : Moment K V τ} {cache : Cache K V τ}
  {before after : Nat → Nat} {index slot : Nat} {handle : Handle}

def turns (past : List (Moment K V τ)) (index slot : Nat) : Nat :=
  (past.map (·.turns index slot)).sum

def Issued (past : List (Moment K V τ)) (index : Nat) (handle : Handle) : Prop :=
  ∃ moment ∈ past, ∃ shard, moment.cache.shards[index]? = some shard ∧ shard.segment.HasCounted handle

theorem turns_append (past : List (Moment K V τ)) (moment : Moment K V τ) (index slot : Nat) :
    turns (past ++ [moment]) index slot = turns past index slot + moment.turns index slot := by
  simp [turns]

theorem turns_of_turned (moment : Moment K V τ) {shard shard' : Shard K V}
    (found : moment.cache.shards[index]? = some shard) (found' : moment.next.shards[index]? = some shard')
    {times : Nat} (few : times ≤ 2) (turned : Segment.Turned times slot shard.segment shard'.segment) :
    moment.turns index slot = times := by
  rw [Moment.turns, reached, reached, found, found', Option.elim_some, Option.elim_some, turned.reached,
    UInt32.add_comm, UInt32.add_sub_cancel, UInt32.toNat_ofNat']
  exact Nat.mod_eq_of_lt (by omega)

/-- What the generations tell of a run. Each slot has reached the generation that is the number of its turns. Handles of
entries that counted stand for them still, or are of a generation before. Only such handles are in the logs. -/
structure Traced (past : List (Moment K V τ)) (cache : Cache K V τ) : Prop where
  reached : cache.Each fun index shard => ∀ slot, (shard.segment.arena.reached slot).toNat = turns past index slot
  issued : cache.Each fun index shard => ∀ handle, Issued past index handle →
    shard.segment.HasCounted handle ∨ handle.generation.toNat < turns past index handle.index
  logged : cache.Each fun index shard => ∀ handle ∈ shard.segment.readLog, Issued past index handle

theorem Traced.step (moment : Moment K V τ) (traced : Traced past moment.cache)
    (kept : LogsKept True 2 before after moment.cache moment.next)
    (few : ∀ index slot, turns (past ++ [moment]) index slot < 2 ^ 32) : Traced (past ++ [moment]) moment.next := by
  have earlier {index : Nat} {handle : Handle} : Issued past index handle → Issued (past ++ [moment]) index handle :=
    fun ⟨moment', member, issued⟩ => ⟨moment', List.mem_append_left _ member, issued⟩
  refine ⟨fun index shard' found' slot => ?_, fun index shard' found' handle issued => ?_,
    fun index shard' found' handle member => ?_⟩
  all_goals obtain ⟨shard, found, kept⟩ := kept index shard' found'
  · obtain ⟨times, at_most, turned⟩ := kept.worn slot
    have reached := traced.reached index shard found slot
    have total := few index slot
    rw [turns_append, turns_of_turned moment found found' at_most turned] at total ⊢
    -- with so few turns in all, no sum of generations starts again at zero
    rw [turned.reached, UInt32.toNat_add, UInt32.toNat_ofNat', reached]
    omega
  · obtain ⟨times, at_most, turned⟩ := kept.worn handle.index
    have reached := traced.reached index shard found handle.index
    rw [turns_append, turns_of_turned moment found found' at_most turned]
    have known : shard.segment.HasCounted handle ∨ handle.generation.toNat < turns past index handle.index := by
      obtain ⟨moment', member, shard'', found'', counted⟩ := issued
      rcases List.mem_append.mp member with inside | last
      · exact traced.issued index shard found handle ⟨moment', inside, shard'', found'', counted⟩
      · cases List.mem_singleton.mp last
        cases found.symm.trans found''
        exact .inl counted
    rcases known with counted | gone
    · rcases Nat.eq_zero_or_pos times with still | moved
      · exact .inl (turned.counted still handle rfl counted)
      · rw [counted.reached] at reached
        exact .inr (by omega)
    · exact .inr (by omega)
  · rcases kept.readLog handle member with before | ⟨_, counted⟩
    · exact earlier (traced.logged index shard found handle before)
    · exact ⟨moment, List.mem_append_right _ List.mem_cons_self, shard, found, counted⟩

theorem Traced.stale (traced : Traced past cache) {shard : Shard K V} (found : cache.shards[index]? = some shard)
    (issued : Issued past index handle) : shard.segment.HasCounted handle ∨ shard.segment.entry? handle = none := by
  refine (traced.issued index shard found handle issued).imp_right fun gone => ?_
  cases live : shard.segment.entry? handle with
  | none => rfl
  | some entry =>
      obtain ⟨_, occupant⟩ := Segment.get?_of_found live
      have reached := traced.reached index shard found handle.index
      rw [Arena.reached_of_get? occupant] at reached
      omega

end Turns

structure KeepsReads [DecidableEq K] [Clock τ] (past : List (Moment K V τ)) (cache : Cache K V τ) : Prop where
  ended : ∀ moment ∈ past,
    ((∃ reply, moment.signal = .returned reply) ∨ ∃ message, moment.signal = .panicked message) →
      moment.next.Each fun _ shard => shard.segment.readLog.size ≤ shard.reads % 64
  bounded : cache.Each fun _ shard => shard.segment.readLog.size ≤ 64
  looked : ∀ moment ∈ past, ∀ key, moment.sought? = some key →
    (moment.looked key).Each fun _ shard => shard.segment.readLog.size ≤ 64
  noted : ∀ moment ∈ past, ∀ key, moment.sought? = some key → ∀ value refresh,
    moment.cache.finding (moment.cache.reach moment.held) key = .live value refresh →
      ∃ shard shard', moment.cache.shards[moment.cache.segmentOf key]? = some shard ∧
        (moment.looked key).shards[moment.cache.segmentOf key]? = some shard' ∧
          (shard.segment.policy.tracksReads = true → ∃ handle entry,
            shard.segment.find? (moment.cache.reach moment.held) (moment.cache.hash key) key = some (handle, entry) ∧
              shard'.segment.readLog = shard.segment.readLog.push handle)
  issued : cache.Each fun index shard => ∀ handle ∈ shard.segment.readLog, Issued past index handle
  /-- What is noted stands for an entry that counts and is queued by its uses, or for none. -/
  stale : cache.Each fun _ shard => ∀ handle ∈ shard.segment.readLog,
    (∃ entry, shard.segment.entry? handle = some entry ∧ entry.isReserved = false ∧
        handle ∈ shard.segment.ordered .access) ∨
      shard.segment.entry? handle = none

section Runs

variable [DecidableEq K] [Clock τ] {config : Config K V} {hash : K → UInt64} {clock : τ}
  {past : List (Moment K V τ)} {cache : Cache K V τ} {thread : ThreadId}

theorem History.logsKept (history : History config hash clock past cache)
    (sequential : ∀ moment ∈ past, moment.IsSequential thread) (held : Reach) (event : Event K V τ)
    (sequential' : (⟨cache, held, event⟩ : Moment K V τ).IsSequential thread) :
    LogsKept True 2 (cache.uncounted thread) ((cache.step held event).1.uncounted thread) cache
      (cache.step held event).1 :=
  (history.punctual sequential).step_logsKept (history.uncontended sequential) history.recorded.composed held event
    sequential'

theorem History.noted (history : History config hash clock past cache)
    (sequential : ∀ moment ∈ past, moment.IsSequential thread) :
    cache.Each fun index shard =>
      shard.segment.readLog.size ≤ shard.reads % readsPerCleanUp + cache.uncounted thread index := by
  induction history with
  | create =>
      intro index shard found
      obtain ⟨exponent, rfl⟩ := shard_create found
      exact Nat.zero_le _
  | step history held event ih =>
      have before := List.forall_mem_append.mp sequential
      have kept := history.logsKept before.1 held event (before.2 _ List.mem_cons_self)
      intro index shard' found'
      obtain ⟨shard, found, kept⟩ := kept index shard' found'
      exact kept.noted (ih before.1 index shard found)

theorem History.traced (history : History config hash clock past cache)
    (sequential : ∀ moment ∈ past, moment.IsSequential thread)
    (few : ∀ index slot, turns past index slot < 2 ^ 32) : Traced past cache := by
  induction history with
  | create =>
      have none_issued (index : Nat) (handle : Handle) : ¬ Issued ([] : List (Moment K V τ)) index handle :=
        fun ⟨_, member, _⟩ => nomatch member
      refine ⟨fun index shard found slot => ?_, fun index shard _ handle issued => (none_issued _ _ issued).elim,
        fun index shard found handle member => ?_⟩
      all_goals obtain ⟨exponent, rfl⟩ := shard_create found
      · rfl
      · cases Array.not_mem_empty handle member
  | step history held event ih =>
      have before := List.forall_mem_append.mp sequential
      have kept := history.logsKept before.1 held event (before.2 _ List.mem_cons_self)
      have few' (index slot : Nat) := few index slot
      simp only [turns_append] at few'
      exact .step ⟨_, held, event⟩
        (ih before.1 fun index slot => (Nat.le_add_right ..).trans_lt (few' index slot)) kept few

theorem History.turns_le (history : History config hash clock past cache)
    (sequential : ∀ moment ∈ past, moment.IsSequential thread) (index slot : Nat) :
    turns past index slot ≤ 2 * past.length := by
  induction history with
  | create => exact Nat.zero_le _
  | @step past cache history held event ih =>
      have before := List.forall_mem_append.mp sequential
      have kept := history.logsKept before.1 held event (before.2 _ List.mem_cons_self)
      have size := (history.recorded.composed.step_steps held event).unchanged.size
      have once : (⟨cache, held, event⟩ : Moment K V τ).turns index slot ≤ 2 := by
        cases found' : (cache.step held event).1.shards[index]? with
        | none =>
            have found : cache.shards[index]? = none := by
              rw [Array.getElem?_eq_none_iff] at found' ⊢
              exact size ▸ found'
            simp [Moment.turns, Moment.next, reached, found, found']
        | some shard' =>
            obtain ⟨shard, found, kept⟩ := kept index shard' found'
            obtain ⟨times, at_most, turned⟩ := kept.worn slot
            rw [turns_of_turned ⟨cache, held, event⟩ found found' at_most turned]
            exact at_most
      rw [turns_append, List.length_append, List.length_singleton]
      have := ih before.1
      omega

omit [DecidableEq K] [Clock τ] in
theorem Punctual.uncounted_of_sought (punctual : cache.Punctual thread) {arguments : List ObjectId} {frame : Frame K V}
    {rest : List (Frame K V)} {outer : List (Call K V)}
    (here : cache.callsOf thread = ⟨arguments, frame :: rest⟩ :: outer) {key : K}
    (sought : frame.sought? = some key) (index : Nat) : cache.uncounted thread index = 0 := by
  have onTime := punctual.onTime here
  have counted : Counted (frame :: rest) := by
    cases frame with
    | start | find => exact counted_cons.mpr ⟨rfl, onTime.counted_rest ⟨nofun, nofun⟩⟩
    | _ => cases sought
  rw [punctual.uncounted_eq here, counted.pending]

theorem Punctual.uncounted_of_ended (punctual : cache.Punctual thread) (held : Reach) (event : Event K V τ)
    (sequential : (⟨cache, held, event⟩ : Moment K V τ).IsSequential thread)
    (ended : (∃ reply, (cache.step held event).2 = .returned reply) ∨
      ∃ message, (cache.step held event).2 = .panicked message) (index : Nat) :
    (cache.step held event).1.uncounted thread index = 0 := by
  have left {call : Call K V} {outer : List (Call K V)} (here : cache.callsOf thread = call :: outer) :
      (cache.setCalls thread outer).uncounted thread index = 0 := by
    rw [uncounted_setCalls, List.sum_eq_zero_iff]
    intro count member
    obtain ⟨call, inside, rfl⟩ := List.mem_map.mp member
    exact (punctual.counted_outer here call inside).pending ..
  have happens := cache.step_happens held event
  generalize cache.step held event = result at happens ended ⊢
  cases happens with
  | ended here | returned here | unwound here =>
      cases sequential
      exact left here
  | _ => rcases ended with ⟨_, ⟨⟩⟩ | ⟨_, ⟨⟩⟩

theorem History.waiting_of_sought (history : History config hash clock past cache)
    (sequential : ∀ moment ∈ past, moment.IsSequential thread) {moment : Moment K V τ} (member : moment ∈ past)
    {key : K} (sought : moment.sought? = some key) :
    moment.cache.Orderly ∧
      moment.cache.Each fun _ shard => shard.segment.readLog.size ≤ shard.reads % readsPerCleanUp := by
  obtain ⟨earlier, later, rfl⟩ := List.append_of_mem member
  have led := (history.of_append rfl).1
  have before (moment' : Moment K V τ) (inside : moment' ∈ earlier) :=
    sequential moment' (List.mem_append_left _ inside)
  obtain ⟨other, arguments, frame, rest, outer, proceeds, here, seeks⟩ := Moment.here_of_sought sought
  have same := sequential moment member
  rw [Moment.IsSequential, proceeds] at same
  subst same
  refine ⟨led.recorded.composed.orderly, fun index shard found => ?_⟩
  calc shard.segment.readLog.size
      ≤ shard.reads % readsPerCleanUp + moment.cache.uncounted other index := led.noted before index shard found
    _ = shard.reads % readsPerCleanUp := by
        rw [(led.punctual before).uncounted_of_sought here seeks, Nat.add_zero]

theorem History.waiting_of_ended (history : History config hash clock past cache)
    (sequential : ∀ moment ∈ past, moment.IsSequential thread) {moment : Moment K V τ} (member : moment ∈ past)
    (ended : (∃ reply, moment.signal = .returned reply) ∨ ∃ message, moment.signal = .panicked message) :
    moment.next.Each fun _ shard => shard.segment.readLog.size ≤ shard.reads % readsPerCleanUp := by
  obtain ⟨earlier, later, rfl⟩ := List.append_of_mem member
  obtain ⟨led, leads⟩ := history.of_append rfl
  have upto (moment' : Moment K V τ) (inside : moment' ∈ earlier ++ [moment]) : moment'.IsSequential thread := by
    apply sequential
    rw [List.append_cons]
    exact List.mem_append_left _ inside
  have punctual := led.punctual fun moment' inside => upto moment' (List.mem_append_left _ inside)
  have none_left (index : Nat) : moment.next.uncounted thread index = 0 :=
    punctual.uncounted_of_ended moment.held moment.event (sequential moment member) ended index
  intro index shard found
  calc shard.segment.readLog.size
      ≤ shard.reads % readsPerCleanUp + moment.next.uncounted thread index := leads.noted upto index shard found
    _ = shard.reads % readsPerCleanUp := by rw [none_left, Nat.add_zero]

/-- In a run of one thread no read is lost, as long as the generations of a slot do not start again. -/
theorem keeps_reads_of_history (history : History config hash clock past cache)
    (sequential : ∀ moment ∈ past, moment.IsSequential thread)
    (few : ∀ index slot, turns past index slot < 2 ^ 32) : KeepsReads past cache := by
  have small (reads : Nat) : reads % readsPerCleanUp < 64 := Nat.mod_lt reads (by decide)
  have traced := history.traced sequential few
  refine ⟨fun moment member => history.waiting_of_ended sequential member, fun index shard found => ?_,
    fun moment member key sought index shard' found' => ?_, fun moment member key sought value refresh live => ?_,
    traced.logged, fun index shard found handle member => ?_⟩
  · calc shard.segment.readLog.size
        ≤ shard.reads % readsPerCleanUp + cache.uncounted thread index := history.noted sequential index shard found
      _ ≤ shard.reads % readsPerCleanUp + 1 :=
        Nat.add_le_add_left ((history.punctual sequential).uncounted_le index) _
      _ ≤ 64 := small shard.reads
  · obtain ⟨orderly, waiting⟩ := history.waiting_of_sought sequential member sought
    obtain ⟨shard, found, kept⟩ := orderly.looked_logsKept (moment.cache.reach moment.held) key index shard' found'
    calc shard'.segment.readLog.size
        ≤ shard'.reads % readsPerCleanUp + if moment.cache.segmentOf key = index then 1 else 0 :=
          kept.noted (waiting index shard found)
      _ ≤ shard'.reads % readsPerCleanUp + 1 := Nat.add_le_add_left (by split <;> simp) _
      _ ≤ 64 := small shard'.reads
  · obtain ⟨orderly, waiting⟩ := history.waiting_of_sought sequential member sought
    obtain ⟨shard, found⟩ : ∃ shard, moment.cache.shards[moment.cache.segmentOf key]? = some shard :=
      ⟨_, Array.getElem?_eq_getElem (orderly.chosen key)⟩
    have located : moment.cache.readClock.2.shards[moment.cache.segmentOf key]? = some shard := found
    obtain ⟨shard', found', segment⟩ := getElem?_changeSegment located
      ((Operation.read key).run moment.cache.hash (moment.cache.reach moment.held) moment.cache.readClock.1)
    refine ⟨shard, shard', found, found', fun tracks => ?_⟩
    have room : shard.segment.readLog.size < Segment.readLogLimit :=
      ((waiting _ shard found).trans_lt (small shard.reads)).trans (by decide)
    rw [finding, found] at live
    rw [segment]
    exact Segment.readLog_read live tracks room
  · refine (traced.stale found (traced.logged index shard found handle member)).imp_left fun counted => ?_
    have consistent := (history.recorded.composed.orderly.shards index shard found).1
    obtain ⟨entry, live, counts⟩ := counted
    exact ⟨entry, live, counts, (consistent.mem_ordered .access handle).mpr ⟨entry, live, counts⟩⟩

theorem keeps_reads_of_listener :
    let moves (steps : Nat) : List (Event Nat Nat ManualClock) := .replicate steps (.proceed 0)
    let events := .call 0 (.insert ⟨0, 7⟩ ⟨1, 70⟩) :: moves 4 ++
      .call 0 (.insert ⟨2, 8⟩ ⟨3, 80⟩) :: moves 4 ++
      .call 0 (.lookup 7) :: moves 2 ++ .call 0 (.remove 7) :: moves 3 ++ .call 0 (.lookup 8) :: moves 2 ++
      .listenerEnded 0 .quiet :: moves 2
    let run := (create { initialCapacity := 1, concurrencyLevel := 1, maximum := some 2, listens := true }
      (fun _ => 3) {}).run (fun _ => true) events
    run.2.shards.toList.map (fun shard => (shard.reads, shard.segment.readLog.toList.map fun handle =>
        (shard.segment.entry? handle).isSome)) = [(2, [false, true])] ∧
      (run.2.callsOf 0).isEmpty ∧ KeepsReads run.1 run.2 := by
  intro moves events run
  have history : History { initialCapacity := 1, concurrencyLevel := 1, maximum := some 2, listens := true }
      (fun _ => 3) {} run.1 run.2 := History.create.run (fun _ => true) events
  have sequential : ∀ moment ∈ run.1, moment.IsSequential 0 := by decide +kernel
  have short : 2 * run.1.length < 2 ^ 32 := by decide +kernel
  exact ⟨by decide +kernel, by decide +kernel, keeps_reads_of_history history sequential fun index slot =>
    (history.turns_le sequential index slot).trans_lt short⟩

end Runs

end Cache
end SegmentedCache
