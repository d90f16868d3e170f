import SegmentedCache.Proofs.Cache.Happenings
import SegmentedCache.Proofs.Cache.Supervision

namespace SegmentedCache

/-!
How loads end. A load that was issued ends once, its outcome is announced once, and all who wait for it go on with that
outcome.
-/

variable {K V τ : Type}

namespace Cache

def ends (cache : Cache K V τ) : Event K V τ → List (Ending K V)
  | .proceed thread =>
      match cache.callsOf thread with
      | { frames := frame :: _, .. } :: _ => cache.endedBy frame
      | _ => []
  | .loaderEnded thread ending =>
      match cache.callsOf thread with
      | { frames := .loading key flight .. :: _, .. } :: _ =>
          [⟨⟨flight, key, some thread⟩, ending.outcome (cache.hash key.data)⟩]
      | _ => []
  | _ => []

def settles (cache : Cache K V τ) : Event K V τ → List (Verdict V)
  | .proceed thread =>
      match cache.callsOf thread with
      | { frames := frame :: _, .. } :: _ => frame.verdict?.toList
      | _ => []
  | _ => []

end Cache

namespace Moment

def ends (moment : Moment K V τ) : List (Ending K V) :=
  moment.cache.ends moment.event

def settles (moment : Moment K V τ) : List (Verdict V) :=
  moment.cache.settles moment.event

end Moment

namespace Cache

variable {cache : Cache K V τ} {ended : List (Ending K V)} {settled : List (Verdict V)} {thread : ThreadId}

namespace Supervised

variable (supervised : cache.Supervised ended settled)

include supervised

omit supervised in
theorem mem_tasks {arguments : List ObjectId} {frame : Frame K V} {rest : List (Frame K V)} {outer : List (Call K V)}
    (here : cache.callsOf thread = ⟨arguments, frame :: rest⟩ :: outer) {task : Task K}
    (at_hand : frame.task? thread = some task) : task ∈ cache.docket.tasks := by
  have known : (⟨arguments, frame :: rest⟩ : Call K V) ∈ cache.callsOf thread := here ▸ List.mem_cons_self
  refine Multiset.mem_add.mpr (.inl ((mem_across fun _ => rfl).mpr ⟨thread, ?_⟩))
  exact mem_tasksOfCalls.mpr ⟨_, known, frame, List.mem_cons_self, at_hand⟩

theorem own {arguments : List ObjectId} {frame : Frame K V} {rest : List (Frame K V)} {outer : List (Call K V)}
    (here : cache.callsOf thread = ⟨arguments, frame :: rest⟩ :: outer) {task : Task K}
    (at_hand : frame.task? thread = some task) :
    cache.standing? task.flight = some task.load ∧ task.flight ∉ ended.map (·.task.flight) :=
  have member := mem_tasks here at_hand
  ⟨supervised.sound.at_hand task member, supervised.running member⟩

theorem reached {arguments : List ObjectId} {frame : Frame K V} {rest : List (Frame K V)} {outer : List (Call K V)}
    (here : cache.callsOf thread = ⟨arguments, frame :: rest⟩ :: outer) (held : Reach) {key : Shared K}
    (starts : key ∈ frame.starts) : cache.policy.spared (cache.reach held) key.id = true := by
  have known : (⟨arguments, frame :: rest⟩ : Call K V) ∈ cache.callsOf thread := here ▸ List.mem_cons_self
  apply spared_of_mem_objects
  apply mem_objects known
  cases frame with
  | start request =>
      cases request with
      | refresh key' =>
          obtain rfl := List.mem_singleton.mp starts
          left
          rw [supervised.begun thread _ known _ List.mem_cons_self]
          exact List.mem_cons_self
      | _ => cases starts
  | claim | renew =>
      obtain rfl := List.mem_singleton.mp starts
      exact .inr ⟨_, List.mem_cons_self, List.mem_cons_self⟩
  | _ => cases starts

variable [DecidableEq K] [Clock τ]

theorem tends_work (held : Reach) {arguments : List ObjectId} {frame : Frame K V} {rest : List (Frame K V)}
    {outer : List (Call K V)} (here : cache.callsOf thread = ⟨arguments, frame :: rest⟩ :: outer)
    (busy : frame.isWork = true) :
    Tends (cache.policy.spared (cache.reach held))
      (fun flight => flight ∈ ended.map (·.task.flight)) thread cache frame
      (cache.endedBy frame) frame.verdict?.toList (cache.work (cache.reach held) thread frame) := by
  have known : (⟨arguments, frame :: rest⟩ : Call K V) ∈ cache.callsOf thread := here ▸ List.mem_cons_self
  have returned (key flight started source purpose) : frame ≠ .loading key flight started source purpose := by
    rintro rfl
    cases busy
  exact work_tends (supervised.tended_spared held) (cache.policy.honours_spared _) thread frame
    (Frame.quiet_of_isWork busy) returned (fun key => supervised.reached here held) (fun task => supervised.own here)
    (supervised.minded thread _ known |>.issued frame List.mem_cons_self)

theorem tends_endLoader (held : Reach) {arguments : List ObjectId} {key : Shared K} {flight : Flight} {started : Nat}
    {source : Source} {purpose : Purpose V} {rest : List (Frame K V)} {outer : List (Call K V)}
    (here : cache.callsOf thread = ⟨arguments, .loading key flight started source purpose :: rest⟩ :: outer)
    (ending : LoaderEnd V) :
    Tends (cache.policy.spared (cache.reach held)) (fun flight => flight ∈ ended.map (·.task.flight)) thread cache
      (.loading key flight started source purpose)
      [⟨⟨flight, key, some thread⟩, ending.outcome (cache.hash key.data)⟩] []
      (cache.endLoader (cache.reach held) key flight started source purpose ending) := by
  obtain ⟨own, running⟩ := supervised.own here rfl
  exact endLoader_tends (supervised.tended_spared held) (cache.policy.honours_spared _) own running started source
    purpose ending

theorem work_supervised (composed : cache.Composed) (held : Reach) {arguments : List ObjectId} {frame : Frame K V}
    {rest : List (Frame K V)} {outer : List (Call K V)}
    (here : cache.callsOf thread = ⟨arguments, frame :: rest⟩ :: outer) (busy : frame.isWork = true) :
    ((cache.work (cache.reach held) thread frame).1.setCalls thread
      (⟨arguments, (cache.work (cache.reach held) thread frame).2 ++ rest⟩ :: outer)).Supervised
      (ended ++ cache.endedBy frame) (settled ++ frame.verdict?.toList) := by
  have quiet := Frame.quiet_of_isWork busy
  have fits := (composed.arranged thread _ (here ▸ List.mem_cons_self)).fits quiet frame List.mem_cons_self
  have works := work_works composed.orderly (cache.reach held) thread fits
  exact supervised.resume here quiet (fun _ => id) works.moves.steady.calls (supervised.tends_work held here busy)

theorem endLoader_supervised (composed : cache.Composed) (held : Reach) {arguments : List ObjectId} {key : Shared K}
    {flight : Flight} {started : Nat} {source : Source} {purpose : Purpose V} {rest : List (Frame K V)}
    {outer : List (Call K V)}
    (here : cache.callsOf thread = ⟨arguments, .loading key flight started source purpose :: rest⟩ :: outer)
    (ending : LoaderEnd V) :
    ((cache.endLoader (cache.reach held) key flight started source purpose ending).1.setCalls thread
      (⟨arguments, (cache.endLoader (cache.reach held) key flight started source purpose ending).2 ++ rest⟩ ::
        outer)).Supervised
      (ended ++ [⟨⟨flight, key, some thread⟩, ending.outcome (cache.hash key.data)⟩]) settled := by
  have fits := (composed.arranged thread _ (here ▸ List.mem_cons_self)).fits rfl _ List.mem_cons_self
  have works := endLoader_works composed.orderly (cache.reach held) (fits.2 _ rfl) started source purpose ending
  simpa using supervised.resume here rfl (fun _ => id) works.moves.steady.calls
    (supervised.tends_endLoader held here ending)

omit [DecidableEq K] [Clock τ] in
theorem closeBackground (empty : ∀ reloads, cache.background = .queue reloads → reloads = []) :
    { cache with background := .closed }.Supervised ended settled := by
  have tasks : cache.background.tasks = 0 := by
    cases waiting : cache.background with
    | none | closed => rfl
    | queue reloads =>
        rw [empty reloads waiting]
        rfl
  refine ⟨supervised.tended, ?_, fun thread call member => ?_, supervised.begun⟩
  · have sound := supervised.sound
    rw [docket, tasks] at sound
    exact sound
  · have kept := supervised.minded thread call member
    exact ⟨kept.secure, kept.backed, kept.issued⟩

omit [DecidableEq K] [Clock τ] in
theorem setClock (clock : τ) : { cache with clock }.Supervised ended settled := by
  refine ⟨supervised.tended, supervised.sound, fun thread call member => ?_, supervised.begun⟩
  have kept := supervised.minded thread call member
  exact ⟨kept.secure, kept.backed, kept.issued⟩

omit [DecidableEq K] [Clock τ] in
theorem contend (contended : Bool) : { cache with contended }.Supervised ended settled := by
  refine ⟨supervised.tended, supervised.sound, fun thread call member => ?_, supervised.begun⟩
  have kept := supervised.minded thread call member
  exact ⟨kept.secure, kept.backed, kept.issued⟩

theorem step_supervised (composed : cache.Composed) (held : Reach) (event : Event K V τ)
    (proper : (⟨cache, held, event⟩ : Moment K V τ).IsProper) :
    (cache.step held event).1.Supervised (ended ++ cache.ends event) (settled ++ cache.settles event) := by
  have happens := cache.step_happens held event
  generalize cache.step held event = result at happens ⊢
  cases happens with
  | entered thread request => simpa [ends, settles] using supervised.enter thread request
  | timed clock => simpa [ends, settles] using supervised.setClock clock
  | contended contended => simpa [ends, settles] using supervised.contend contended
  | closed => simpa [ends, settles] using supervised.closeBackground (proper rfl)
  | idle here => simpa [ends, settles, here] using supervised
  | ended here | returned here =>
      simpa [ends, settles, endedBy, Frame.verdict?, here] using supervised.leave here rfl
  | @passed thread arguments reply frame rest outer here =>
      have tends : Tends _ _ thread cache (.give reply) [] [] (cache.passOn reply frame) :=
        passOn_tends (supervised.tended_spared held) reply frame rfl rfl
      simpa [ends, settles, endedBy, Frame.verdict?, here] using
        supervised.resume here rfl (fun _ member => List.mem_cons_of_mem _ member)
          (cache.passOn_works reply frame).moves.steady.calls tends
  | @unwound thread arguments message rest outer here =>
      have secure := (supervised.minded thread _ (here ▸ List.mem_cons_self)).secure
      have plain : (Frame.unwind message :: rest).all (·.isPlain) = true := by
        rw [List.all_cons, Bool.and_eq_true, List.all_eq_true]
        exact ⟨rfl, fun later member =>
          ((List.pairwise_cons.mp secure).1 later member).resolve_left Bool.false_ne_true⟩
      simpa [ends, settles, endedBy, Frame.verdict?, here] using supervised.leave here plain
  | loading here | listening here | blocked here =>
      simpa [ends, settles, endedBy, Frame.verdict?, here] using supervised
  | worked here busy =>
      simpa [ends, settles, here] using supervised.work_supervised composed held here busy
  | begun here _ =>
      simpa [ends, settles, endedBy, Frame.verdict?, here] using
        supervised.rearrange here rfl [.delivering] (by simp [Frame.delivers]) cache.undelivered true cache.log
  | skipped here _ =>
      simpa [ends, settles, endedBy, Frame.verdict?, here] using
        supervised.rearrange here rfl [] (List.forall_mem_nil _) cache.undelivered cache.delivering cache.log
  | @told thread arguments rest outer removal later here _ =>
      simpa [ends, settles, endedBy, Frame.verdict?, here] using
        supervised.rearrange here rfl [.listening removal, .delivering]
        (by simp [Frame.delivers]) later cache.delivering
          cache.log
  | allTold here _ =>
      simpa [ends, settles, endedBy, Frame.verdict?, here] using
        supervised.rearrange here rfl [] (List.forall_mem_nil _) cache.undelivered false cache.log
  | loaded here ending =>
      simpa [ends, settles, here] using supervised.endLoader_supervised composed held here ending
  | notLoading => simpa [ends, settles] using supervised
  | heard here ending log =>
      simpa [ends, settles] using supervised.rearrange here rfl []
        (List.forall_mem_nil _) cache.undelivered cache.delivering log
  | notListening => simpa [ends, settles] using supervised

end Supervised

section Runs

variable [DecidableEq K] [Clock τ] {config : Config K V} {hash : K → UInt64} {clock : τ}
  {past : List (Moment K V τ)}

omit [DecidableEq K] [Clock τ] in
theorem standing?_create (config : Config K V) (hash : K → UInt64) (clock : τ) :
    (create config hash clock).standing? = fun _ => none := by
  funext flight
  rw [standing?]
  cases found : (create config hash clock).shards[flight.segment]? with
  | none => rfl
  | some shard =>
      obtain ⟨exponent, rfl⟩ := shard_create found
      simp [Segment.standings, Segment.create]

omit [DecidableEq K] [Clock τ] in
theorem supervised_create (config : Config K V) (hash : K → UInt64) (clock : τ) :
    (create config hash clock).Supervised [] [] := by
  have docket_eq : (create config hash clock).docket = ⟨fun _ => none, 0, 0⟩ := by
    rw [docket, standing?_create]
    simp only [create]
    cases config.background <;> rfl
  refine ⟨fun index shard found => ?_, docket_eq ▸ Docket.Sound.blank, fun _ => List.forall_mem_nil _,
    fun _ => List.forall_mem_nil _⟩
  obtain ⟨exponent, rfl⟩ := shard_create found
  have tended := Segment.tended_create hash (create config hash clock).policy
    (Bound.share config.bound (Sizing.segments config.concurrencyLevel config.bound) index) exponent fun _ => true
  have nothing : (fun id => (⟨index, id⟩ : Flight) ∈ ([] : List (Ending K V)).map (·.task.flight)) =
      fun _ => False :=
    funext fun _ => eq_false List.not_mem_nil
  rw [nothing]
  exact tended

theorem History.supervised (history : History config hash clock past cache)
    (proper : ∀ moment ∈ past, moment.IsProper) :
    cache.Supervised (past.flatMap Moment.ends) (past.flatMap Moment.settles) := by
  induction history with
  | create => exact supervised_create config hash clock
  | @step past cache history held event ih =>
      simp only [List.flatMap_append, List.flatMap_singleton]
      have earlier := ih fun moment member => proper moment (List.mem_append_left _ member)
      exact earlier.step_supervised history.recorded.composed held event
        (proper _ (List.mem_append_right _ List.mem_cons_self))

end Runs

/-- The thread has the load at hand, or had it when it ended. -/
def Leads (cache : Cache K V τ) (ended : List (Ending K V)) (thread : ThreadId) (flight : Flight) : Prop :=
  ∃ task : Task K, task.flight = flight ∧ task.keeper = some thread ∧
    ((∃ call ∈ cache.callsOf thread, ∃ frame ∈ call.frames, frame.task? thread = some task) ∨
      ∃ ending ∈ ended, ending.task = task)

structure AtRest (cache : Cache K V τ) : Prop where
  calls : ∀ thread, ∀ call ∈ cache.callsOf thread, ∀ frame ∈ call.frames, frame.task? thread = none
  queue : ∀ reloads, cache.background = .queue reloads → reloads = []

theorem AtRest.tasks (rest : cache.AtRest) : cache.docket.tasks = 0 := by
  refine Multiset.eq_zero_of_forall_notMem fun task member => ?_
  rcases Multiset.mem_add.mp member with in_call | queued
  · obtain ⟨thread, in_call⟩ := (mem_across fun _ => rfl).mp in_call
    obtain ⟨call, inside, frame, there, at_hand⟩ := mem_tasksOfCalls.mp in_call
    cases (rest.calls thread call inside frame there).symm.trans at_hand
  · cases waiting : cache.background with
    | none | closed =>
        rw [waiting] at queued
        cases Multiset.notMem_zero _ queued
    | queue reloads =>
        rw [waiting, rest.queue reloads waiting] at queued
        cases Multiset.notMem_zero _ queued

structure Settlement [DecidableEq K] [Clock τ] (past : List (Moment K V τ)) (cache : Cache K V τ) : Prop where
  /-- For each load that was issued there is one place: someone is to run it or to give it up, someone is to
  announce how it ended, or that was announced. -/
  custody : ∀ flight, (cache.docket.tasks.map Task.flight).count flight +
      (cache.docket.verdicts.map Verdict.flight).count flight +
      ((past.flatMap Moment.settles).map Verdict.flight).count flight =
    (cache.load? flight).elim 0 fun _ => 1
  ended_once : ((past.flatMap Moment.ends).map (·.task.flight)).Nodup
  announced : ∀ verdict ∈ past.flatMap Moment.settles, ∃ ending ∈ past.flatMap Moment.ends,
    ending.verdict = verdict
  outcomes : ∀ flight load, cache.load? flight = some load → ∀ outcome,
    load.outcome = some outcome ↔ ⟨flight, outcome⟩ ∈ past.flatMap Moment.settles
  finished : (∀ thread, cache.callsOf thread = []) →
    (∀ reloads, cache.background = .queue reloads → reloads = []) →
    ∀ flight load, cache.load? flight = some load → ∃ outcome, load.outcome = some outcome
  led : ∀ thread arguments key flight started source purpose rest outer,
    cache.callsOf thread = ⟨arguments, .loading key flight started source purpose :: rest⟩ :: outer →
    ∀ held ending,
      ∃ last, (cache.step held (.loaderEnded thread ending)).1.callsOf thread =
          ⟨arguments, .deliver :: .settle flight (ending.outcome (cache.hash key.data)) :: last :: rest⟩ ::
          outer ∧
        ((∃ message, ending = .panicked message ∧ last = .unwind message) ∨
          (∀ message, ending ≠ .panicked message) ∧
            last = .conclude source purpose (ending.outcome (cache.hash key.data)))
  /-- Whoever waits for a load of another thread is blocked until its outcome is announced, and goes on with that. -/
  joined : ∀ thread arguments key flight rest outer,
    cache.callsOf thread = ⟨arguments, .await key flight :: rest⟩ :: outer →
      ¬ cache.Leads (past.flatMap Moment.ends) thread flight → ∀ held,
        (∃ load, cache.load? flight = some load ∧ load.outcome = none ∧
          cache.step held (.proceed thread) = (cache, .blocked)) ∨
        ∃ outcome, ⟨flight, outcome⟩ ∈ past.flatMap Moment.settles ∧
          cache.step held (.proceed thread) =
            (cache.setCalls thread (⟨arguments, .give (.outcome outcome) :: rest⟩ :: outer), .progress) ∧
          (rest = [] → ∀ held', (((cache.step held (.proceed thread)).1.step held' (.proceed thread)).2 =
            .returned (.outcome outcome)))
  ready : cache.AtRest → cache.Each fun _ shard =>
    ∀ handle entry, shard.segment.entry? handle = some entry → entry.isReady = true

namespace Supervised

variable (supervised : cache.Supervised ended settled)

include supervised

theorem custody (flight : Flight) :
    (cache.docket.tasks.map Task.flight).count flight + (cache.docket.verdicts.map Verdict.flight).count flight +
      (settled.map Verdict.flight).count flight = (cache.load? flight).elim 0 fun _ => 1 := by
  have custody := supervised.sound.custody flight
  have verdicts := supervised.sound.count_verdicts flight
  rw [show cache.docket.loads flight = cache.standing? flight from rfl, standing?_eq] at custody
  have same : ((cache.load? flight).map Load.standing).elim 0 (fun _ => 1) =
      (cache.load? flight).elim 0 fun _ => 1 := by
    cases cache.load? flight <;> rfl
  omega

theorem outcomes {flight : Flight} {load : Load K V} (issued : cache.load? flight = some load)
    (outcome : LoadOutcome V) : load.outcome = some outcome ↔ ⟨flight, outcome⟩ ∈ settled := by
  have standing : cache.docket.loads flight = some load.standing := by
    rw [show cache.docket.loads flight = cache.standing? flight from rfl, standing?_eq, issued]
    rfl
  exact supervised.sound.outcomes flight load.standing standing outcome

theorem leads {flight : Flight} {load : Load K V} (issued : cache.load? flight = some load)
    (owned : load.owner = some thread) : cache.Leads ended thread flight := by
  have standing : cache.docket.loads flight = some load.standing := by
    rw [show cache.docket.loads flight = cache.standing? flight from rfl, standing?_eq, issued]
    rfl
  rcases supervised.sound.owners flight load.standing thread standing owned with
    ⟨task, member, same, kept⟩ | ⟨ending, member, same, kept⟩
  · refine ⟨task, same, kept, .inl ?_⟩
    rcases Multiset.mem_add.mp member with in_call | queued
    · obtain ⟨other, in_call⟩ := (mem_across fun _ => rfl).mp in_call
      obtain ⟨call, inside, frame, there, at_hand⟩ := mem_tasksOfCalls.mp in_call
      obtain rfl : other = thread := Frame.keeper_of_task at_hand kept
      exact ⟨call, inside, frame, there, at_hand⟩
    · cases Background.keeper_of_task queued ▸ kept
  · exact ⟨ending.task, same, kept, .inr ⟨ending, member, rfl⟩⟩

theorem ready (rest : cache.AtRest) :
    cache.Each fun _ shard => ∀ handle entry, shard.segment.entry? handle = some entry → entry.isReady = true := by
  intro index shard found handle entry located
  by_contra waiting
  obtain ⟨id, carried⟩ : ∃ id, entry.load? = some id := by
    unfold Entry.isReady at waiting
    unfold Entry.load?
    cases content : entry.content with
    | ready => simp [content] at waiting
    | loading id => exact ⟨id, rfl⟩
  have live := Segment.bare?_of_found located
  obtain ⟨running, load, known, _⟩ := (supervised.tended index shard found).flights.carried handle _ id live carried
  have issued : cache.standing? ⟨index, id⟩ = some load.standing := by
    rw [standing?_eq, load?, found, Option.bind_some, known, Option.map_some]
  obtain ⟨task, member, _⟩ := supervised.at_hand issued running
  rw [rest.tasks] at member
  cases Multiset.notMem_zero _ member

end Supervised

section History

variable [DecidableEq K] [Clock τ] {config : Config K V} {hash : K → UInt64} {clock : τ}
  {past : List (Moment K V τ)}

theorem endLoader_snd (cache : Cache K V τ) (reach : Reach) (key : Shared K) (flight : Flight) (started : Nat)
    (source : Source) (purpose : Purpose V) (ending : LoaderEnd V) :
    ∃ last, (cache.endLoader reach key flight started source purpose ending).2 =
        [.deliver, .settle flight (ending.outcome (cache.hash key.data)), last] ∧
      ((∃ message, ending = .panicked message ∧ last = .unwind message) ∨
        (∀ message, ending ≠ .panicked message) ∧
          last = .conclude source purpose (ending.outcome (cache.hash key.data))) := by
  cases ending with
  | value | nothing | failed => exact ⟨_, rfl, .inr ⟨nofun, rfl⟩⟩
  | panicked message =>
      refine ⟨.unwind message, ?_, .inl ⟨message, rfl, rfl⟩⟩
      obtain ⟨stats, counted⟩ := count_eq cache.readClock.2 (·.countLoadFailure (cache.readClock.1 - started))
      simp only [endLoader, giveUp, counted]
      rfl

/-- Whatever the client does, every load is settled once, and all callers agree on its outcome. -/
theorem settlement_of_history (history : History config hash clock past cache)
    (proper : ∀ moment ∈ past, moment.IsProper) : Settlement past cache := by
  have supervised := history.supervised proper
  refine ⟨supervised.custody, ?_, ?_, ?_, ?_, ?_, ?_, fun rest => supervised.ready rest⟩
  · rw [List.nodup_iff_count_le_one]
    intro flight
    exact (Nat.le_add_left ..).trans (supervised.sound.custody_le flight)
  · intro verdict announced
    have known : verdict ∈ ((past.flatMap Moment.ends).map Ending.verdict : Multiset (Verdict V)) := by
      rw [supervised.sound.announced]
      exact Multiset.mem_add.mpr (.inl (Multiset.mem_coe.mpr announced))
    exact List.mem_map.mp (Multiset.mem_coe.mp known)
  · exact fun flight load issued outcome => supervised.outcomes issued outcome
  · intro idle empty flight load issued
    have custody := supervised.custody flight
    have nobody : cache.across verdictsOfCalls = 0 := by
      rw [across, Finset.sum_eq_zero]
      intro thread _
      rw [idle]
      rfl
    have rest : cache.AtRest := ⟨fun thread call member => by simp [idle] at member, empty⟩
    rw [rest.tasks, show cache.docket.verdicts = 0 from nobody, issued, Multiset.map_zero, Multiset.count_zero,
      Multiset.map_zero, Multiset.count_zero, Option.elim_some, zero_add, zero_add] at custody
    obtain ⟨verdict, announced, rfl⟩ := List.mem_map.mp (List.count_pos_iff.mp (custody ▸ Nat.one_pos))
    exact ⟨verdict.outcome, (supervised.outcomes issued _).mpr announced⟩
  · intro thread arguments key flight started source purpose rest outer here held ending
    obtain ⟨last, frames, leaves⟩ :=
      cache.endLoader_snd (cache.reach held) key flight started source purpose ending
    refine ⟨last, ?_, leaves⟩
    simp [step, here, frames]
  · intro thread arguments key flight rest outer here others held
    obtain ⟨load, issued⟩ : ∃ load, cache.load? flight = some load := by
      have awaited := (supervised.minded thread _ (here ▸ List.mem_cons_self)).issued _ List.mem_cons_self flight rfl
      rw [standing?_eq, Option.isSome_map] at awaited
      exact Option.isSome_iff_exists.mp awaited
    have foreign : load.owner ≠ some thread := fun owned => others (supervised.leads issued owned)
    cases decided : load.outcome with
    | none =>
        left
        refine ⟨load, issued, decided, ?_⟩
        simp [step, proceed, here, isBlocked, issued, decided, foreign]
    | some outcome =>
        right
        have goes : cache.step held (.proceed thread) =
            (cache.setCalls thread (⟨arguments, .give (.outcome outcome) :: rest⟩ :: outer), .progress) := by
          simp [step, proceed, here, isBlocked, issued, decided, work, foreign]
        refine ⟨outcome, (supervised.outcomes issued outcome).mp decided, goes, ?_⟩
        rintro rfl held'
        rw [goes]
        simp [step, proceed]

/-- Two threads miss the same key before either claims it. The load of the faster one answers both. -/
theorem settlement_after_joining :
    let moves (thread : ThreadId) (steps : Nat) : List (Event Nat Nat ManualClock) := .replicate steps (.proceed thread)
    let events := .call 0 (.get ⟨0, 7⟩) :: moves 0 2 ++ .call 1 (.get ⟨1, 7⟩) :: moves 1 2 ++
      moves 0 3 ++ moves 1 4 ++ .loaderEnded 0 (.value ⟨2, 70⟩) :: moves 0 5 ++ moves 1 2
    let run := (create { initialCapacity := 1, concurrencyLevel := 1 } (fun _ => 3) {}).run (fun _ => true) events
    (run.1.flatMap Moment.ends).map (fun ending => (ending.task.key.data, ending.outcome.toOption)) =
        [(7, some ⟨2, 70⟩)] ∧
      (run.1.filterMap fun moment => match moment.signal with
        | .returned (.outcome outcome) => outcome.toOption
        | _ => none) = [⟨2, 70⟩, ⟨2, 70⟩] ∧
      Settlement run.1 run.2 := by
  intro moves events run
  have history : History { initialCapacity := 1, concurrencyLevel := 1 } (fun _ => 3) {} run.1 run.2 :=
    History.create.run (fun _ => true) events
  exact ⟨by decide +kernel, by decide +kernel,
    settlement_of_history history (proper_of_run (by simp [events, moves]))⟩

end History

end Cache
end SegmentedCache
