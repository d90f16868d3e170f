import SegmentedCache.Proofs.Cache.Custody

namespace SegmentedCache.Cache

open Docket (Handles)

/-!
What the frames of a call do about loads. Each hands the load that it has to the frames that it leaves behind, starts
one, or ends one.
-/

variable {K V τ : Type} {cache t : Cache K V τ} {held reach : Reach} {spent : Flight → Prop} {flight : Flight}
  {key : Shared K} {thread : ThreadId} {frame : Frame K V} {settled : List (Verdict V)}

section Loads

variable [Clock τ]

theorem runLoader_tends (drifts : Drifts held spent cache t)
    (task : frame.task? thread = some ⟨flight, key, some thread⟩) (verdict : frame.verdict? = none)
    (source : Source) (purpose : Purpose V) :
    Tends held spent thread cache frame [] [] (t.runLoader key flight source purpose) := by
  apply Tends.of_drifts (drifts.trans drifts.tended.readClock)
  · rw [tasksOf_of_task task]
    rfl
  · rw [verdictsOf_of_none verdict]
    rfl
  · refine ⟨?_, ?_, ?_⟩
    · simp [Frame.isPlain]
    · simp [Backed]
    · simp [Frame.awaited?]
  · simp

theorem reload_tends (tended : cache.Tended held spent)
    (task : frame.task? thread = some ⟨flight, key, some thread⟩) (verdict : frame.verdict? = none)
    (old : Shared V) :
    Tends held spent thread cache frame [] [] (cache.reload key flight old) := by
  have disowned := tended.modifyLoad flight (f := (·.setOwner none)) fun _ => ⟨rfl, rfl⟩
  have standing := cache.standing?_modifyLoad flight (f := (·.setOwner none)) fun _ => rfl
  have tasks := tasksOf_of_task task
  have verdicts := verdictsOf_of_none verdict
  unfold reload
  split
  · exact runLoader_tends (.refl tended) task verdict .bound (.renew old)
  · rename_i reloads queued
    refine .running disowned ?_ (.of_plain rfl) (by simp)
    have tasks' : (Background.queue (reloads ++ [⟨key, flight, old⟩])).tasks =
        ⟨flight, key, none⟩ ::ₘ (Background.queue reloads).tasks := by
      simp only [Background.tasks, List.map_append, List.map_cons, List.map_nil, ← Multiset.coe_add,
        Multiset.coe_singleton]
      rw [add_comm, Multiset.singleton_add]
    rw [tasks, verdicts, queued, Multiset.singleton_add, tasksOf_of_plain rfl,
      verdictsOf_of_plain rfl, zero_add, tasks']
    exact standing ▸ .pass
  · rename_i closed
    refine .running disowned ?_ ⟨?_, ?_, ?_⟩ (by simp)
    · rw [tasks, verdicts, Multiset.singleton_add]
      simp only [tasksOf_cons, verdictsOf_cons, Frame.task?, Frame.verdict?, tasksOf_nil, verdictsOf_nil,
        Option.elim_some, Option.elim_none, add_zero, Multiset.singleton_add]
      exact standing ▸ .pass
    · simp [Frame.isPlain]
    · simp [Backed]
    · simp [Frame.awaited?]

theorem answer_tends (tended : cache.Tended held spent) (key : Shared K) (source : Source) (value : Shared V)
    (renewal : Option (Flight × Shared V)) :
    Tends held spent thread cache (.answer key source value renewal) [] [] (cache.answer key source value renewal) := by
  cases renewal with
  | none => exact .plain (.refl tended) rfl rfl rfl
  | some renewal =>
      cases source with
      | given => exact runLoader_tends (.refl tended) rfl rfl .given (.renew renewal.2)
      | bound => exact reload_tends tended rfl rfl renewal.2

theorem takeClaim_tends (tended : cache.Tended held spent) (key : Shared K) (source : Source) (segment : Nat)
    (claim : Claim V)
    (issued : ∀ load, claim = .taken load → (cache.standing? ⟨segment, load⟩).isSome = true) :
    Tends held spent thread cache (.claimed key source segment claim) [] []
      (cache.takeClaim key source segment claim) := by
  cases claim with
  | needless value => exact .plain (tended.count _) rfl rfl rfl
  | taken load => exact .await (tended.count _) rfl rfl key (issued load rfl)
  | granted load => exact runLoader_tends (tended.count _) rfl rfl source .fetch

omit [Clock τ] in
theorem conclude_tends (tended : cache.Tended held spent) (source : Source) (purpose : Purpose V)
    (outcome : LoadOutcome V) :
    Tends held spent thread cache (.conclude source purpose outcome) [] [] (cache.conclude source purpose outcome) := by
  cases purpose with
  | fetch => exact .plain (.refl tended) rfl rfl rfl
  | renew | renewLater =>
      cases outcome with
      | ok => exact .plain (.refl tended) rfl rfl rfl
      | error => exact .plain (tended.logged _) rfl rfl rfl

end Loads

section Work

variable [DecidableEq K] [Clock τ]

omit [DecidableEq K] [Clock τ] in
theorem fits_of_own {task : Task K} (own : cache.standing? task.flight = some task.load)
    (running : ¬ spent task.flight) (loaded : Option (Shared V)) {shard : Shard K V}
    (found : cache.shards[task.flight.segment]? = some shard) :
    (Operation.finishLoad task.key task.flight.load loaded).Fits (fun id => spent ⟨task.flight.segment, id⟩) held
      shard.segment := by
  refine ⟨nofun, ?_⟩
  rintro _ _ _ ⟨⟩
  rw [standing?_eq, load?, found, Option.bind_some] at own
  obtain ⟨load, issued, standing⟩ := Option.map_eq_some_iff.mp own
  exact ⟨running, load, issued, congrArg Load.key standing⟩

omit [Clock τ] in
theorem Tended.finishLoad (tended : cache.Tended held spent) (honoured : cache.policy.Honours reach held) (now : Nat)
    {task : Task K} (own : cache.standing? task.flight = some task.load) (running : ¬ spent task.flight)
    (loaded : Option (Shared V)) :
    (cache.finishLoad reach now task.key task.flight loaded).Tended held
        (fun flight => spent flight ∨ flight = task.flight) ∧
      (cache.finishLoad reach now task.key task.flight loaded).standing? = cache.standing? ∧
      (cache.finishLoad reach now task.key task.flight loaded).background = cache.background := by
  have finished : (cache.finishLoad reach now task.key task.flight loaded).Tended held
      (fun flight => spent flight ∨ flight = task.flight) := by
    refine tended.operate honoured task.flight.segment now (.finishLoad task.key task.flight.load loaded)
      (fun shard found => fits_of_own own running loaded found) (fun flight different => ?_) fun id => ?_
    · refine ⟨fun ended => ended.resolve_right fun same => different (same ▸ rfl), .inl⟩
    · refine or_congr_right ⟨fun same => ?_, fun same => ?_⟩
      · exact congrArg (some ∘ Flight.load) same.symm
      · rw [← Option.some.inj same]
  have same : Drifts held (fun flight => spent flight ∨ flight = task.flight) cache
      (cache.finishLoad reach now task.key task.flight loaded) := by
    refine finished.drifts fun shard found => ?_
    have consistent := (tended task.flight.segment shard found).consistent
    exact (consistent.runs cache.hash reach now (.finishLoad task.key task.flight.load loaded)).standings consistent rfl
  exact ⟨finished, same.standing, same.background⟩

omit [Clock τ] in
theorem Tends.finish (task : Task K) {outcome : LoadOutcome V} {rest : List (Frame K V)}
    (drifts : Drifts held spent cache t) (honoured : cache.policy.Honours reach held)
    (own : cache.standing? task.flight = some task.load) (running : ¬ spent task.flight)
    (at_hand : frame.task? thread = some task) (verdict : frame.verdict? = none) (now : Nat)
    (loaded : Option (Shared V)) (plain : rest.all (·.isPlain) = true) :
    Tends held spent thread cache frame [⟨task, outcome⟩] []
      (t.finishLoad reach now task.key task.flight loaded, .deliver :: .settle task.flight outcome :: rest) := by
  obtain ⟨tended, standing, background⟩ := drifts.tended.finishLoad (drifts.steady.policy ▸ honoured) now
    (drifts.standing ▸ own) running loaded
  refine ⟨by simpa using tended, ?_, ⟨?_, ?_, ?_⟩, ?_⟩
  · have tasks : tasksOf thread (.deliver :: .settle task.flight outcome :: rest) = 0 := by
      simp [Frame.task?, tasksOf_of_plain plain]
    have verdicts : verdictsOf (.deliver :: .settle task.flight outcome :: rest) = {⟨task.flight, outcome⟩} := by
      simp [Frame.verdict?, verdictsOf_of_plain plain]
    rw [standing, background, drifts.standing, drifts.background, tasks, verdicts, tasksOf_of_task at_hand,
      verdictsOf_of_none verdict, zero_add, Multiset.singleton_add]
    exact .finish ⟨task, outcome⟩
  · exact .cons (fun _ _ => .inl rfl)
      (.cons (fun later member => .inr (List.all_eq_true.mp plain later member)) (secure_of_plain plain))
  · have backed := backed_of_plain plain
    exact backed
  · intro frame member flight awaited
    rcases List.mem_cons.mp member with rfl | member
    · cases awaited
    rcases List.mem_cons.mp member with rfl | member
    · cases awaited
    · cases (awaited?_of_all_plain plain frame member).symm.trans awaited
  · intro request member
    simp only [List.mem_cons, reduceCtorEq, false_or] at member
    exact start_of_all_plain plain request member

theorem giveUp_tends (task : Task K) (drifts : Drifts held spent cache t) (honoured : cache.policy.Honours reach held)
    (own : cache.standing? task.flight = some task.load) (running : ¬ spent task.flight)
    (at_hand : frame.task? thread = some task) (verdict : frame.verdict? = none) (rest : List (Frame K V))
    (plain : rest.all (·.isPlain) = true) :
    Tends held spent thread cache frame [⟨task, .error (.loadDropped (cache.hash task.key.data))⟩] []
      ((t.giveUp reach task.key task.flight).1, (t.giveUp reach task.key task.flight).2 ++ rest) := by
  have ticked := drifts.trans drifts.tended.readClock
  rw [← drifts.steady.hash]
  exact .finish task ticked honoured own running at_hand verdict t.readClock.1 none plain

theorem endLoader_tends (tended : cache.Tended held spent) (honoured : cache.policy.Honours reach held)
    (own : cache.standing? flight = some (Task.load ⟨flight, key, some thread⟩)) (running : ¬ spent flight)
    (started : Nat) (source : Source) (purpose : Purpose V) (ending : LoaderEnd V) :
    Tends held spent thread cache (.loading key flight started source purpose)
      [⟨⟨flight, key, some thread⟩, ending.outcome (cache.hash key.data)⟩] []
      (cache.endLoader reach key flight started source purpose ending) := by
  have ticked := tended.readClock
  have counted (f : Stats → Stats) := ticked.trans (ticked.tended.count f)
  have finished (f : Stats → Stats) (outcome : LoadOutcome V) :
      Tends held spent thread cache (.loading key flight started source purpose)
        [⟨⟨flight, key, some thread⟩, outcome⟩] []
        ((cache.readClock.2.count f).finishLoad
            (fun object => reach object || outcome.toOption.any (·.id = object)) cache.readClock.1 key flight
            outcome.toOption,
          [.deliver, .settle flight outcome, .conclude source purpose outcome]) := by
    have honoured' : cache.policy.Honours (fun object => reach object || outcome.toOption.any (·.id = object)) held :=
      honoured.mono fun object reached => by rw [reached, Bool.true_or]
    exact .finish ⟨flight, key, some thread⟩ (counted f) honoured' own running rfl rfl _ _ rfl
  cases ending with
  | value value => exact finished _ (.ok value)
  | nothing => exact finished _ (.error _)
  | failed failure => exact finished _ (.error _)
  | panicked message =>
      exact giveUp_tends ⟨flight, key, some thread⟩ (counted _) honoured own running rfl rfl [.unwind message]
        rfl

theorem countRead_drifts (tended : cache.Tended held spent) (honoured : cache.policy.Honours reach held)
    (segment : Nat) :
    Drifts held spent cache (cache.countRead reach segment).1 ∧
      ∀ frame ∈ (cache.countRead reach segment).2, frame = .deliver := by
  have noted : Drifts held spent cache (cache.readNoted segment) := tended.noteRead segment
  have counting := cache.counting reach segment
  generalize cache.countRead reach segment = result at counting ⊢
  cases counting with
  | due =>
      have ticked := noted.trans noted.tended.readClock
      refine ⟨ticked.trans ?_, by simp⟩
      exact ticked.tended.idle (ticked.steady.policy ▸ honoured) segment _ .cleanUp rfl rfl
  | busy | waiting => exact ⟨noted, by simp⟩

theorem looked_drifts (tended : cache.Tended held spent) (honoured : cache.policy.Honours reach held) (key : K) :
    Drifts held spent cache (cache.looked reach key) :=
  tended.readClock.trans (tended.readClock.tended.idle honoured (cache.segmentOf key) _ (.read key) rfl rfl)

theorem lookup_tends (tended : cache.Tended held spent) (honoured : cache.policy.Honours reach held) (key : K)
    (task : frame.task? thread = none) (verdict : frame.verdict? = none) :
    Tends held spent thread cache frame [] [] (cache.lookup reach key) := by
  have read := looked_drifts tended honoured key
  have looked (f : Stats → Stats) (value : Option (Shared V)) :
      Tends held spent thread cache frame [] []
        ((((cache.looked reach key).count f).countRead reach (cache.segmentOf key)).1,
          (((cache.looked reach key).count f).countRead reach (cache.segmentOf key)).2 ++ [.give (.value value)]) := by
    have counted := read.trans (read.tended.count f)
    obtain ⟨drifts, deliveries⟩ :=
      countRead_drifts counted.tended (counted.steady.policy ▸ honoured) (cache.segmentOf key)
    apply Tends.plain (counted.trans drifts) task verdict
    rw [List.all_append, Bool.and_eq_true]
    exact ⟨plain_of_deliveries deliveries, rfl⟩
  have looking := cache.looking reach key
  generalize cache.lookup reach key = result at looking ⊢
  cases looking with
  | served | missed => exact looked _ _

theorem find_tends (tended : cache.Tended held spent) (honoured : cache.policy.Honours reach held) (key : Shared K)
    (source : Source) : Tends held spent thread cache (.find key source) [] [] (cache.find reach key source) := by
  have read := looked_drifts tended honoured key.data
  have counted (f : Stats → Stats) := read.trans (read.tended.count f)
  have seeking := cache.seeking reach key source
  generalize cache.find reach key source = result at seeking ⊢
  cases seeking with
  | served | overdue => exact .plain (counted _) rfl rfl rfl
  | missed => exact .plain read rfl rfl rfl
  | joined pending =>
      refine .await (counted _) rfl rfl key ?_
      cases found : cache.shards[cache.segmentOf key.data]? with
      | none =>
          rw [finding, found] at pending
          cases pending
      | some shard =>
          rw [finding_eq found] at pending
          obtain ⟨handle, record, live, carried⟩ := Segment.pending_of_read pending
          exact tended.issued found live carried

omit [Clock τ] in
theorem claim_tends (tended : cache.Tended held spent) (honoured : cache.policy.Honours reach held)
    (reached : held key.id = true) (source : Source) (now : Nat) :
    Tends held spent thread cache (.claim key source now) [] [] (cache.claim reach thread key source now) := by
  rw [claim_eq]
  cases found : cache.shards[cache.segmentOf key.data]? with
  | none =>
      rw [changeSegment_of_none found]
      exact .plain (.refl tended) rfl rfl rfl
  | some shard =>
      have claimed := tended.claim honoured now thread reached found
      dsimp only [Option.elim_some]
      generalize Cache.changeSegment _ _ _ = u, (shard.segment.claim _ _ _ _ _).1 = claim at claimed ⊢
      cases claimed with
      | granted starts => exact .start starts rfl rfl rfl trivial
      | taken drifts issued =>
          refine .of_drifts drifts rfl rfl ⟨?_, trivial, ?_⟩ (by simp)
          · simp [Frame.delivers]
          · simpa [Frame.awaited?] using issued
      | needless drifts =>
          refine .of_drifts drifts rfl rfl ⟨?_, trivial, ?_⟩ (by simp)
          · simp [Frame.delivers]
          · simp [Frame.awaited?]

omit [Clock τ] in
theorem renew_tends (tended : cache.Tended held spent) (honoured : cache.policy.Honours reach held)
    (reached : held key.id = true) (source : Source) (now : Nat) (value : Shared V) :
    Tends held spent thread cache (.renew key source now value) [] []
      (cache.renew reach thread key source now value) := by
  have claiming := tended.claimRefresh honoured now thread reached (cache.segmentOf key.data) false
  rw [renew_eq]
  rcases claiming with ⟨nothing, drifts⟩ | ⟨id, old, renewal, starts⟩
  · rw [nothing]
    exact .plain drifts rfl rfl rfl
  · rw [renewal]
    exact .start starts rfl rfl rfl trivial

theorem put_tends (tended : cache.Tended held spent) (honoured : cache.policy.Honours reach held) (key : Shared K)
    (value : Shared V) (onlyIfNew : Bool) (task : frame.task? thread = none) (verdict : frame.verdict? = none) :
    Tends held spent thread cache frame [] [] (cache.put reach key value onlyIfNew) := by
  have ticked := tended.readClock
  have stored : Drifts held spent cache (cache.put reach key value onlyIfNew).1 := by
    rw [put_fst]
    exact ticked.trans (ticked.tended.idle honoured (cache.segmentOf key.data) cache.readClock.1
      (.insert key value onlyIfNew) rfl rfl)
  exact .plain stored task verdict rfl

theorem remove_drifts (tended : cache.Tended held spent) (honoured : cache.policy.Honours reach held) (key : K) :
    Drifts held spent cache (cache.remove reach key).2 := by
  have ticked := tended.readClock
  rw [remove_snd]
  exact ticked.trans (ticked.tended.idle honoured (cache.segmentOf key) cache.readClock.1 (.remove key) rfl rfl)

theorem startRequest_tends (tended : cache.Tended held spent) (honoured : cache.policy.Honours reach held)
    (request : Request K V) (reached : ∀ key ∈ (Frame.start request).starts, held key.id = true) :
    Tends held spent thread cache (.start request) [] [] (cache.startRequest reach thread request) := by
  have waiting (frames : List (Frame K V)) (plain : frames.all (·.isPlain) = true) :
      Tends held spent thread cache (.start request) [] [] (cache, frames) := .plain (.refl tended) rfl rfl plain
  cases request with
  | lookup key => exact lookup_tends tended honoured key rfl rfl
  | get | load | removeAll | clear | cleanUp | releaseSoft => exact waiting _ rfl
  | loadAll keys => cases keys <;> exact waiting _ rfl
  | refresh key =>
      have ticked := tended.readClock
      have claimed := ticked.tended.claimRefresh honoured cache.readClock.1 thread
        (reached key List.mem_cons_self) (cache.segmentOf key.data) true
      unfold startRequest
      dsimp only
      rw [onSegment_snd]
      rcases claimed with ⟨none, drifts⟩ | ⟨id, old, claimed, starts⟩
      · rw [show cache.readClock.2.hash = cache.hash from rfl] at none drifts
        rw [none]
        exact .plain (ticked.trans drifts) rfl rfl rfl
      · rw [show cache.readClock.2.hash = cache.hash from rfl] at claimed starts
        rw [claimed]
        exact .start (ticked.starts starts) rfl rfl rfl trivial
  | insert key value => exact put_tends tended honoured key value false rfl rfl
  | insertIfNew key value => exact put_tends tended honoured key value true rfl rfl
  | remove key => exact .plain (remove_drifts tended honoured key) rfl rfl rfl
  | contains key | entries => exact .plain tended.readClock rfl rfl rfl
  | runReload =>
      dsimp only [startRequest]
      split
      · exact waiting _ rfl
      · rename_i reload t next
        obtain ⟨background, rfl, tasks⟩ := tasks_of_next next
        have owned :
            ({ cache with background }.modifyLoad reload.flight (·.setOwner (some thread))).Tended held spent :=
          tended.modifyLoad reload.flight fun _ => ⟨rfl, rfl⟩
        have standing := { cache with background }.standing?_modifyLoad reload.flight
          (f := (·.setOwner (some thread))) fun _ => rfl
        refine .running owned.readClock.tended ?_ ⟨?_, ?_, ?_⟩ (by simp)
        · have before : tasksOf thread [Frame.start (V := V) (K := K) .runReload] = 0 := rfl
          rw [before, tasks, zero_add]
          simp only [tasksOf_cons, verdictsOf_cons, Frame.task?, Frame.verdict?, tasksOf_nil, verdictsOf_nil,
            Option.elim_some, Option.elim_none, add_zero, Multiset.singleton_add]
          exact standing ▸ .pass
        · simp [Frame.isPlain]
        · simp [Backed]
        · simp [Frame.awaited?]
  | dropReload =>
      dsimp only [startRequest]
      split
      · exact waiting _ rfl
      · rename_i reload t next
        obtain ⟨background, rfl, tasks⟩ := tasks_of_next next
        refine .running tended ?_ ⟨?_, ?_, ?_⟩ (by simp)
        · have before : tasksOf thread [Frame.start (V := V) (K := K) .dropReload] = 0 := rfl
          rw [before, tasks, zero_add]
          simp only [tasksOf_cons, verdictsOf_cons, Frame.task?, Frame.verdict?, tasksOf_nil, verdictsOf_nil,
            Option.elim_some, Option.elim_none, add_zero, Multiset.singleton_add]
          exact .stay _
        · simp [Frame.isPlain]
        · simp [Backed]
        · simp [Frame.awaited?]

omit [DecidableEq K] [Clock τ] in
theorem passOn_tends (tended : cache.Tended held spent) (reply : Reply K V) (next : Frame K V)
    (task : frame.task? thread = none) (verdict : frame.verdict? = none) :
    Tends held spent thread cache frame [] [] (cache.passOn reply next) := by
  unfold passOn
  repeat' split
  all_goals first
    | exact .plain (.refl tended) task verdict rfl
    | exact .plain (tended.logged _) task verdict rfl

def endedBy (cache : Cache K V τ) : Frame K V → List (Ending K V)
  | .cancel key flight => [⟨⟨flight, key, none⟩, .error (.loadDropped (cache.hash key.data))⟩]
  | _ => []

theorem work_tends (tended : cache.Tended held spent) (honoured : cache.policy.Honours reach held) (thread : ThreadId)
    (frame : Frame K V) (quiet : frame.delivers = false)
    (returned : ∀ key flight started source purpose, frame ≠ .loading key flight started source purpose)
    (reached : ∀ key ∈ frame.starts, held key.id = true)
    (own : ∀ task, frame.task? thread = some task → cache.standing? task.flight = some task.load ∧
      ¬ spent task.flight)
    (issued : ∀ flight, frame.awaited? = some flight → (cache.standing? flight).isSome = true) :
    Tends held spent thread cache frame (cache.endedBy frame) frame.verdict?.toList
      (cache.work reach thread frame) := by
  have waiting (frame : Frame K V) (task : frame.task? thread = none) (verdict : frame.verdict? = none)
      (frames : List (Frame K V)) (plain : frames.all (·.isPlain) = true) :
      Tends held spent thread cache frame [] [] (cache, frames) := .plain (.refl tended) task verdict plain
  cases frame with
  | start request => exact startRequest_tends tended honoured request reached
  | deliver | delivering | listening => cases quiet
  | find key source => exact find_tends tended honoured key source
  | claim key source now => exact claim_tends tended honoured (reached key List.mem_cons_self) source now
  | renew key source now value => exact renew_tends tended honoured (reached key List.mem_cons_self) source now value
  | found key source value renewal =>
      obtain ⟨drifts, deliveries⟩ := countRead_drifts tended honoured (cache.segmentOf key.data)
      exact .carry drifts _ (.answer key source value renewal) [] rfl rfl rfl rfl trivial nofun deliveries rfl
  | answer key source value renewal => exact answer_tends tended key source value renewal
  | claimed key source segment claim =>
      apply takeClaim_tends tended
      rintro load rfl
      exact issued _ rfl
  | await key flight =>
      have still : Tends held spent thread cache (.await key flight) [] [] (cache, [.await key flight]) :=
        .await (.refl tended) rfl rfl key (issued _ rfl)
      dsimp only [work]
      split
      · exact still
      · split
        · exact waiting _ rfl rfl _ rfl
        · split
          · exact still
          · exact waiting _ rfl rfl _ rfl
  | settle flight outcome =>
      have settled := tended.modifyLoad flight (f := (·.settle outcome)) fun _ => ⟨rfl, rfl⟩
      have standing := cache.standing?_modifyLoad flight (f := (·.settle outcome)) fun _ => rfl
      refine .running settled ?_ ⟨.nil, trivial, nofun⟩ nofun
      simp only [tasksOf_cons, verdictsOf_cons, Frame.task?, Frame.verdict?, tasksOf_nil, verdictsOf_nil,
        Option.elim_some, Option.elim_none, add_zero, zero_add]
      exact standing ▸ .settle ⟨flight, outcome⟩
  | conclude source purpose outcome => exact conclude_tends tended source purpose outcome
  | cancel key flight =>
      obtain ⟨own, running⟩ := own _ rfl
      exact giveUp_tends ⟨flight, key, none⟩ (.refl tended) honoured own running rfl rfl [] rfl
  | renewed key renewal =>
      cases renewal with
      | none => exact waiting _ rfl rfl _ rfl
      | some renewal =>
          refine .carry (.refl tended) [] (.answer key .bound renewal.2 (some renewal))
            [.renewing] rfl rfl rfl rfl trivial ?_ (List.forall_mem_nil _) rfl
          rintro request ⟨⟩
  | removing keys =>
      cases keys with
      | nil => exact waiting _ rfl rfl _ rfl
      | cons key rest => exact .plain (remove_drifts tended honoured key) rfl rfl rfl
  | clearing segment =>
      dsimp only [work]
      split
      · exact .plain (tended.idle honoured segment 0 .clear rfl rfl) rfl rfl rfl
      · exact .plain (tended.logged _) rfl rfl rfl
  | sweeping segment =>
      dsimp only [work]
      split
      · have ticked := tended.readClock
        exact .plain (ticked.trans (ticked.tended.idle honoured segment _ .cleanUp rfl rfl)) rfl rfl
          rfl
      · exact waiting _ rfl rfl _ rfl
  | releasing segment =>
      dsimp only [work]
      split
      · exact .plain (tended.idle honoured segment 0 .releaseSoft rfl rfl) rfl rfl rfl
      · exact waiting _ rfl rfl _ rfl
  | renewing | fetching => exact waiting _ rfl rfl _ rfl
  | holding | unwind | give | gather => exact waiting _ rfl rfl _ rfl
  | loading => exact absurd rfl (returned _ _ _ _ _)

end Work

end SegmentedCache.Cache
