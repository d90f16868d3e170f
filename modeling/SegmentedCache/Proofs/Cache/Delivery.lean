import SegmentedCache.Proofs.Cache.Reports

namespace SegmentedCache

/-!
How removals reach the listener. One thread hands them over in the order in which they were reported, each once, and
none before the listener is done with the one before. No call ends before all is told, but those that the listener
makes itself.
-/

variable {K V τ : Type}

def Frame.isTelling : Frame K V → Bool
  | .delivering | .listening _ => true
  | _ => false

def Frame.isListening : Frame K V → Bool
  | .listening _ => true
  | _ => false

def Frame.asksClient : Frame K V → Bool
  | .loading .. | .listening _ => true
  | _ => false

theorem Frame.delivers_of_isTelling {frame : Frame K V} (telling : frame.isTelling = true) : frame.delivers = true := by
  cases frame with
  | delivering | listening => rfl
  | _ => cases telling

def Call.tells (call : Call K V) : Bool :=
  call.frames.any (·.isTelling)

def Call.asksClient (call : Call K V) : Bool :=
  call.frames.head?.any (·.asksClient)

def Call.isListening (call : Call K V) : Bool :=
  call.frames.any (·.isListening)

theorem Call.not_isListening_of_silent {call : Call K V} (silent : call.tells = false) : call.isListening = false := by
  rw [Call.tells, List.any_eq_false] at silent
  rw [Call.isListening, List.any_eq_false]
  intro frame member listening
  apply silent frame member
  cases frame with
  | listening => rfl
  | _ => cases listening

/-- One thread does everything, so that nobody is in its way, and it only calls the cache between calls, or in a
loader or the listener. -/
def Moment.IsSequential (thread : ThreadId) (moment : Moment K V τ) : Prop :=
  match moment.event with
  | .call other _ => other = thread ∧ ∀ call ∈ (moment.cache.callsOf thread).head?, call.asksClient = true
  | .proceed other | .loaderEnded other _ | .listenerEnded other _ => other = thread
  | .contend contended => contended = false
  | .setClock _ | .closeBackground => True

instance (thread : ThreadId) : DecidablePred (Moment.IsSequential (K := K) (V := V) (τ := τ) thread)
  | ⟨cache, _, .call other _⟩ =>
      inferInstanceAs (Decidable (other = thread ∧ ∀ call ∈ (cache.callsOf thread).head?, call.asksClient = true))
  | ⟨_, _, .proceed other⟩ | ⟨_, _, .loaderEnded other _⟩ | ⟨_, _, .listenerEnded other _⟩ =>
      inferInstanceAs (Decidable (other = thread))
  | ⟨_, _, .contend contended⟩ => inferInstanceAs (Decidable (contended = false))
  | ⟨_, _, .setClock _⟩ | ⟨_, _, .closeBackground⟩ => inferInstanceAs (Decidable True)

namespace Cache

namespace Arranged

variable {place : K → Nat} {removal : Removal K V} {rest : List (Frame K V)}

theorem rest_of_deliver (arranged : Arranged place (.deliver :: rest)) : ∀ frame ∈ rest, frame.Fits place := by
  cases arranged with
  | quiet fits => cases (fits .deliver List.mem_cons_self).1
  | deliver fits => exact fits

theorem rest_of_delivering (arranged : Arranged place (.delivering :: rest)) :
    ∀ frame ∈ rest, frame.Fits place := by
  cases arranged with
  | quiet fits => cases (fits .delivering List.mem_cons_self).1
  | delivering fits => exact fits

theorem rest_of_listening (arranged : Arranged place (.listening removal :: rest)) :
    ∃ later, rest = .delivering :: later := by
  cases arranged with
  | quiet fits => cases (fits _ List.mem_cons_self).1
  | listening => exact ⟨_, rfl⟩

end Arranged

variable {cache cache' : Cache K V τ} {thread : ThreadId}

/-- Whoever hands removals over is on the stack once, and whoever reported some does so next. -/
structure Handover (thread : ThreadId) (cache : Cache K V τ) : Prop where
  alone : ∀ other, other ≠ thread → cache.callsOf other = []
  nested : ∀ call ∈ (cache.callsOf thread).tail, call.asksClient = true
  telling : (cache.callsOf thread).countP (·.tells) = cache.delivering.toNat
  due : cache.delivering = false → cache.undelivered ≠ [] →
    ∃ arguments rest outer, cache.callsOf thread = ⟨arguments, .deliver :: rest⟩ :: outer

namespace Handover

variable {call call' : Call K V} {outer : List (Call K V)}

theorem goOn (handover : cache.Handover thread) (here : cache.callsOf thread = call :: outer)
    (same : cache'.calls = cache.calls)
    (telling : call'.tells.toNat + cache.delivering.toNat = call.tells.toNat + cache'.delivering.toNat)
    (due : cache'.delivering = false → cache'.undelivered ≠ [] → ∃ rest, call'.frames = .deliver :: rest) :
    (cache'.setCalls thread (call' :: outer)).Handover thread := by
  have counted := handover.telling
  rw [here, List.countP_cons] at counted
  refine ⟨?_, ?_, ?_, ?_⟩
  · intro other different
    rw [callsOf_setCalls, if_neg different, callsOf_congr same]
    exact handover.alone other different
  · rw [callsOf_setCalls, if_pos rfl]
    have nested := handover.nested
    rwa [here] at nested
  · rw [callsOf_setCalls, if_pos rfl, List.countP_cons]
    show _ = cache'.delivering.toNat
    cases before : call.tells <;> cases after : call'.tells <;> simp_all <;> omega
  · intro free waiting
    obtain ⟨rest, frames⟩ := due free waiting
    refine ⟨call'.arguments, rest, outer, ?_⟩
    rw [callsOf_setCalls, if_pos rfl, ← frames]

theorem leave (handover : cache.Handover thread) (here : cache.callsOf thread = call :: outer)
    (silent : call.tells = false) (told : cache.delivering = false → cache.undelivered = []) :
    (cache.setCalls thread outer).Handover thread := by
  have counted := handover.telling
  rw [here, List.countP_cons, silent] at counted
  refine ⟨?_, ?_, ?_, ?_⟩
  · intro other different
    rw [callsOf_setCalls, if_neg different]
    exact handover.alone other different
  · rw [callsOf_setCalls, if_pos rfl]
    have nested := handover.nested
    rw [here] at nested
    exact fun call member => nested call (List.mem_of_mem_tail member)
  · rw [callsOf_setCalls, if_pos rfl]
    show _ = cache.delivering.toNat
    simpa using counted
  · exact fun free waiting => absurd (told free) waiting

theorem nothing_due (handover : cache.Handover thread) {arguments : List ObjectId} {frames : List (Frame K V)}
    (here : cache.callsOf thread = ⟨arguments, frames⟩ :: outer) (other : ∀ rest, frames ≠ .deliver :: rest)
    (free : cache.delivering = false) : cache.undelivered = [] := by
  by_contra waiting
  obtain ⟨_, rest, _, found⟩ := handover.due free waiting
  cases here.symm.trans found
  exact other rest rfl


theorem delivering (handover : cache.Handover thread) (here : cache.callsOf thread = call :: outer)
    (tells : call.tells = true) : cache.delivering = true := by
  have counted := handover.telling
  rw [here, List.countP_cons, if_pos tells] at counted
  cases busy : cache.delivering with
  | true => rfl
  | false => simp [busy] at counted

variable [DecidableEq K] [Clock τ]

omit [DecidableEq K] [Clock τ] in
theorem silent_of_fits {place : K → Nat} {arguments : List ObjectId} {frames : List (Frame K V)}
    (fits : ∀ frame ∈ frames, frame.Fits place) : (⟨arguments, frames⟩ : Call K V).tells = false := by
  rw [Call.tells, List.any_eq_false]
  intro frame member telling
  cases (Frame.delivers_of_isTelling telling).symm.trans (fits frame member).1

theorem silent_of_works {accepted : List (K × Shared V)} {result : Cache K V τ × List (Frame K V)}
    (works : Works cache accepted result) {rest : List (Frame K V)}
    (fits : ∀ frame ∈ rest, frame.Fits cache.segmentOf) (arguments : List ObjectId) :
    (⟨arguments, result.2 ++ rest⟩ : Call K V).tells = false := by
  rcases works.frames with ⟨later, frames_eq, fits_new⟩ | ⟨_, fits_new⟩
  · have silent : (⟨arguments, later ++ rest⟩ : Call K V).tells = false :=
      silent_of_fits fun frame member => (List.mem_append.mp member).elim (fits_new frame) (fits frame)
    simpa [frames_eq, Call.tells, Frame.isTelling] using silent
  · exact silent_of_fits fun frame member => (List.mem_append.mp member).elim (fits_new frame) (fits frame)

theorem works (handover : cache.Handover thread) {accepted : List (K × Shared V)}
    {result : Cache K V τ × List (Frame K V)} {arguments : List ObjectId} {frames rest : List (Frame K V)}
    (here : cache.callsOf thread = ⟨arguments, frames⟩ :: outer) (works : Works cache accepted result)
    (fits : ∀ frame ∈ frames, frame.Fits cache.segmentOf) (fits' : ∀ frame ∈ rest, frame.Fits cache.segmentOf) :
    (result.1.setCalls thread (⟨arguments, result.2 ++ rest⟩ :: outer)).Handover thread := by
  have steady := works.moves.steady
  have other (later : List (Frame K V)) : frames ≠ .deliver :: later := by
    rintro rfl
    cases (fits .deliver List.mem_cons_self).1
  have before : (⟨arguments, frames⟩ : Call K V).tells = false := silent_of_fits fits
  have after := silent_of_works works fits' arguments
  refine handover.goOn here steady.calls (by rw [before, after, steady.delivering]) fun free waiting => ?_
  rcases works.frames with ⟨later, frames_eq, _⟩ | ⟨unreported, _⟩
  · exact ⟨later ++ rest, by rw [frames_eq, List.cons_append]⟩
  · rw [unreported] at waiting
    exact absurd (handover.nothing_due here other (steady.delivering ▸ free)) waiting

theorem step (handover : cache.Handover thread) (composed : cache.Composed) (listens : cache.listens = true)
    (held : Reach) (event : Event K V τ)
    (sequential : (⟨cache, held, event⟩ : Moment K V τ).IsSequential thread) :
    (cache.step held event).1.Handover thread := by
  have happens := cache.step_happens held event
  have arranged := composed.arranged
  generalize cache.step held event = result at happens ⊢
  cases happens with
  | entered other request =>
      -- A request made during another comes from the listener, so the calls under it are listening.
      obtain ⟨rfl, free⟩ := sequential
      refine ⟨?_, ?_, ?_, ?_⟩
      · intro thread different
        rw [callsOf_setCalls, if_neg different]
        exact handover.alone thread different
      · rw [callsOf_setCalls, if_pos rfl]
        have nested := handover.nested
        cases here : cache.callsOf other with
        | nil => exact nofun
        | cons first outer =>
            rw [here] at nested free
            exact List.forall_mem_cons.mpr ⟨free first rfl, nested⟩
      · rw [callsOf_setCalls, if_pos rfl, List.countP_cons]
        exact handover.telling
      · intro idle waiting
        obtain ⟨arguments, rest, outer, found⟩ := handover.due idle waiting
        rw [found] at free
        cases free _ rfl
  | timed | contended | closed => exact ⟨handover.alone, handover.nested, handover.telling, handover.due⟩
  | idle | loading | listening | blocked | notLoading | notListening => exact handover
  | ended here =>
      cases sequential
      exact handover.leave here rfl (handover.nothing_due here nofun)
  | returned here =>
      cases sequential
      exact handover.leave here rfl (handover.nothing_due here nofun)
  | unwound here =>
      cases sequential
      have fits := (arranged _ _ (here ▸ List.mem_cons_self)).fits rfl
      exact handover.leave here (silent_of_fits fits) (handover.nothing_due here nofun)
  | passed here =>
      cases sequential
      have fits := (arranged _ _ (here ▸ List.mem_cons_self)).fits rfl
      exact handover.works here (cache.passOn_works _ _) fits fun frame member =>
        fits frame (List.mem_cons_of_mem _ (List.mem_cons_of_mem _ member))
  | worked here busy =>
      cases sequential
      have fits := (arranged _ _ (here ▸ List.mem_cons_self)).fits (Frame.quiet_of_isWork busy)
      exact handover.works here (work_works composed.orderly _ _ (fits _ List.mem_cons_self)) fits fun frame member =>
        fits frame (List.mem_cons_of_mem _ member)
  | loaded here ending =>
      cases sequential
      have fits := (arranged _ _ (here ▸ List.mem_cons_self)).fits rfl
      have placed := (fits _ List.mem_cons_self).2 _ rfl
      exact handover.works here (endLoader_works composed.orderly _ placed _ _ _ ending) fits fun frame member =>
        fits frame (List.mem_cons_of_mem _ member)
  | @begun _ arguments rest outer here free =>
      cases sequential
      have silent : (⟨arguments, rest⟩ : Call K V).tells = false :=
        silent_of_fits (arranged _ _ (here ▸ List.mem_cons_self)).rest_of_deliver
      refine handover.goOn here rfl ?_ nofun
      simpa [Call.tells, Frame.isTelling, free] using silent
  | skipped here otherwise =>
      cases sequential
      refine handover.goOn here rfl (by simp [Call.tells, Frame.isTelling]) fun free => ?_
      cases (otherwise listens).symm.trans free
  | told here waiting =>
      cases sequential
      have busy : cache.delivering = true := handover.delivering here rfl
      refine handover.goOn here rfl (by simp [Call.tells, Frame.isTelling]) fun free => ?_
      cases busy.symm.trans free
  | @allTold _ arguments rest outer here nothing =>
      cases sequential
      have busy : cache.delivering = true := handover.delivering here rfl
      have silent : (⟨arguments, rest⟩ : Call K V).tells = false :=
        silent_of_fits (arranged _ _ (here ▸ List.mem_cons_self)).rest_of_delivering
      refine handover.goOn here rfl ?_ fun _ waiting => absurd nothing waiting
      simp [Call.tells, Frame.isTelling, busy] at silent ⊢
      exact silent
  | heard here ending log =>
      cases sequential
      have busy : cache.delivering = true := handover.delivering here rfl
      obtain ⟨later, rfl⟩ := (arranged _ _ (here ▸ List.mem_cons_self)).rest_of_listening
      refine handover.goOn here rfl (by simp [Call.tells, Frame.isTelling]) fun free => ?_
      cases busy.symm.trans free

omit [DecidableEq K] [Clock τ] in
theorem outer_listening (handover : cache.Handover thread) (composed : cache.Composed)
    (here : cache.callsOf thread = call :: outer) (silent : call.tells = false) (busy : cache.delivering = true) :
    ∃ call ∈ outer, call.isListening = true := by
  have counted := handover.telling
  rw [here, List.countP_cons, silent, busy] at counted
  have positive : 0 < outer.countP (·.tells) := by
    simp at counted
    omega
  obtain ⟨⟨arguments, frames⟩, member, tells⟩ := List.countP_pos_iff.mp positive
  have asks := handover.nested ⟨arguments, frames⟩ (by rwa [here])
  have arranged := composed.arranged thread ⟨arguments, frames⟩ (here ▸ List.mem_cons_of_mem _ member)
  refine ⟨_, member, ?_⟩
  cases frames with
  | nil => cases asks
  | cons frame rest =>
      cases frame with
      | listening => rfl
      | loading => cases (silent_of_fits (arranged.fits rfl)).symm.trans tells
      | _ => cases asks

omit [DecidableEq K] [Clock τ] in
theorem nobody_listens (handover : cache.Handover thread) (composed : cache.Composed) {arguments : List ObjectId}
    {rest : List (Frame K V)} (here : cache.callsOf thread = ⟨arguments, .delivering :: rest⟩ :: outer)
    (other : ThreadId) {call : Call K V} (member : call ∈ cache.callsOf other) : call.isListening = false := by
  by_cases same : other = thread
  · subst same
    have arranged := composed.arranged other _ (here ▸ List.mem_cons_self)
    have counted := handover.telling
    rw [here, List.countP_cons, handover.delivering here rfl] at counted
    have silent : outer.countP (·.tells) = 0 := by
      rw [if_pos (show Call.tells ⟨arguments, .delivering :: rest⟩ = true from rfl)] at counted
      exact Nat.succ.inj counted
    rw [here] at member
    rcases List.mem_cons.mp member with rfl | further
    · have quiet : (⟨arguments, rest⟩ : Call K V).tells = false := silent_of_fits arranged.rest_of_delivering
      have still := Call.not_isListening_of_silent quiet
      exact still
    · exact Call.not_isListening_of_silent (Bool.eq_false_iff.mpr (List.countP_eq_zero.mp silent call further))
  · rw [handover.alone other same] at member
    cases member

omit [DecidableEq K] [Clock τ] in
theorem nothing_left (handover : cache.Handover thread) (composed : cache.Composed) {arguments : List ObjectId}
    {frames : List (Frame K V)} (here : cache.callsOf thread = ⟨arguments, frames⟩ :: outer)
    (fits : ∀ frame ∈ frames, frame.Fits cache.segmentOf)
    (free : ∀ call ∈ (cache.setCalls thread outer).callsOf thread, call.isListening = false) :
    cache.undelivered = [] := by
  rw [callsOf_setCalls, if_pos rfl] at free
  cases busy : cache.delivering with
  | false =>
      refine handover.nothing_due here (fun rest => ?_) busy
      rintro rfl
      cases (fits .deliver List.mem_cons_self).1
  | true =>
      obtain ⟨call, member, listening⟩ := handover.outer_listening composed here (silent_of_fits fits) busy
      cases (free call member).symm.trans listening

end Handover

theorem Composed.step_contended [DecidableEq K] [Clock τ] (composed : cache.Composed) (held : Reach)
    (event : Event K V τ) (free : cache.contended = false)
    (alone : ∀ contended, event = .contend contended → contended = false) :
    (cache.step held event).1.contended = false := by
  have happens := cache.step_happens held event
  have arranged := composed.arranged
  generalize cache.step held event = result at happens ⊢
  cases happens with
  | contended contended => exact alone contended rfl
  | passed => exact (cache.passOn_works _ _).moves.steady.contended.trans free
  | worked here busy =>
      have fits := (arranged _ _ (here ▸ List.mem_cons_self)).fits (Frame.quiet_of_isWork busy)
      exact (work_works composed.orderly _ _ (fits _ List.mem_cons_self)).moves.steady.contended.trans free
  | loaded here ending =>
      have placed := ((arranged _ _ (here ▸ List.mem_cons_self)).fits rfl _ List.mem_cons_self).2 _ rfl
      exact (endLoader_works composed.orderly _ placed _ _ _ ending).moves.steady.contended.trans free
  | _ => exact free

section Runs

variable [DecidableEq K] [Clock τ] {config : Config K V} {hash : K → UInt64} {clock : τ}
  {past : List (Moment K V τ)}

theorem History.uncontended (history : History config hash clock past cache)
    (sequential : ∀ moment ∈ past, moment.IsSequential thread) : cache.contended = false := by
  induction history with
  | create => rfl
  | @step past cache history held event ih =>
      have before := List.forall_mem_append.mp sequential
      exact history.recorded.composed.step_contended held event (ih before.1) fun contended same => by
        have alone := before.2 _ List.mem_cons_self
        rwa [Moment.IsSequential, same] at alone

theorem History.handover (history : History config hash clock past cache) (listens : config.listens = true)
    (sequential : ∀ moment ∈ past, moment.IsSequential thread) : cache.Handover thread := by
  induction history with
  | create => exact ⟨fun _ _ => rfl, nofun, rfl, fun _ waiting => absurd rfl waiting⟩
  | @step past cache history held event ih =>
      have attentive := (history.recorded.invariant listens).1
      have earlier := ih fun moment member => sequential moment (List.mem_append_left _ member)
      exact earlier.step attentive.composed attentive.listens held event
        (sequential _ (List.mem_append_right _ List.mem_cons_self))

theorem History.reported (history : History config hash clock past cache) (listens : config.listens = true) :
    past.flatMap Moment.reports = past.flatMap Moment.notifies ++ cache.undelivered := by
  induction history with
  | create => rfl
  | @step past cache history held event ih =>
      have listens' := (history.recorded.invariant listens).1.listens
      have queued := cache.reports_step listens' held event
      simp only [List.flatMap_append, List.flatMap_singleton, ih, List.append_assoc]
      exact congrArg _ queued

end Runs

structure Delivery [DecidableEq K] [Clock τ] (thread : ThreadId) (past : List (Moment K V τ)) (cache : Cache K V τ) :
    Prop where
  in_order : past.flatMap Moment.reports = past.flatMap Moment.notifies ++ cache.undelivered
  asked : ∀ moment ∈ past, ∀ removal ∈ moment.notifies, ∀ held,
    moment.next.step held (.proceed thread) = (moment.next, .notify removal.notice)
  alone : ∀ moment ∈ past, moment.notifies ≠ [] →
    ∀ other, ∀ call ∈ moment.cache.callsOf other, call.isListening = false
  /-- When a call that the listener has not made ends, be it in a panic, it was told of everything. -/
  delivered : ∀ earlier moment later, past = earlier ++ moment :: later →
    ((∃ reply, moment.signal = .returned reply) ∨ ∃ message, moment.signal = .panicked message) →
    (∀ call ∈ moment.next.callsOf thread, call.isListening = false) →
      moment.next.undelivered = [] ∧
        (earlier ++ [moment]).flatMap Moment.reports = (earlier ++ [moment]).flatMap Moment.notifies

section Claim

variable [DecidableEq K] [Clock τ] {config : Config K V} {hash : K → UInt64} {clock : τ}
  {past : List (Moment K V τ)}

omit [DecidableEq K] [Clock τ] in
theorem delivering_of_notifies {moment : Moment K V τ} (notifies : moment.notifies ≠ []) :
    ∃ other arguments rest outer, moment.event = .proceed other ∧
      moment.cache.callsOf other = ⟨arguments, .delivering :: rest⟩ :: outer ∧
        moment.notifies = moment.cache.undelivered.take 1 := by
  obtain ⟨cache, held, event⟩ := moment
  cases event with
  | proceed other =>
      unfold Moment.notifies Cache.notifies at notifies
      dsimp only at notifies
      split at notifies
      · rename_i here
        refine ⟨other, _, _, _, rfl, here, ?_⟩
        simp [Moment.notifies, Cache.notifies, here]
      · exact absurd rfl notifies
  | _ => exact absurd rfl notifies

theorem delivery_of_history (history : History config hash clock past cache) (listens : config.listens = true)
    (sequential : ∀ moment ∈ past, moment.IsSequential thread) : Delivery thread past cache := by
  refine ⟨history.reported listens, ?_, ?_, ?_⟩
  · intro moment member removal told held
    obtain ⟨other, arguments, rest, outer, proceeds, here, queued⟩ :=
      delivering_of_notifies (List.ne_nil_of_mem told)
    have same := sequential moment member
    rw [Moment.IsSequential, proceeds] at same
    subst same
    obtain ⟨later, waiting⟩ : ∃ later, moment.cache.undelivered = removal :: later := by
      rw [queued] at told
      cases waiting : moment.cache.undelivered with
      | nil => simp [waiting] at told
      | cons first later =>
          rw [waiting] at told
          exact ⟨later, by rw [List.mem_singleton.mp told]⟩
    simp [Moment.next, step, proceeds, proceed, here, work, waiting]
  · intro moment member told other call inside
    obtain ⟨earlier, later, split⟩ := List.append_of_mem member
    have led := (history.of_append split).1
    have handover := led.handover listens fun moment there => sequential moment (split ▸ List.mem_append_left _ there)
    have composed := led.recorded.composed
    obtain ⟨thread', arguments, rest, outer, proceeds, here, _⟩ := delivering_of_notifies told
    have same := sequential moment member
    rw [Moment.IsSequential, proceeds] at same
    subst same
    exact handover.nobody_listens composed here other inside
  · intro earlier moment later split finished free
    obtain ⟨led, leads⟩ := history.of_append split
    have sequential' (moment' : Moment K V τ) (there : moment' ∈ earlier ++ [moment]) :
        moment'.IsSequential thread := by
      apply sequential
      rw [split, List.append_cons]
      exact List.mem_append_left _ there
    have composed := led.recorded.composed
    have handover := led.handover listens fun moment' there => sequential' moment' (List.mem_append_left _ there)
    have same := sequential' moment (by simp)
    have nothing : moment.next.undelivered = [] := by
      obtain ⟨cache, held, event⟩ := moment
      have happens := cache.step_happens held event
      simp only [Moment.next, Moment.signal] at finished free ⊢
      generalize cache.step held event = result at happens finished free ⊢
      cases happens with
      | ended here =>
          cases same
          exact handover.nothing_left composed here (List.forall_mem_nil _) free
      | returned here | unwound here =>
          cases same
          exact handover.nothing_left composed here
            ((composed.arranged _ _ (here ▸ List.mem_cons_self)).fits rfl) free
      | _ => rcases finished with ⟨_, ⟨⟩⟩ | ⟨_, ⟨⟩⟩
    have reported := leads.reported listens
    rw [nothing, List.append_nil] at reported
    exact ⟨nothing, reported⟩

/-- The listener overwrites the value that it is told to have been overwritten, and panics. It is told of that, too,
once it is done. -/
theorem delivery_after_reentering :
    let moves (steps : Nat) : List (Event Nat Nat ManualClock) := .replicate steps (.proceed 0)
    let events := .call 0 (.insert ⟨0, 7⟩ ⟨1, 70⟩) :: moves 4 ++
      .call 0 (.insert ⟨2, 7⟩ ⟨3, 71⟩) :: moves 3 ++
      .call 0 (.insert ⟨4, 7⟩ ⟨5, 72⟩) :: moves 3 ++ .listenerEnded 0 (.panicked none) :: moves 1 ++
      .listenerEnded 0 .quiet :: moves 2
    let run := (create { initialCapacity := 1, concurrencyLevel := 1, listens := true } (fun _ => 3) {}).run
      (fun _ => true) events
    (run.1.flatMap Moment.notifies).map Removal.pair = [(7, ⟨1, 70⟩), (7, ⟨3, 71⟩)] ∧
      (run.2.callsOf 0).isEmpty ∧
      Delivery 0 run.1 run.2 := by
  intro moves events run
  have history : History { initialCapacity := 1, concurrencyLevel := 1, listens := true } (fun _ => 3) {} run.1 run.2 :=
    History.create.run (fun _ => true) events
  have sequential : ∀ moment ∈ run.1, moment.IsSequential 0 := by decide +kernel
  exact ⟨by decide +kernel, by decide +kernel, delivery_of_history history rfl sequential⟩

end Claim

end Cache
end SegmentedCache
