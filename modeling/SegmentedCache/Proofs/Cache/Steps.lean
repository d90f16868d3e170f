import SegmentedCache.Proofs.Cache.Work

namespace SegmentedCache.Cache

/-!
What a step of a cache does. The calls in progress are arranged so that nobody waits for a reply in front of a delivery:
what is reported is handed to the listener before a call goes on.
-/

variable {K V τ : Type} [DecidableEq K] [Clock τ]

/-- The values that a step accepts: those that requests store at once, and those that loaders give. -/
def accepts (cache : Cache K V τ) (held : Reach) : Event K V τ → List (K × Shared V)
  | .proceed thread =>
      match cache.callsOf thread with
      | { frames := .start request :: _, .. } :: _ => cache.storedBy (cache.reach held) request
      | _ => []
  | .loaderEnded thread ending =>
      match ending, cache.callsOf thread with
      | .value value, { frames := .loading key .. :: _, .. } :: _ => [(key.data, value)]
      | _, _ => []
  | _ => []

def notifies (cache : Cache K V τ) : Event K V τ → List (Removal K V)
  | .proceed thread =>
      match cache.callsOf thread with
      | { frames := .delivering :: _, .. } :: _ => cache.undelivered.take 1
      | _ => []
  | _ => []

/-- Only the innermost frame of a call delivers, or the one after it while the listener runs. -/
inductive Arranged (place : K → Nat) : List (Frame K V) → Prop where
  | quiet {frames : List (Frame K V)} (fits : ∀ frame ∈ frames, frame.Fits place) : Arranged place frames
  | deliver {rest : List (Frame K V)} (fits : ∀ frame ∈ rest, frame.Fits place) : Arranged place (.deliver :: rest)
  | delivering {rest : List (Frame K V)} (fits : ∀ frame ∈ rest, frame.Fits place) :
      Arranged place (.delivering :: rest)
  | listening {removal : Removal K V} {rest : List (Frame K V)} (fits : ∀ frame ∈ rest, frame.Fits place) :
      Arranged place (.listening removal :: .delivering :: rest)

def Pending (cache : Cache K V τ) (p : Frame K V → Prop) : Prop :=
  ∃ thread, ∃ call ∈ cache.callsOf thread, ∃ frame ∈ call.frames, p frame

structure Composed (cache : Cache K V τ) : Prop where
  orderly : cache.Orderly
  arranged : ∀ thread, ∀ call ∈ cache.callsOf thread, Arranged cache.segmentOf call.frames

structure Attentive (cache : Cache K V τ) : Prop where
  orderly : cache.Orderly
  listens : cache.listens = true
  arranged : ∀ thread, ∀ call ∈ cache.callsOf thread, Arranged cache.segmentOf call.frames
  delivering : cache.delivering = true → cache.Pending (· = .delivering)
  due : cache.undelivered ≠ [] → cache.Pending fun frame => frame = .deliver ∨ frame = .delivering

/-- What a step does, with the values that it accepts and the removals that it hands to the listener. -/
inductive Steps (cache : Cache K V τ) : List (K × Shared V) → List (Removal K V) → Cache K V τ → Prop where
  | still : Steps cache [] [] cache
  | setClock (clock : τ) : Steps cache [] [] { cache with clock }
  | contend (contended : Bool) : Steps cache [] [] { cache with contended }
  | closeBackground : Steps cache [] [] { cache with background := .closed }
  | enter (thread : ThreadId) (call : Call K V) (fits : ∀ frame ∈ call.frames, frame.Fits cache.segmentOf) :
      Steps cache [] [] (cache.setCalls thread (call :: cache.callsOf thread))
  | leave {thread : ThreadId} {call : Call K V} {calls : List (Call K V)}
      (here : cache.callsOf thread = call :: calls) (fits : ∀ frame ∈ call.frames, frame.Fits cache.segmentOf) :
      Steps cache [] [] (cache.setCalls thread calls)
  | resume {thread : ThreadId} {call : Call K V} {calls : List (Call K V)} {accepted : List (K × Shared V)}
      {result : Cache K V τ × List (Frame K V)} {rest : List (Frame K V)} {arguments : List ObjectId}
      (here : cache.callsOf thread = call :: calls) (fits : ∀ frame ∈ call.frames, frame.Fits cache.segmentOf)
      (works : Works cache accepted result) (fits' : ∀ frame ∈ rest, frame.Fits cache.segmentOf) :
      Steps cache accepted [] (result.1.setCalls thread (⟨arguments, result.2 ++ rest⟩ :: calls))
  | begin {thread : ThreadId} {arguments : List ObjectId} {rest : List (Frame K V)} {calls : List (Call K V)}
      (here : cache.callsOf thread = ⟨arguments, .deliver :: rest⟩ :: calls)
      (fits : ∀ frame ∈ rest, frame.Fits cache.segmentOf) :
      Steps cache [] []
        ({ cache with delivering := true }.setCalls thread (⟨arguments, .delivering :: rest⟩ :: calls))
  | pass {thread : ThreadId} {arguments : List ObjectId} {rest : List (Frame K V)} {calls : List (Call K V)}
      (here : cache.callsOf thread = ⟨arguments, .deliver :: rest⟩ :: calls)
      (fits : ∀ frame ∈ rest, frame.Fits cache.segmentOf)
      (otherwise : cache.listens = true → cache.delivering = true) :
      Steps cache [] [] (cache.setCalls thread (⟨arguments, rest⟩ :: calls))
  | notify {thread : ThreadId} {arguments : List ObjectId} {rest : List (Frame K V)} {calls : List (Call K V)}
      {removal : Removal K V} {later : List (Removal K V)}
      (here : cache.callsOf thread = ⟨arguments, .delivering :: rest⟩ :: calls)
      (fits : ∀ frame ∈ rest, frame.Fits cache.segmentOf) (waiting : cache.undelivered = removal :: later) :
      Steps cache [] [removal]
        ({ cache with undelivered := later }.setCalls thread
          (⟨arguments, .listening removal :: .delivering :: rest⟩ :: calls))
  | finish {thread : ThreadId} {arguments : List ObjectId} {rest : List (Frame K V)} {calls : List (Call K V)}
      (here : cache.callsOf thread = ⟨arguments, .delivering :: rest⟩ :: calls)
      (fits : ∀ frame ∈ rest, frame.Fits cache.segmentOf) (done : cache.undelivered = []) :
      Steps cache [] []
        ({ cache with delivering := false, undelivered := [] }.setCalls thread (⟨arguments, rest⟩ :: calls))
  | heard {thread : ThreadId} {arguments : List ObjectId} {removal : Removal K V} {rest : List (Frame K V)}
      {calls : List (Call K V)} {log : List LogEvent}
      (here : cache.callsOf thread = ⟨arguments, .listening removal :: .delivering :: rest⟩ :: calls)
      (fits : ∀ frame ∈ rest, frame.Fits cache.segmentOf) :
      Steps cache [] [] ({ cache with log }.setCalls thread (⟨arguments, .delivering :: rest⟩ :: calls))

variable {cache cache' : Cache K V τ}

omit [DecidableEq K] [Clock τ] in
theorem Arranged.fits {place : K → Nat} {first : Frame K V} {rest : List (Frame K V)}
    (arranged : Arranged place (first :: rest)) (quiet : first.delivers = false) :
    ∀ frame ∈ first :: rest, frame.Fits place := by
  cases arranged with
  | quiet fits => exact fits
  | deliver | delivering | listening => cases quiet

omit [DecidableEq K] [Clock τ] in
theorem Attentive.composed (attentive : cache.Attentive) : cache.Composed :=
  ⟨attentive.orderly, attentive.arranged⟩

theorem Composed.proceed_steps (composed : cache.Composed) (held : Reach) (thread : ThreadId) :
    Steps cache (cache.accepts held (.proceed thread)) (cache.notifies (.proceed thread))
      (cache.proceed held thread).1 := by
  cases here : cache.callsOf thread with
  | nil =>
      simp only [proceed, accepts, notifies, here]
      exact .still
  | cons call calls =>
      obtain ⟨arguments, frames⟩ := call
      have arranged : Arranged cache.segmentOf frames := composed.arranged thread _ (here ▸ List.mem_cons_self)
      cases frames with
      | nil =>
          simp only [proceed, accepts, notifies, here]
          exact .leave here (by simp)
      | cons frame rest =>
          have working (quiet : frame.delivers = false) :
              Steps cache (cache.acceptedBy (cache.reach held) frame) []
                ((cache.work (cache.reach held) thread frame).1.setCalls thread
                  (⟨arguments, (cache.work (cache.reach held) thread frame).2 ++ rest⟩ :: calls)) :=
            have fits := arranged.fits quiet
            .resume here fits (work_works composed.orderly (cache.reach held) thread (fits frame List.mem_cons_self))
              fun frame member => fits frame (List.mem_cons_of_mem _ member)
          simp only [proceed, accepts, notifies, here]
          cases frame with
          | loading | listening => exact .still
          | unwind message => exact .leave here (arranged.fits rfl)
          | give reply =>
              cases rest with
              | nil => exact .leave here (arranged.fits rfl)
              | cons frame rest =>
                  have fits := arranged.fits rfl
                  exact .resume here fits (cache.passOn_works reply frame)
                    fun frame member => fits frame (by simp [member])
          | await key flight =>
              dsimp only
              split
              · exact .still
              · exact working rfl
          | deliver =>
              have fits : ∀ frame ∈ rest, frame.Fits cache.segmentOf := by
                cases arranged with
                | quiet fits => cases (fits .deliver List.mem_cons_self).1
                | deliver fits => exact fits
              dsimp only [work]
              split
              · exact .begin here fits
              · rename_i busy
                apply Steps.pass here fits
                intro listens
                simpa [listens] using busy
          | delivering =>
              have fits : ∀ frame ∈ rest, frame.Fits cache.segmentOf := by
                cases arranged with
                | quiet fits => cases (fits .delivering List.mem_cons_self).1
                | delivering fits => exact fits
              dsimp only [work]
              cases waiting : cache.undelivered with
              | nil => exact .finish here fits waiting
              | cons removal later => exact .notify here fits waiting
          | _ => exact working rfl

theorem Composed.loaderEnded_steps (composed : cache.Composed) (held : Reach) (thread : ThreadId)
    (ending : LoaderEnd V) :
    Steps cache (cache.accepts held (.loaderEnded thread ending)) []
      (cache.step held (.loaderEnded thread ending)).1 := by
  have unfit (nothing : cache.accepts held (.loaderEnded thread ending) = [])
      (same : (cache.step held (.loaderEnded thread ending)).1 = cache) :
      Steps cache (cache.accepts held (.loaderEnded thread ending)) []
        (cache.step held (.loaderEnded thread ending)).1 := by
    rw [nothing, same]
    exact .still
  cases here : cache.callsOf thread with
  | nil => exact unfit (by cases ending <;> simp [accepts, here]) (by simp [step, here])
  | cons call calls =>
      obtain ⟨arguments, frames⟩ := call
      have arranged : Arranged cache.segmentOf frames := composed.arranged thread _ (here ▸ List.mem_cons_self)
      cases frames with
      | nil => exact unfit (by cases ending <;> simp [accepts, here]) (by simp [step, here])
      | cons frame rest =>
          cases frame with
          | loading key flight started source purpose =>
              have fits := arranged.fits rfl
              have placed : flight.segment = cache.segmentOf key.data := (fits _ List.mem_cons_self).2 _ rfl
              have works := endLoader_works composed.orderly (cache.reach held) placed started source purpose ending
              simp only [accepts, step, here]
              cases ending <;>
                exact .resume here fits works fun frame member => fits frame (List.mem_cons_of_mem _ member)
          | _ => exact unfit (by cases ending <;> simp [accepts, here]) (by simp [step, here])

theorem Composed.listenerEnded_steps (composed : cache.Composed) (held : Reach) (thread : ThreadId)
    (ending : ListenerEnd) :
    Steps cache [] [] (cache.step held (.listenerEnded thread ending)).1 := by
  simp only [step]
  split
  · rename_i arguments removal frames calls here
    have arranged := composed.arranged thread _ (here ▸ List.mem_cons_self)
    cases arranged with
    | quiet fits => cases (fits _ List.mem_cons_self).1
    | listening fits =>
        cases ending with
        | quiet => exact .heard here fits
        | panicked message => exact .heard here fits
  · exact .still

theorem Composed.step_steps (composed : cache.Composed) (held : Reach) (event : Event K V τ) :
    Steps cache (cache.accepts held event) (cache.notifies event) (cache.step held event).1 := by
  cases event with
  | call thread request =>
      apply Steps.enter
      simp [Frame.Fits, Frame.delivers, Frame.claim?]
  | proceed thread => exact composed.proceed_steps held thread
  | loaderEnded thread ending => exact composed.loaderEnded_steps held thread ending
  | listenerEnded thread ending => exact composed.listenerEnded_steps held thread ending
  | setClock clock => exact .setClock clock
  | contend contended => exact .contend contended
  | closeBackground => exact .closeBackground

theorem Attentive.step_steps (attentive : cache.Attentive) (held : Reach) (event : Event K V τ) :
    Steps cache (cache.accepts held event) (cache.notifies event) (cache.step held event).1 :=
  attentive.composed.step_steps held event

omit [DecidableEq K] [Clock τ] in
theorem callsOf_congr (same : cache'.calls = cache.calls) (thread : ThreadId) :
    cache'.callsOf thread = cache.callsOf thread := by
  rw [callsOf, same, callsOf]

omit [DecidableEq K] [Clock τ] in
theorem Pending.mono {p q : Frame K V → Prop} (pending : cache.Pending p) (weaker : ∀ frame, p frame → q frame) :
    cache.Pending q := by
  obtain ⟨thread, call, member, frame, inside, holds⟩ := pending
  exact ⟨thread, call, member, frame, inside, weaker frame holds⟩

omit [DecidableEq K] [Clock τ] in
theorem Pending.innermost {p : Frame K V → Prop} {call : Call K V} {frame : Frame K V}
    (member : frame ∈ call.frames) (holds : p frame) (thread : ThreadId) (calls : List (Call K V)) :
    (cache.setCalls thread (call :: calls)).Pending p :=
  ⟨thread, call, by simp, frame, member, holds⟩

omit [DecidableEq K] [Clock τ] in
theorem Pending.setCalls {p : Frame K V → Prop} (pending : cache.Pending p) (same : cache'.calls = cache.calls)
    {thread : ThreadId} {calls : List (Call K V)}
    (kept : ∀ call ∈ cache.callsOf thread, (∃ frame ∈ call.frames, p frame) → call ∈ calls) :
    (cache'.setCalls thread calls).Pending p := by
  obtain ⟨other, call, member, frame, inside, holds⟩ := pending
  refine ⟨other, call, ?_, frame, inside, holds⟩
  rw [callsOf_setCalls]
  split
  · rename_i equal
    exact kept call (equal ▸ member) ⟨frame, inside, holds⟩
  · rwa [callsOf_congr same]

omit [DecidableEq K] [Clock τ] in
theorem Pending.elsewhere {p : Frame K V → Prop} {thread : ThreadId} {call : Call K V} {calls : List (Call K V)}
    (pending : cache.Pending p) (here : cache.callsOf thread = call :: calls)
    (none : ∀ frame ∈ call.frames, ¬ p frame) (same : cache'.calls = cache.calls) (more : List (Call K V)) :
    (cache'.setCalls thread (more ++ calls)).Pending p := by
  apply pending.setCalls same
  rintro call' member ⟨frame, inside, holds⟩
  rw [here] at member
  rcases List.mem_cons.mp member with rfl | outer
  · exact absurd holds (none frame inside)
  · exact List.mem_append_right _ outer

omit [DecidableEq K] [Clock τ] in
theorem Composed.setCalls (composed : cache.Composed) (orderly : cache'.Orderly) (same : cache'.calls = cache.calls)
    (place : cache'.segmentOf = cache.segmentOf) {thread : ThreadId} {calls : List (Call K V)}
    (arranged : ∀ call ∈ calls, call ∈ cache.callsOf thread ∨ Arranged cache.segmentOf call.frames) :
    (cache'.setCalls thread calls).Composed where
  orderly := ⟨orderly.shards, orderly.chosen, orderly.reloads⟩
  arranged other call member := by
    have place' : (cache'.setCalls thread calls).segmentOf = cache.segmentOf := place
    rw [place']
    rw [callsOf_setCalls] at member
    split at member
    · exact (arranged call member).elim (composed.arranged thread call) id
    · rw [callsOf_congr same] at member
      exact composed.arranged other call member

omit [DecidableEq K] [Clock τ] in
theorem Composed.goOn {thread : ThreadId} {call : Call K V} {calls : List (Call K V)} {arguments : List ObjectId}
    {frames : List (Frame K V)} (composed : cache.Composed) (orderly : cache'.Orderly)
    (same : cache'.calls = cache.calls) (place : cache'.segmentOf = cache.segmentOf)
    (here : cache.callsOf thread = call :: calls) (arranged : Arranged cache.segmentOf frames) :
    (cache'.setCalls thread (⟨arguments, frames⟩ :: calls)).Composed := by
  apply composed.setCalls orderly same place
  intro call'' member
  rcases List.mem_cons.mp member with rfl | outer
  · exact .inr arranged
  · exact .inl (here ▸ List.mem_cons_of_mem _ outer)

theorem Steps.composed {accepted : List (K × Shared V)} {notified : List (Removal K V)}
    (steps : Steps cache accepted notified cache') (composed : cache.Composed) : cache'.Composed := by
  have orderly := composed.orderly
  cases steps with
  | still => exact composed
  | setClock | contend => exact ⟨⟨orderly.shards, orderly.chosen, orderly.reloads⟩, composed.arranged⟩
  | closeBackground => exact ⟨⟨orderly.shards, orderly.chosen, trivial⟩, composed.arranged⟩
  | enter thread call fits =>
      apply composed.setCalls orderly rfl rfl
      intro call' member
      rcases List.mem_cons.mp member with rfl | outer
      · exact .inr (.quiet fits)
      · exact .inl outer
  | leave here fits =>
      apply composed.setCalls orderly rfl rfl
      exact fun call member => .inl (here ▸ List.mem_cons_of_mem _ member)
  | resume here fits works fits' =>
      have steady := works.moves.steady
      apply composed.goOn (works.moves.orderly orderly) steady.calls steady.segmentOf here
      rcases works.frames with ⟨frames, due, quiet⟩ | ⟨_, quiet⟩
      · rw [due]
        exact .deliver (List.forall_mem_append.mpr ⟨quiet, fits'⟩)
      · exact .quiet (List.forall_mem_append.mpr ⟨quiet, fits'⟩)
  | begin here fits =>
      exact composed.goOn ⟨orderly.shards, orderly.chosen, orderly.reloads⟩ rfl rfl here (.delivering fits)
  | pass here fits => exact composed.goOn orderly rfl rfl here (.quiet fits)
  | notify here fits =>
      exact composed.goOn ⟨orderly.shards, orderly.chosen, orderly.reloads⟩ rfl rfl here (.listening fits)
  | finish here fits =>
      exact composed.goOn ⟨orderly.shards, orderly.chosen, orderly.reloads⟩ rfl rfl here (.quiet fits)
  | heard here fits =>
      exact composed.goOn ⟨orderly.shards, orderly.chosen, orderly.reloads⟩ rfl rfl here (.delivering fits)

structure Unchanged (cache cache' : Cache K V τ) : Prop where
  policy : cache'.policy = cache.policy
  hash : cache'.hash = cache.hash
  shift : cache'.shift = cache.shift
  listens : cache'.listens = cache.listens
  size : cache'.shards.size = cache.shards.size

omit [DecidableEq K] [Clock τ] in
theorem Unchanged.segmentOf (unchanged : Unchanged cache cache') : cache'.segmentOf = cache.segmentOf := by
  funext key
  rw [Cache.segmentOf, unchanged.shift, unchanged.hash, Cache.segmentOf]

theorem Steps.unchanged {accepted : List (K × Shared V)} {notified : List (Removal K V)}
    (steps : Steps cache accepted notified cache') : Unchanged cache cache' := by
  cases steps with
  | resume here fits works fits' =>
      have steady := works.moves.steady
      exact ⟨steady.policy, steady.hash, steady.shift, steady.listens, steady.size⟩
  | still | setClock | contend | closeBackground | enter | leave | begin | pass | notify | finish | heard =>
      exact ⟨rfl, rfl, rfl, rfl, rfl⟩

theorem Steps.attentive {accepted : List (K × Shared V)} {notified : List (Removal K V)}
    (steps : Steps cache accepted notified cache') (attentive : cache.Attentive) : cache'.Attentive := by
  have composed := steps.composed attentive.composed
  suffices (cache'.delivering = true → cache'.Pending (· = .delivering)) ∧
      (cache'.undelivered ≠ [] → cache'.Pending fun frame => frame = .deliver ∨ frame = .delivering) from
    ⟨composed.orderly, steps.unchanged.listens.trans attentive.listens, composed.arranged, this.1, this.2⟩
  cases steps with
  | still | setClock | contend | closeBackground => exact ⟨attentive.delivering, attentive.due⟩
  | enter thread call fits =>
      constructor
      · exact fun delivering => (attentive.delivering delivering).setCalls rfl fun _ member _ => by simp [member]
      · exact fun due => (attentive.due due).setCalls rfl fun _ member _ => by simp [member]
  | leave here fits =>
      constructor
      · exact fun delivering => (attentive.delivering delivering).elsewhere here
          (fun frame member same => (fits frame member).not_delivering (.inr same)) rfl []
      · exact fun due => (attentive.due due).elsewhere here
          (fun frame member => (fits frame member).not_delivering) rfl []
  | @resume thread call calls accepted result rest arguments here fits works fits' =>
      have steady := works.moves.steady
      constructor
      · intro delivering
        exact (attentive.delivering (steady.delivering ▸ delivering)).elsewhere here
          (fun frame member same => (fits frame member).not_delivering (.inr same)) steady.calls [_]
      · intro due
        rcases works.frames with ⟨frames, reported, _⟩ | ⟨same, _⟩
        · exact .innermost (by simp [reported]) (.inl rfl) thread calls
        · exact (attentive.due (same ▸ due)).elsewhere here (fun frame member => (fits frame member).not_delivering)
            steady.calls [_]
  | @begin thread _ _ calls here fits =>
      constructor
      · exact fun _ => .innermost (p := (· = .delivering)) List.mem_cons_self rfl thread calls
      · exact fun _ => .innermost List.mem_cons_self (.inr rfl) thread calls
  | @pass thread arguments rest calls here fits otherwise =>
      have others (delivering : cache.delivering = true) :
          (cache.setCalls thread (⟨arguments, rest⟩ :: calls)).Pending (· = .delivering) := by
        refine (attentive.delivering delivering).elsewhere here ?_ rfl [_]
        intro frame member same
        rcases List.mem_cons.mp member with rfl | later
        · cases same
        · exact (fits frame later).not_delivering (.inr same)
      exact ⟨others, fun _ => (others (otherwise attentive.listens)).mono fun _ => .inr⟩
  | @notify thread _ _ calls _ _ here fits waiting =>
      constructor
      · exact fun _ => .innermost (p := (· = .delivering))
          (List.mem_cons_of_mem _ List.mem_cons_self) rfl thread calls
      · exact fun _ => .innermost (List.mem_cons_of_mem _ List.mem_cons_self) (.inr rfl) thread calls
  | finish here fits done =>
      constructor
      · exact fun delivering => nomatch delivering
      · exact fun due => absurd rfl due
  | @heard thread _ _ _ calls _ here fits =>
      constructor
      · exact fun _ => .innermost (p := (· = .delivering)) List.mem_cons_self rfl thread calls
      · exact fun _ => .innermost List.mem_cons_self (.inr rfl) thread calls

theorem Steps.accounts {accepted : List (K × Shared V)} {notified : List (Removal K V)}
    (steps : Steps cache accepted notified cache') (attentive : cache.Attentive) :
    cache'.accounts + notified.map Removal.pair = cache.accounts + accepted := by
  cases steps with
  | resume here fits works fits' =>
      exact (add_zero _).trans (works.moves.accounts attentive.orderly attentive.listens)
  | @notify thread _ _ _ removal later here fits waiting =>
      have all : (cache.undelivered.map Removal.pair : Multiset (K × Shared V)) =
          later.map Removal.pair + [removal].map Removal.pair := by
        rw [waiting, Multiset.coe_add]
        exact Multiset.coe_eq_coe.mpr (List.perm_append_singleton _ _).symm
      rw [Cache.accounts, Cache.accounts, all, ← add_assoc]
      exact (add_zero _).symm
  | finish here fits done =>
      rw [Cache.accounts, Cache.accounts, done]
      rfl
  | still | setClock | contend | closeBackground | enter | leave | begin | pass | heard => exact congrArg _ rfl

end SegmentedCache.Cache
