import SegmentedCache.Proofs.Cache.Moves

namespace SegmentedCache

/-!
Serving one request from its call to its reply. The thread proceeds, and the client answers for the loader and for the
listener, neither of which calls the cache.
-/

variable {K V τ : Type}

namespace Clock

variable [Clock τ]

def reading : Nat → τ → Nat
  | 0, clock => (read clock).1
  | n + 1, clock => reading n (read clock).2

structure Forward (clock : τ) : Prop where
  le : ∀ n, reading n clock ≤ reading (n + 1) clock

theorem Forward.next {clock : τ} (forward : Forward clock) :
    (read clock).1 ≤ (read (read clock).2).1 ∧ Forward (read clock).2 :=
  ⟨forward.le 0, ⟨fun n => forward.le (n + 1)⟩⟩

structure Passes (clock clock' : τ) : Prop where
  le : (read clock).1 ≤ (read clock').1
  forward : Forward clock'

end Clock

theorem ManualClock.passes {clock clock' : ManualClock}
    (later : (clock'.step == 0 && clock.nanos ≤ clock'.nanos) = true) : Clock.Passes clock clock' := by
  simp only [Bool.and_eq_true, beq_iff_eq, decide_eq_true_eq] at later
  refine ⟨UInt64.le_iff_toNat_le.mp later.2, ⟨fun n => ?_⟩⟩
  have still : (Clock.read clock').2 = clock' := by
    show ManualClock.mk (clock'.nanos + clock'.step) clock'.step = clock'
    rw [later.1, UInt64.add_zero, ← later.1]
  rw [Clock.reading, still]

def Frame.isActive : Frame K V → Bool
  | .loading .. | .listening _ | .unwind _ | .give _ | .await .. => false
  | _ => true

namespace Cache

variable [DecidableEq K] [Clock τ]

/-- A run of the innermost call of a thread to its reply, with the ends of the loaders that it asked for. Time may pass
while a loader runs. -/
inductive Serves (held : Reach) (thread : ThreadId) :
    Cache K V τ → List (LoaderEnd V × Nat) → Reply K V → Cache K V τ → Prop where
  | returned {cache cache' : Cache K V τ} {reply : Reply K V}
      (proceeds : cache.proceed held thread = (cache', .returned reply)) : Serves held thread cache [] reply cache'
  | progress {cache t cache' : Cache K V τ} {loads : List (LoaderEnd V × Nat)} {reply : Reply K V}
      (proceeds : cache.proceed held thread = (t, .progress)) (rest : Serves held thread t loads reply cache') :
      Serves held thread cache loads reply cache'
  | listener {cache t cache' : Cache K V τ} {loads : List (LoaderEnd V × Nat)} {reply : Reply K V}
      {notice : Notice K V} (proceeds : cache.proceed held thread = (t, .notify notice)) (ending : ListenerEnd)
      (rest : Serves held thread (t.step held (.listenerEnded thread ending)).1 loads reply cache') :
      Serves held thread cache loads reply cache'
  | loader {cache t cache' : Cache K V τ} {loads : List (LoaderEnd V × Nat)} {reply : Reply K V}
      {call : LoaderCall K V} (proceeds : cache.proceed held thread = (t, .runLoader call)) {clock : τ}
      (passes : Clock.Passes t.clock clock) {ending : LoaderEnd V} (quiet : ∀ message, ending ≠ .panicked message)
      (rest : Serves held thread (({ t with clock }).step held (.loaderEnded thread ending)).1 loads reply cache') :
      Serves held thread cache ((ending, (Clock.read clock).1) :: loads) reply cache'

/-- Every run of the innermost call of a thread comes to an end, and then this holds. -/
inductive Completes (held : Reach) (thread : ThreadId) :
    (List (LoaderEnd V × Nat) → Reply K V → Cache K V τ → Prop) → Cache K V τ → Prop where
  | returned {post : List (LoaderEnd V × Nat) → Reply K V → Cache K V τ → Prop} {cache cache' : Cache K V τ}
      {reply : Reply K V} (proceeds : cache.proceed held thread = (cache', .returned reply))
      (holds : post [] reply cache') : Completes held thread post cache
  | progress {post : List (LoaderEnd V × Nat) → Reply K V → Cache K V τ → Prop} {cache t : Cache K V τ}
      (proceeds : cache.proceed held thread = (t, .progress)) (rest : Completes held thread post t) :
      Completes held thread post cache
  | listener {post : List (LoaderEnd V × Nat) → Reply K V → Cache K V τ → Prop} {cache t : Cache K V τ}
      {notice : Notice K V} (proceeds : cache.proceed held thread = (t, .notify notice))
      (rest : ∀ ending, Completes held thread post (t.step held (.listenerEnded thread ending)).1) :
      Completes held thread post cache
  | loader {post : List (LoaderEnd V × Nat) → Reply K V → Cache K V τ → Prop} {cache t : Cache K V τ}
      {call : LoaderCall K V} (proceeds : cache.proceed held thread = (t, .runLoader call))
      (rest : ∀ clock, Clock.Passes t.clock clock → ∀ ending, (∀ message, ending ≠ .panicked message) →
        Completes held thread (fun loads => post ((ending, (Clock.read clock).1) :: loads))
          (({ t with clock }).step held (.loaderEnded thread ending)).1) :
      Completes held thread post cache

theorem Completes.imp {held : Reach} {thread : ThreadId}
    {post post' : List (LoaderEnd V × Nat) → Reply K V → Cache K V τ → Prop} {cache : Cache K V τ}
    (completes : Completes held thread post cache)
    (imp : ∀ loads reply t, post loads reply t → post' loads reply t) :
    Completes held thread post' cache := by
  induction completes generalizing post' with
  | returned proceeds holds => exact .returned proceeds (imp _ _ _ holds)
  | progress proceeds _ ih => exact .progress proceeds (ih imp)
  | listener proceeds _ ih => exact .listener proceeds fun ending => ih ending imp
  | loader proceeds _ ih =>
      exact .loader proceeds fun clock passes ending quiet => ih clock passes ending quiet fun _ _ _ => imp _ _ _

theorem Completes.of_serves {held : Reach} {thread : ThreadId}
    {post : List (LoaderEnd V × Nat) → Reply K V → Cache K V τ → Prop} {cache cache' : Cache K V τ}
    {loads : List (LoaderEnd V × Nat)} {reply : Reply K V} (completes : Completes held thread post cache)
    (serves : Serves held thread cache loads reply cache') : post loads reply cache' := by
  induction serves generalizing post with
  | returned proceeds =>
      cases completes with
      | returned proceeds' holds =>
          cases proceeds.symm.trans proceeds'
          exact holds
      | progress proceeds' | listener proceeds' | loader proceeds' => cases proceeds.symm.trans proceeds'
  | progress proceeds _ ih =>
      cases completes with
      | progress proceeds' rest =>
          cases proceeds.symm.trans proceeds'
          exact ih rest
      | returned proceeds' | listener proceeds' | loader proceeds' => cases proceeds.symm.trans proceeds'
  | listener proceeds ending _ ih =>
      cases completes with
      | listener proceeds' rest =>
          cases proceeds.symm.trans proceeds'
          exact ih (rest ending)
      | returned proceeds' | progress proceeds' | loader proceeds' => cases proceeds.symm.trans proceeds'
  | loader proceeds passes quiet _ ih =>
      cases completes with
      | loader proceeds' rest =>
          cases proceeds.symm.trans proceeds'
          exact ih (rest _ passes _ quiet)
      | returned proceeds' | progress proceeds' | listener proceeds' => cases proceeds.symm.trans proceeds'

/-- The run in which the loaders end like this in turn, each once it is that late, and no listener panics. It is
given up after so many steps, or when the time would go back. -/
def serve (isLater : τ → τ → Bool) (held : Reach) (thread : ThreadId) :
    Nat → List (τ × LoaderEnd V) → Cache K V τ →
      Option (List (LoaderEnd V × Nat) × Reply K V × Cache K V τ)
  | 0, _, _ => none
  | limit + 1, endings, cache =>
      match cache.proceed held thread with
      | (cache', .returned reply) => some ([], reply, cache')
      | (t, .progress) => serve isLater held thread limit endings t
      | (t, .notify _) => serve isLater held thread limit endings (t.step held (.listenerEnded thread .quiet)).1
      | (t, .runLoader _) =>
          match endings with
          | [] | (_, .panicked _) :: _ => none
          | (clock, ending) :: endings =>
              if isLater t.clock clock then
                (serve isLater held thread limit endings
                  ({ t with clock }.step held (.loaderEnded thread ending)).1).map fun (loads, rest) =>
                    ((ending, (Clock.read clock).1) :: loads, rest)
              else none
      | _ => none

theorem serves_of_serve {isLater : τ → τ → Bool} {held : Reach} {thread : ThreadId}
    (passes : ∀ clock clock', isLater clock clock' = true → Clock.Passes clock clock') {limit : Nat}
    {endings : List (τ × LoaderEnd V)} {cache cache' : Cache K V τ} {loads : List (LoaderEnd V × Nat)}
    {reply : Reply K V} (serve : cache.serve isLater held thread limit endings = some (loads, reply, cache')) :
    Serves held thread cache loads reply cache' := by
  fun_induction Cache.serve isLater held thread limit endings cache generalizing loads with
  | case2 limit endings cache t reply proceeds =>
      cases serve
      exact .returned proceeds
  | case3 limit endings cache t proceeds ih => exact .progress proceeds (ih serve)
  | case4 limit endings cache t notice proceeds ih => exact .listener proceeds .quiet (ih serve)
  | case7 limit cache t call proceeds clock ending endings quiet later ih =>
      obtain ⟨⟨loads', rest⟩, served, equal⟩ := Option.map_eq_some_iff.mp serve
      cases equal
      exact .loader proceeds (passes _ _ later) quiet (ih served)
  | _ => cases serve

theorem proceed_of_active {cache : Cache K V τ} {thread : ThreadId} {arguments : List ObjectId} {frame : Frame K V}
    {rest : List (Frame K V)} {outer : List (Call K V)}
    (here : cache.callsOf thread = ⟨arguments, frame :: rest⟩ :: outer) (active : frame.isActive = true)
    (held : Reach) :
    cache.proceed held thread =
      ((cache.work (cache.reach held) thread frame).1.setCalls thread
        (⟨arguments, (cache.work (cache.reach held) thread frame).2 ++ rest⟩ :: outer), .progress) := by
  simp only [proceed, here]
  cases frame with
  | loading | listening | unwind | give | await => cases active
  | _ => rfl

structure SameStore (cache cache' : Cache K V τ) : Prop where
  hash : cache'.hash = cache.hash
  shift : cache'.shift = cache.shift
  shards : cache'.shards = cache.shards
  clock : cache'.clock = cache.clock
  contended : cache'.contended = cache.contended

structure Steadfast (holds : Cache K V τ → Prop) : Prop where
  kept : ∀ cache cache', SameStore cache cache' → holds cache → holds cache'

omit [DecidableEq K] [Clock τ] in
theorem Steadfast.timed {holds : Cache K V τ → Prop} (steadfast : Steadfast holds) (clock : τ) :
    Steadfast fun cache => holds cache ∧ cache.clock = clock :=
  ⟨fun _ _ same ⟨now, time⟩ => ⟨steadfast.kept _ _ same now, same.clock.trans time⟩⟩

/-- With these frames left, a call completes from every state in which this holds. -/
structure Goes (held : Reach) (thread : ThreadId)
    (post : List (LoaderEnd V × Nat) → Reply K V → Cache K V τ → Prop) (holds : Cache K V τ → Prop)
    (frames : List (Frame K V)) : Prop where
  completes : ∀ cache arguments calls, holds cache → cache.callsOf thread = ⟨arguments, frames⟩ :: calls →
    Completes held thread post cache

namespace Goes

variable {held : Reach} {thread : ThreadId} {post : List (LoaderEnd V × Nat) → Reply K V → Cache K V τ → Prop}
  {holds : Cache K V τ → Prop} {frame : Frame K V} {rest : List (Frame K V)}

theorem resume (goes : Goes held thread post holds rest) (steadfast : Steadfast holds) {cache t : Cache K V τ}
    (now : holds cache) (same : SameStore cache t) (arguments : List ObjectId) (calls : List (Call K V)) :
    Completes held thread post (t.setCalls thread (⟨arguments, rest⟩ :: calls)) := by
  refine goes.completes _ arguments calls (steadfast.kept cache _ ?_ now) (by simp)
  exact ⟨same.hash, same.shift, same.shards, same.clock, same.contended⟩

theorem call {request : Request K V} (goes : Goes held thread post holds [.start request]) (steadfast : Steadfast holds)
    {cache : Cache K V τ} (now : holds cache) :
    Completes held thread post (cache.step held (.call thread request)).1 :=
  goes.resume steadfast now ⟨rfl, rfl, rfl, rfl, rfl⟩ request.objects (cache.callsOf thread)

theorem give {reply : Reply K V} (steadfast : Steadfast holds) (done : ∀ cache, holds cache → post [] reply cache) :
    Goes held thread post holds [.give reply] := by
  refine ⟨fun cache arguments calls now here => ?_⟩
  have proceeds : cache.proceed held thread = (cache.setCalls thread calls, .returned reply) := by
    simp only [proceed, here]
  exact .returned proceeds (done _ (steadfast.kept cache _ ⟨rfl, rfl, rfl, rfl, rfl⟩ now))

theorem work (active : frame.isActive = true)
    (next : ∀ cache reach, holds cache → ∃ holds', Steadfast holds' ∧
      holds' (cache.work reach thread frame).1 ∧
      Goes held thread post holds' ((cache.work reach thread frame).2 ++ rest)) :
    Goes held thread post holds (frame :: rest) := by
  refine ⟨fun cache arguments calls now here => ?_⟩
  obtain ⟨holds', steadfast, then_holds, goes⟩ := next cache (cache.reach held) now
  exact .progress (proceed_of_active here active held)
    (goes.resume steadfast then_holds ⟨rfl, rfl, rfl, rfl, rfl⟩ arguments calls)

theorem delivering (steadfast : Steadfast holds) (goes : Goes held thread post holds rest) :
    Goes held thread post holds (.delivering :: rest) := by
  refine ⟨fun cache arguments calls now here => ?_⟩
  generalize waiting : cache.undelivered = undelivered
  induction undelivered generalizing cache with
  | nil =>
      have proceeds : cache.proceed held thread =
          ({ cache with delivering := false }.setCalls thread (⟨arguments, rest⟩ :: calls), .progress) := by
        simp only [proceed, here, Cache.work, waiting, List.nil_append]
      have same : SameStore cache { cache with delivering := false } := ⟨rfl, rfl, rfl, rfl, rfl⟩
      exact .progress proceeds (goes.resume steadfast now same arguments calls)
  | cons removal later ih =>
      have proceeds : cache.proceed held thread =
          ({ cache with undelivered := later }.setCalls thread
            (⟨arguments, .listening removal :: .delivering :: rest⟩ :: calls), .progress) := by
        simp only [proceed, here, Cache.work, waiting, List.cons_append, List.nil_append]
      apply Completes.progress proceeds
      generalize told : ({ cache with undelivered := later }.setCalls thread
        (⟨arguments, .listening removal :: .delivering :: rest⟩ :: calls)) = t
      have here' : t.callsOf thread = ⟨arguments, .listening removal :: .delivering :: rest⟩ :: calls := by
        rw [← told]
        simp
      have notifies : t.proceed held thread = (t, .notify removal.notice) := by simp only [proceed, here']
      apply Completes.listener notifies
      intro ending
      simp only [step, here']
      have now' : holds t := by
        rw [← told]
        exact steadfast.kept cache _ ⟨rfl, rfl, rfl, rfl, rfl⟩ now
      cases ending with
      | quiet =>
          refine ih _ (steadfast.kept t _ ⟨rfl, rfl, rfl, rfl, rfl⟩ now') (by simp) ?_
          rw [← told]
          rfl
      | panicked message =>
          refine ih _ (steadfast.kept t _ ⟨rfl, rfl, rfl, rfl, rfl⟩ now') (by simp) ?_
          rw [← told]
          rfl

theorem deliver (steadfast : Steadfast holds) (goes : Goes held thread post holds rest) :
    Goes held thread post holds (.deliver :: rest) := by
  apply work rfl
  intro cache reach now
  dsimp only [Cache.work]
  split
  · exact ⟨holds, steadfast, steadfast.kept cache _ ⟨rfl, rfl, rfl, rfl, rfl⟩ now, delivering steadfast goes⟩
  · exact ⟨holds, steadfast, now, goes⟩

theorem each (frame : Nat → Frame K V) (holds : Nat → Cache K V τ → Prop) (size : Nat)
    (active : ∀ index, (frame index).isActive = true) (steadfast : ∀ index, Steadfast (holds index))
    (next : ∀ index cache reach, index < size → holds index cache →
      holds (index + 1) (cache.work reach thread (frame index)).1 ∧
        (cache.work reach thread (frame index)).2 = [.deliver, frame (index + 1)])
    (last : Goes held thread post (holds size) [frame size]) {index : Nat} (inside : index ≤ size) :
    Goes held thread post (holds index) [frame index] := by
  obtain ⟨steps, enough⟩ := Nat.exists_eq_add_of_le inside
  induction steps generalizing index with
  | zero =>
      rw [Nat.add_zero] at enough
      exact enough ▸ last
  | succ steps ih =>
      apply work (active index)
      intro cache reach now
      obtain ⟨after, frames⟩ := next index cache reach (by omega) now
      rw [frames]
      exact ⟨holds (index + 1), steadfast _, after, (ih (by omega) (by omega)).deliver (steadfast _)⟩

theorem giveHolding {reply : Reply K V} {objects : List ObjectId} (steadfast : Steadfast holds)
    (goes : Goes held thread post holds (.give reply :: rest)) :
    Goes held thread post holds (.give reply :: .holding objects :: rest) := by
  refine ⟨fun cache arguments calls now here => ?_⟩
  have proceeds : cache.proceed held thread =
      (cache.setCalls thread (⟨arguments, .give reply :: rest⟩ :: calls), .progress) := by
    simp only [proceed, here]
    rfl
  exact .progress proceeds (goes.resume steadfast now ⟨rfl, rfl, rfl, rfl, rfl⟩ arguments calls)

theorem load {key : Shared K} {flight : Flight} {started : Nat} {source : Source} {purpose : Purpose V}
    (next : ∀ cache reach clock ending, holds cache → Clock.Passes cache.clock clock →
      (∀ message, ending ≠ .panicked message) → ∃ holds', Steadfast holds' ∧
        holds' ({ cache with clock }.endLoader reach key flight started source purpose ending).1 ∧
        Goes held thread (fun loads => post ((ending, (Clock.read clock).1) :: loads)) holds'
          (({ cache with clock }.endLoader reach key flight started source purpose ending).2 ++ rest)) :
    Goes held thread post holds (.loading key flight started source purpose :: rest) := by
  refine ⟨fun cache arguments calls now here => ?_⟩
  have asks : cache.proceed held thread = (cache, .runLoader ⟨key.data, source, purpose⟩) := by
    simp only [proceed, here]
  apply Completes.loader asks
  intro clock passes ending quiet
  obtain ⟨holds', steadfast, then_holds, goes⟩ :=
    next cache ({ cache with clock }.reach held) clock ending now passes quiet
  have here' : Cache.callsOf { cache with clock } thread =
      ⟨arguments, .loading key flight started source purpose :: rest⟩ :: calls := here
  simp only [step, here']
  exact goes.resume steadfast then_holds ⟨rfl, rfl, rfl, rfl, rfl⟩ arguments calls

end Goes

end Cache
end SegmentedCache
