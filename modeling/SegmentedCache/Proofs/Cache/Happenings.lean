import SegmentedCache.Proofs.Cache.Work

namespace SegmentedCache

/-!
What happens in a step, by what stands first in the innermost call of the thread that takes it.
-/

variable {K V τ : Type}

def Frame.isWork : Frame K V → Bool
  | .deliver | .delivering | .listening _ | .loading .. | .unwind _ | .give _ => false
  | _ => true

theorem Frame.quiet_of_isWork {frame : Frame K V} (busy : frame.isWork = true) : frame.delivers = false := by
  cases frame with
  | deliver | delivering | listening => cases busy
  | _ => rfl

namespace Cache

variable [DecidableEq K] [Clock τ] {cache : Cache K V τ} {held : Reach}

inductive Happens (cache : Cache K V τ) (held : Reach) : Event K V τ → Cache K V τ × Signal K V → Prop where
  | entered (thread : ThreadId) (request : Request K V) :
      Happens cache held (.call thread request)
        (cache.setCalls thread (⟨request.objects, [.start request]⟩ :: cache.callsOf thread), .progress)
  | timed (clock : τ) : Happens cache held (.setClock clock) ({ cache with clock }, .progress)
  | contended (contended : Bool) : Happens cache held (.contend contended) ({ cache with contended }, .progress)
  | closed : Happens cache held .closeBackground ({ cache with background := .closed }, .progress)
  | idle {thread : ThreadId} (here : cache.callsOf thread = []) : Happens cache held (.proceed thread) (cache, .idle)
  | ended {thread : ThreadId} {arguments : List ObjectId} {outer : List (Call K V)}
      (here : cache.callsOf thread = ⟨arguments, []⟩ :: outer) :
      Happens cache held (.proceed thread) (cache.setCalls thread outer, .returned .done)
  | returned {thread : ThreadId} {arguments : List ObjectId} {reply : Reply K V} {outer : List (Call K V)}
      (here : cache.callsOf thread = ⟨arguments, [.give reply]⟩ :: outer) :
      Happens cache held (.proceed thread) (cache.setCalls thread outer, .returned reply)
  | passed {thread : ThreadId} {arguments : List ObjectId} {reply : Reply K V} {frame : Frame K V}
      {rest : List (Frame K V)} {outer : List (Call K V)}
      (here : cache.callsOf thread = ⟨arguments, .give reply :: frame :: rest⟩ :: outer) :
      Happens cache held (.proceed thread)
        ((cache.passOn reply frame).1.setCalls thread
          (⟨arguments, (cache.passOn reply frame).2 ++ rest⟩ :: outer), .progress)
  | unwound {thread : ThreadId} {arguments : List ObjectId} {message : String} {rest : List (Frame K V)}
      {outer : List (Call K V)} (here : cache.callsOf thread = ⟨arguments, .unwind message :: rest⟩ :: outer) :
      Happens cache held (.proceed thread) (cache.setCalls thread outer, .panicked message)
  | loading {thread : ThreadId} {arguments : List ObjectId} {key : Shared K} {flight : Flight} {started : Nat}
      {source : Source} {purpose : Purpose V} {rest : List (Frame K V)} {outer : List (Call K V)}
      (here : cache.callsOf thread = ⟨arguments, .loading key flight started source purpose :: rest⟩ :: outer) :
      Happens cache held (.proceed thread) (cache, .runLoader ⟨key.data, source, purpose⟩)
  | listening {thread : ThreadId} {arguments : List ObjectId} {removal : Removal K V} {rest : List (Frame K V)}
      {outer : List (Call K V)} (here : cache.callsOf thread = ⟨arguments, .listening removal :: rest⟩ :: outer) :
      Happens cache held (.proceed thread) (cache, .notify removal.notice)
  | blocked {thread : ThreadId} {arguments : List ObjectId} {key : Shared K} {flight : Flight} {rest : List (Frame K V)}
      {outer : List (Call K V)} (here : cache.callsOf thread = ⟨arguments, .await key flight :: rest⟩ :: outer) :
      Happens cache held (.proceed thread) (cache, .blocked)
  | worked {thread : ThreadId} {arguments : List ObjectId} {frame : Frame K V} {rest : List (Frame K V)}
      {outer : List (Call K V)} (here : cache.callsOf thread = ⟨arguments, frame :: rest⟩ :: outer)
      (busy : frame.isWork = true) :
      Happens cache held (.proceed thread)
        ((cache.work (cache.reach held) thread frame).1.setCalls thread
          (⟨arguments, (cache.work (cache.reach held) thread frame).2 ++ rest⟩ :: outer), .progress)
  | begun {thread : ThreadId} {arguments : List ObjectId} {rest : List (Frame K V)} {outer : List (Call K V)}
      (here : cache.callsOf thread = ⟨arguments, .deliver :: rest⟩ :: outer) (free : cache.delivering = false) :
      Happens cache held (.proceed thread)
        ({ cache with delivering := true }.setCalls thread (⟨arguments, .delivering :: rest⟩ :: outer), .progress)
  | skipped {thread : ThreadId} {arguments : List ObjectId} {rest : List (Frame K V)} {outer : List (Call K V)}
      (here : cache.callsOf thread = ⟨arguments, .deliver :: rest⟩ :: outer)
      (otherwise : cache.listens = true → cache.delivering = true) :
      Happens cache held (.proceed thread) (cache.setCalls thread (⟨arguments, rest⟩ :: outer), .progress)
  | told {thread : ThreadId} {arguments : List ObjectId} {rest : List (Frame K V)} {outer : List (Call K V)}
      {removal : Removal K V} {later : List (Removal K V)}
      (here : cache.callsOf thread = ⟨arguments, .delivering :: rest⟩ :: outer)
      (waiting : cache.undelivered = removal :: later) :
      Happens cache held (.proceed thread)
        ({ cache with undelivered := later }.setCalls thread
          (⟨arguments, .listening removal :: .delivering :: rest⟩ :: outer), .progress)
  | allTold {thread : ThreadId} {arguments : List ObjectId} {rest : List (Frame K V)} {outer : List (Call K V)}
      (here : cache.callsOf thread = ⟨arguments, .delivering :: rest⟩ :: outer) (nothing : cache.undelivered = []) :
      Happens cache held (.proceed thread)
        ({ cache with delivering := false }.setCalls thread (⟨arguments, rest⟩ :: outer), .progress)
  | loaded {thread : ThreadId} {arguments : List ObjectId} {key : Shared K} {flight : Flight} {started : Nat}
      {source : Source} {purpose : Purpose V} {rest : List (Frame K V)} {outer : List (Call K V)}
      (here : cache.callsOf thread = ⟨arguments, .loading key flight started source purpose :: rest⟩ :: outer)
      (ending : LoaderEnd V) :
      Happens cache held (.loaderEnded thread ending)
        ((cache.endLoader (cache.reach held) key flight started source purpose ending).1.setCalls thread
          (⟨arguments, (cache.endLoader (cache.reach held) key flight started source purpose ending).2 ++ rest⟩ ::
            outer),
          .progress)
  | notLoading {thread : ThreadId} (ending : LoaderEnd V)
      (elsewhere : ∀ arguments key flight started source purpose rest outer,
        cache.callsOf thread ≠ ⟨arguments, .loading key flight started source purpose :: rest⟩ :: outer) :
      Happens cache held (.loaderEnded thread ending) (cache, .idle)
  | heard {thread : ThreadId} {arguments : List ObjectId} {removal : Removal K V} {rest : List (Frame K V)}
      {outer : List (Call K V)} (here : cache.callsOf thread = ⟨arguments, .listening removal :: rest⟩ :: outer)
      (ending : ListenerEnd) (log : List LogEvent) :
      Happens cache held (.listenerEnded thread ending)
        ({ cache with log }.setCalls thread (⟨arguments, rest⟩ :: outer), .progress)
  | notListening {thread : ThreadId} (ending : ListenerEnd) :
      Happens cache held (.listenerEnded thread ending) (cache, .idle)

theorem proceed_happens (cache : Cache K V τ) (held : Reach) (thread : ThreadId) :
    Happens cache held (.proceed thread) (cache.proceed held thread) := by
  cases here : cache.callsOf thread with
  | nil =>
      simp only [proceed, here]
      exact .idle here
  | cons call outer =>
      obtain ⟨arguments, frames⟩ := call
      cases frames with
      | nil =>
          simp only [proceed, here]
          exact .ended here
      | cons frame rest =>
          simp only [proceed, here]
          cases frame with
          | loading => exact .loading here
          | listening => exact .listening here
          | unwind => exact .unwound here
          | give reply =>
              cases rest with
              | nil => exact .returned here
              | cons frame rest => exact .passed here
          | await key flight =>
              dsimp only
              split
              · exact .blocked here
              · exact .worked here rfl
          | deliver =>
              dsimp only [work]
              split
              · rename_i free
                exact .begun here (by simpa using (Bool.and_eq_true_iff.mp free).2)
              · rename_i busy
                exact .skipped here fun listens => by simpa [listens] using busy
          | delivering =>
              dsimp only [work]
              split
              · rename_i nothing
                exact .allTold here nothing
              · rename_i waiting
                exact .told here waiting
          | _ => exact .worked here rfl

theorem step_happens (cache : Cache K V τ) (held : Reach) (event : Event K V τ) :
    Happens cache held event (cache.step held event) := by
  cases event with
  | call thread request => exact .entered thread request
  | proceed thread => exact cache.proceed_happens held thread
  | loaderEnded thread ending =>
      simp only [step]
      split
      · rename_i here
        exact .loaded here ending
      · rename_i elsewhere
        exact .notLoading ending elsewhere
  | listenerEnded thread ending =>
      simp only [step]
      split
      · rename_i here
        cases ending with
        | quiet => exact .heard here .quiet cache.log
        | panicked message => exact .heard here (.panicked message) _
      · exact .notListening ending
  | setClock clock => exact .timed clock
  | contend contended => exact .contended contended
  | closeBackground => exact .closed

end Cache
end SegmentedCache
