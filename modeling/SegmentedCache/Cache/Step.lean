import SegmentedCache.Cache.Reach
import SegmentedCache.Cache.Request

namespace SegmentedCache.Cache

/-!
Running a cache in steps. A step does one thing that is left to do in the innermost call of a thread.
-/

variable {K V τ : Type} [DecidableEq K] [Clock τ]

def passOn (cache : Cache K V τ) (reply : Reply K V) : Frame K V → Cache K V τ × List (Frame K V)
  | .gather key rest gathered =>
      match reply, rest with
      | .outcome (.ok value), [] => (cache, [.give (.gathered (.ok (gathered ++ [(key, value)])))])
      | .outcome (.ok value), next :: rest =>
          (cache, [.find next .bound, .gather next rest (gathered ++ [(key, value)])])
      | .outcome (.error error), _ => (cache, [.give (.gathered (.error error))])
      | reply, _ => (cache, [.give reply])
  | .renewing => (cache, [.give .done])
  | .fetching =>
      match reply with
      | .outcome (.error error) => (cache.logged (.absentRefreshFailed error), [.give .done])
      | _ => (cache, [.give .done])
  | _ => (cache, [.give reply])

def work (cache : Cache K V τ) (reach : Reach) (thread : ThreadId) :
    Frame K V → Cache K V τ × List (Frame K V)
  | .start request => cache.startRequest reach thread request
  | .deliver =>
      if cache.listens && !cache.delivering then ({ cache with delivering := true }, [.delivering])
      else (cache, [])
  | .delivering =>
      match cache.undelivered with
      | [] => ({ cache with delivering := false }, [])
      | removal :: rest => ({ cache with undelivered := rest }, [.listening removal, .delivering])
  | .find key source => cache.find reach key source
  | .claim key source now => cache.claim reach thread key source now
  | .renew key source now value => cache.renew reach thread key source now value
  | .found key source value renewal =>
      let (cache, frames) := cache.countRead reach (cache.segmentOf key.data)
      (cache, frames ++ [.answer key source value renewal])
  | .answer key source value renewal => cache.answer key source value renewal
  | .claimed key source segment claim => cache.takeClaim key source segment claim
  | .await key flight =>
      match cache.load? flight with
      | none => (cache, [.await key flight])
      | some load =>
          if load.owner = some thread then
            (cache, [.give (.outcome (.error (.loadsItself (cache.hash key.data))))])
          else
            match load.outcome with
            | none => (cache, [.await key flight])
            | some outcome => (cache, [.give (.outcome outcome)])
  | .settle flight outcome => (cache.modifyLoad flight (·.settle outcome), [])
  | .conclude source purpose outcome => cache.conclude source purpose outcome
  | .cancel key flight => cache.giveUp reach key flight
  | .renewed key none => (cache, [.find key .bound, .fetching])
  | .renewed key (some (flight, old)) => (cache, [.answer key .bound old (some (flight, old)), .renewing])
  | .removing [] => (cache, [.give .done])
  | .removing (key :: rest) =>
      let (old, cache) := cache.remove reach key
      (cache, [.deliver, .holding (old.map (·.id)).toList, .removing rest])
  | .clearing segment =>
      if segment < cache.shards.size then
        (cache.changeSegment segment (·.clear reach), [.deliver, .clearing (segment + 1)])
      else (cache.logged (.cleared cache.shards.size), [.give .done])
  | .sweeping segment =>
      if segment < cache.shards.size then
        let (now, cache) := cache.readClock
        (cache.changeSegment segment (·.cleanUp reach now), [.deliver, .sweeping (segment + 1)])
      else (cache, [.give .done])
  | .releasing segment =>
      if segment < cache.shards.size then
        (cache.changeSegment segment (·.releaseSoft reach), [.deliver, .releasing (segment + 1)])
      else (cache, [.give .done])
  | .renewing => (cache, [.give .done])
  | .fetching => (cache, [.give .done])
  | .listening _ => (cache, [])
  | .loading .. => (cache, [])
  | .holding _ => (cache, [])
  | .unwind _ => (cache, [])
  | .give _ => (cache, [])
  | .gather .. => (cache, [])

def isBlocked (cache : Cache K V τ) (thread : ThreadId) (flight : Flight) : Bool :=
  match cache.load? flight with
  | none => true
  | some load => load.owner ≠ some thread && load.outcome.isNone

def proceed (cache : Cache K V τ) (held : Reach) (thread : ThreadId) : Cache K V τ × Signal K V :=
  match cache.callsOf thread with
  | [] => (cache, .idle)
  | call :: calls =>
      let reach := cache.reach held
      let resume (frames : List (Frame K V)) (result : Cache K V τ × List (Frame K V)) :
          Cache K V τ × Signal K V :=
        (result.1.setCalls thread ({ call with frames := result.2 ++ frames } :: calls), .progress)
      match call.frames with
      | [] => (cache.setCalls thread calls, .returned .done)
      | .loading key _ _ source purpose :: _ => (cache, .runLoader ⟨key.data, source, purpose⟩)
      | .listening removal :: _ => (cache, .notify removal.notice)
      | .unwind message :: _ => (cache.setCalls thread calls, .panicked message)
      | [.give reply] => (cache.setCalls thread calls, .returned reply)
      | .give reply :: frame :: frames => resume frames (cache.passOn reply frame)
      | .await key flight :: frames =>
          if cache.isBlocked thread flight then (cache, .blocked)
          else resume frames (cache.work reach thread (.await key flight))
      | frame :: frames => resume frames (cache.work reach thread frame)

/-- Reacts to an event, while the client holds on to `held`. An event that does not fit changes nothing. -/
def step (cache : Cache K V τ) (held : Reach) : Event K V τ → Cache K V τ × Signal K V
  | .call thread request =>
      let call := { arguments := request.objects, frames := [.start request] }
      (cache.setCalls thread (call :: cache.callsOf thread), .progress)
  | .proceed thread => cache.proceed held thread
  | .loaderEnded thread ending =>
      match cache.callsOf thread with
      | { arguments, frames := .loading key flight started source purpose :: frames } :: calls =>
          let reach := cache.reach held
          let (cache, new) := cache.endLoader reach key flight started source purpose ending
          (cache.setCalls thread ({ arguments, frames := new ++ frames } :: calls), .progress)
      | _ => (cache, .idle)
  | .listenerEnded thread ending =>
      match cache.callsOf thread with
      | { arguments, frames := .listening removal :: frames } :: calls =>
          let cache := match ending with
            | .quiet => cache
            | .panicked message => cache.logged (.listenerPanicked removal.cause message)
          (cache.setCalls thread ({ arguments, frames } :: calls), .progress)
      | _ => (cache, .idle)
  | .setClock clock => ({ cache with clock }, .progress)
  | .contend contended => ({ cache with contended }, .progress)
  | .closeBackground => ({ cache with background := .closed }, .progress)

def advance (held : Reach) (thread : ThreadId) : Nat → Cache K V τ → Cache K V τ × Signal K V
  | 0, cache => (cache, .progress)
  | limit + 1, cache =>
      match cache.proceed held thread with
      | (cache, .progress) => advance held thread limit cache
      | (cache, signal) => (cache, signal)

end SegmentedCache.Cache
