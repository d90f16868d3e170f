import SegmentedCache.Cache.Event
import SegmentedCache.Cache.Reach

namespace SegmentedCache.Cache

/-!
Loads as the calls see them. A load starts on the thread of a caller or in the background, and when its loader has
ended, the segment, the waiting callers and the caller that ran it are told, in this order.
-/

variable {K V τ : Type} [DecidableEq K] [Clock τ]

/-- Reads the clock and leaves the rest to the loader. The key and the value to be renewed stay reachable until
the load has ended and its removals are delivered, even if the loader panics. -/
def runLoader (cache : Cache K V τ) (key : Shared K) (flight : Flight) (source : Source)
    (purpose : Purpose V) : Cache K V τ × List (Frame K V) :=
  let (started, cache) := cache.readClock
  (cache, [.loading key flight started source purpose, .holding (key.id :: purpose.objects)])

/-- Hands a refresh to the background, which drops it at once if it was shut down. Otherwise the refresh runs
here. -/
def reload (cache : Cache K V τ) (key : Shared K) (flight : Flight) (old : Shared V) :
    Cache K V τ × List (Frame K V) :=
  match cache.background with
  | .none => cache.runLoader key flight .bound (.renew old)
  | .queue reloads =>
      ({ cache.modifyLoad flight (·.setOwner none) with
          background := .queue (reloads ++ [{ key, flight, old }]) },
        [.give (.outcome (.ok old))])
  | .closed => (cache.modifyLoad flight (·.setOwner none), [.cancel key flight, .give (.outcome (.ok old))])

def nextReload? (cache : Cache K V τ) : Option (Reload K V × Cache K V τ) :=
  match cache.background with
  | .queue (reload :: reloads) => some (reload, { cache with background := .queue reloads })
  | _ => none

def answer (cache : Cache K V τ) (key : Shared K) (source : Source) (value : Shared V)
    (renewal : Option (Flight × Shared V)) : Cache K V τ × List (Frame K V) :=
  match renewal with
  | none => (cache, [.give (.outcome (.ok value))])
  | some (flight, old) =>
      match source with
      | .given => cache.runLoader key flight source (.renew old)
      | .bound => cache.reload key flight old

/-- Goes on with what became of a claim. The lookup that led to it is counted here. -/
def takeClaim (cache : Cache K V τ) (key : Shared K) (source : Source) (segment : Nat) (claim : Claim V) :
    Cache K V τ × List (Frame K V) :=
  match claim with
  | .needless value => (cache.count (·.countHit), [.give (.outcome (.ok value))])
  | .taken load => (cache.count (·.countMiss), [.await key ⟨segment, load⟩])
  | .granted load => (cache.count (·.countMiss)).runLoader key ⟨segment, load⟩ source .fetch

def finishLoad (cache : Cache K V τ) (reach : Reach) (now : Nat) (key : Shared K) (flight : Flight)
    (loaded : Option (Shared V)) : Cache K V τ :=
  cache.changeSegment flight.segment
    (·.finishLoad reach now key (cache.hash key.data) flight.load loaded)

def giveUp (cache : Cache K V τ) (reach : Reach) (key : Shared K) (flight : Flight) :
    Cache K V τ × List (Frame K V) :=
  let (now, cache) := cache.readClock
  (cache.finishLoad reach now key flight none,
    [.deliver, .settle flight (.error (.loadDropped (cache.hash key.data)))])

def endLoader (cache : Cache K V τ) (reach : Reach) (key : Shared K) (flight : Flight) (started : Nat)
    (source : Source) (purpose : Purpose V) (ending : LoaderEnd V) : Cache K V τ × List (Frame K V) :=
  let (now, cache) := cache.readClock
  let elapsed := now - started
  let hash := cache.hash key.data
  let finish (cache : Cache K V τ) (outcome : LoadOutcome V) : Cache K V τ × List (Frame K V) :=
    (cache.finishLoad (fun object => reach object || outcome.toOption.any (·.id = object)) now key flight
        outcome.toOption,
      [.deliver, .settle flight outcome, .conclude source purpose outcome])
  match ending with
  | .value value => finish (cache.count (·.countLoad elapsed)) (.ok value)
  | .nothing =>
      finish (cache.count (·.countLoadFailure elapsed))
        (.error (CacheError.nothingLoaded.withContext "hash" (toString hash.toNat)))
  | .failed failure =>
      finish (cache.count (·.countLoadFailure elapsed))
        (.error ((CacheError.loadFailed failure).withContext "hash" (toString hash.toNat)))
  | .panicked message =>
      let (cache, frames) := (cache.count (·.countLoadFailure elapsed)).giveUp reach key flight
      (cache, frames ++ [.unwind message])

/-- What the outcome of a load means to the caller who ran it. A failed refresh keeps the old value. -/
def conclude (cache : Cache K V τ) (source : Source) (purpose : Purpose V) (outcome : LoadOutcome V) :
    Cache K V τ × List (Frame K V) :=
  match purpose, outcome with
  | .fetch, outcome => (cache, [.give (.outcome outcome)])
  | .renew _, .ok value => (cache, [.give (.outcome (.ok value))])
  | .renew old, .error error => (cache.logged (.refreshFailed source error), [.give (.outcome (.ok old))])
  | .renewLater _, .ok _ => (cache, [.give .done])
  | .renewLater _, .error error => (cache.logged (.backgroundRefreshFailed error), [.give .done])

end SegmentedCache.Cache
