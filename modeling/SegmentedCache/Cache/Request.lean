import SegmentedCache.Cache.Loading

namespace SegmentedCache.Cache

/-!
What a cache does first with a request, and what it leaves to be done.
-/

variable {K V τ : Type} [DecidableEq K] [Clock τ]

def readsPerCleanUp : Nat := 64

def isDue (cache : Cache K V τ) (segment : Nat) : Bool :=
  (cache.shards[segment]?).any fun shard => shard.reads % readsPerCleanUp = readsPerCleanUp - 1

/-- Counts a read of a segment, and does its housekeeping when that is due. Nobody waits for a lock to do it. -/
def countRead (cache : Cache K V τ) (reach : Reach) (segment : Nat) : Cache K V τ × List (Frame K V) :=
  let due := cache.isDue segment
  let cache := { cache with
    shards := cache.shards.modify segment fun shard => { shard with reads := shard.reads + 1 } }
  if due then
    if cache.contended then (cache, [.deliver])
    else
      let (now, cache) := cache.readClock
      (cache.changeSegment segment (·.cleanUp reach now), [.deliver])
  else (cache, [])

def lookup (cache : Cache K V τ) (reach : Reach) (key : K) : Cache K V τ × List (Frame K V) :=
  let segment := cache.segmentOf key
  let hash := cache.hash key
  let (now, cache) := cache.readClock
  let (found, cache) := cache.onSegment segment .nothing (·.read reach now hash key)
  let (value, cache) := match found with
    | .live value _ => (some value, cache.count (·.countHit))
    | .pending _ | .nothing => (none, cache.count (·.countMiss))
  let (cache, frames) := cache.countRead reach segment
  (cache, frames ++ [.give (.value value)])

/-- Looks a key up for a caller who is prepared to load it. What is found may be gone before anything is claimed. -/
def find (cache : Cache K V τ) (reach : Reach) (key : Shared K) (source : Source) :
    Cache K V τ × List (Frame K V) :=
  let segment := cache.segmentOf key.data
  let hash := cache.hash key.data
  let (now, cache) := cache.readClock
  let (found, cache) := cache.onSegment segment .nothing (·.read reach now hash key.data)
  match found with
  | .live value refresh =>
      (cache.count (·.countHit), [if refresh then .renew key source now value else .found key source value none])
  | .pending load => (cache.count (·.countMiss), [.await key ⟨segment, load⟩])
  | .nothing => (cache, [.claim key source now])

def claim (cache : Cache K V τ) (reach : Reach) (thread : ThreadId) (key : Shared K) (source : Source) (now : Nat) :
    Cache K V τ × List (Frame K V) :=
  let segment := cache.segmentOf key.data
  let (claim, cache) := cache.onSegment segment none fun s =>
    (s.claim reach now thread key (cache.hash key.data)).map some id
  match claim with
  | none => (cache, [])
  | some claim => (cache, [.deliver, .claimed key source segment claim])

def renew (cache : Cache K V τ) (reach : Reach) (thread : ThreadId) (key : Shared K) (source : Source) (now : Nat)
    (value : Shared V) : Cache K V τ × List (Frame K V) :=
  let segment := cache.segmentOf key.data
  let (renewal, cache) := cache.onSegment segment none
    (·.claimRefresh reach now thread key (cache.hash key.data) false)
  (cache, [.deliver, .found key source value (renewal.map fun renewal => (⟨segment, renewal.1⟩, renewal.2))])

def put (cache : Cache K V τ) (reach : Reach) (key : Shared K) (value : Shared V) (onlyIfNew : Bool) :
    Cache K V τ × List (Frame K V) :=
  let hash := cache.hash key.data
  let (now, cache) := cache.readClock
  let (old, cache) := cache.onSegment (cache.segmentOf key.data) none
    (·.insert reach now key hash value onlyIfNew)
  (cache, [.deliver, .give (.value old)])

def remove (cache : Cache K V τ) (reach : Reach) (key : K) : Option (Shared V) × Cache K V τ :=
  let hash := cache.hash key
  let (now, cache) := cache.readClock
  cache.onSegment (cache.segmentOf key) none (·.remove reach now hash key)

def startRequest (cache : Cache K V τ) (reach : Reach) (thread : ThreadId) :
    Request K V → Cache K V τ × List (Frame K V)
  | .lookup key => cache.lookup reach key
  | .get key => (cache, [.find key .given])
  | .load key => (cache, [.find key .bound])
  | .loadAll [] => (cache, [.give (.gathered (.ok []))])
  | .loadAll (key :: rest) => (cache, [.find key .bound, .gather key rest []])
  | .refresh key =>
      let segment := cache.segmentOf key.data
      let hash := cache.hash key.data
      let (now, cache) := cache.readClock
      let (renewal, cache) := cache.onSegment segment none
        (·.claimRefresh reach now thread key hash true)
      (cache, [.deliver, .renewed key (renewal.map fun renewal => (⟨segment, renewal.1⟩, renewal.2))])
  | .insert key value => cache.put reach key value false
  | .insertIfNew key value => cache.put reach key value true
  | .remove key =>
      let (old, cache) := cache.remove reach key
      (cache, [.deliver, .give (.value old)])
  | .removeAll keys => (cache, [.removing keys])
  | .clear => (cache, [.clearing 0])
  | .cleanUp => (cache, [.sweeping 0])
  | .releaseSoft => (cache, [.releasing 0])
  | .contains key =>
      let (now, cache) := cache.readClock
      let live := (cache.shards[cache.segmentOf key]?).any fun shard =>
        shard.segment.contains reach now (cache.hash key) key
      (cache, [.give (.flag live)])
  | .entries =>
      let (now, cache) := cache.readClock
      (cache, [.give (.entries (cache.shards.toList.flatMap fun shard => shard.segment.toList reach now))])
  | .runReload =>
      match cache.nextReload? with
      | none => (cache, [.give .done])
      | some (reload, cache) =>
          (cache.modifyLoad reload.flight (·.setOwner (some thread))).runLoader reload.key reload.flight .bound
            (.renewLater reload.old)
  | .dropReload =>
      match cache.nextReload? with
      | none => (cache, [.give .done])
      | some (reload, cache) =>
          (cache, [.cancel reload.key reload.flight, .holding [reload.key.id, reload.old.id], .give .done])

end SegmentedCache.Cache
