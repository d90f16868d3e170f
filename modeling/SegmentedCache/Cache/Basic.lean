import SegmentedCache.Cache.Log
import SegmentedCache.Clock
import SegmentedCache.Config
import SegmentedCache.Segment.Audit
import SegmentedCache.Segment.Load
import SegmentedCache.Segment.Read
import SegmentedCache.Segment.Write
import SegmentedCache.Sizing
import SegmentedCache.Stats

namespace SegmentedCache

/-!
A cache, its segments, and the calls in progress on it. Loaders and listeners belong to the client: while one of
them runs, the call that needs it rests, and the client may make further calls, on the same thread or another.
So each thread has a stack of calls, and each call a stack of frames that say what is left to do.
-/

/-- Names a load: the segment that issued it, and its number there. -/
structure Flight where
  segment : Nat
  load : LoadId
deriving DecidableEq

inductive Purpose (V : Type) where
  | fetch
  | renew (old : Shared V)
  | renewLater (old : Shared V)

inductive Request (K V : Type) where
  | lookup (key : K)
  /-- Get, with a loader that comes with the call. -/
  | get (key : Shared K)
  /-- Get, with the loader that the cache is bound to. -/
  | load (key : Shared K)
  | loadAll (keys : List (Shared K))
  | refresh (key : Shared K)
  | insert (key : Shared K) (value : Shared V)
  | insertIfNew (key : Shared K) (value : Shared V)
  | remove (key : K)
  | removeAll (keys : List K)
  | clear
  | cleanUp
  | releaseSoft
  | contains (key : K)
  | entries
  /-- Run the background reload that has waited longest. -/
  | runReload
  | dropReload

inductive Reply (K V : Type) where
  | done
  | flag (b : Bool)
  | value (value : Option (Shared V))
  | outcome (outcome : LoadOutcome V)
  | entries (entries : List (Shared K × Shared V))
  | gathered (entries : Except CacheError (List (Shared K × Shared V)))

namespace Reply

variable {K V : Type}

def listed : Reply K V → List (Shared K × Shared V)
  | entries found => found
  | _ => []

def keys (reply : Reply K V) : List (Shared K) :=
  reply.listed.map (·.1)

def values (reply : Reply K V) : List (Shared V) :=
  reply.listed.map (·.2)

end Reply

/-- One thing left to do in a call. -/
inductive Frame (K V : Type) where
  | start (request : Request K V)
  /-- Hand the queued removals to the listener, unless that is being done. -/
  | deliver
  | delivering
  | listening (removal : Removal K V)
  | find (key : Shared K) (source : Source)
  /-- Nothing was found at that time. Claim the load of the key, or join it if somebody else was faster. -/
  | claim (key : Shared K) (source : Source) (now : Nat)
  | renew (key : Shared K) (source : Source) (now : Nat) (value : Shared V)
  /-- A value was found, and perhaps a refresh started. The read is still to be counted. -/
  | found (key : Shared K) (source : Source) (value : Shared V) (renewal : Option (Flight × Shared V))
  | answer (key : Shared K) (source : Source) (value : Shared V) (renewal : Option (Flight × Shared V))
  | claimed (key : Shared K) (source : Source) (segment : Nat) (claim : Claim V)
  | await (key : Shared K) (flight : Flight)
  | loading (key : Shared K) (flight : Flight) (started : Nat) (source : Source) (purpose : Purpose V)
  | settle (flight : Flight) (outcome : LoadOutcome V)
  | conclude (source : Source) (purpose : Purpose V) (outcome : LoadOutcome V)
  /-- Give up a load that nobody will run. -/
  | cancel (key : Shared K) (flight : Flight)
  /-- Objects that stay reachable until all that comes before is done. -/
  | holding (objects : List ObjectId)
  | unwind (message : String)
  | give (reply : Reply K V)
  | gather (key : Shared K) (rest : List (Shared K)) (gathered : List (Shared K × Shared V))
  | renewed (key : Shared K) (renewal : Option (Flight × Shared V))
  | renewing
  /-- The refresh of an absent key gives nothing back. Its failure is logged. -/
  | fetching
  | removing (keys : List K)
  | clearing (segment : Nat)
  | sweeping (segment : Nat)
  | releasing (segment : Nat)

structure Call (K V : Type) where
  arguments : List ObjectId
  frames : List (Frame K V)

structure Shard (K V : Type) where
  segment : Segment K V
  published : Nat := 0
  reads : Nat := 0

structure Reload (K V : Type) where
  key : Shared K
  flight : Flight
  old : Shared V

inductive Background (K V : Type) where
  | none
  | queue (reloads : List (Reload K V))
  /-- It was shut down, and drops whatever it is given. -/
  | closed

structure Cache (K V τ : Type) where
  policy : Policy K V
  hash : K → UInt64
  shift : Nat
  shards : Array (Shard K V)
  clock : τ
  recordsStats : Bool
  stats : Stats := {}
  listens : Bool
  undelivered : List (Removal K V) := []
  delivering : Bool := false
  background : Background K V
  /-- Whether some thread has a lock that others have to wait for. -/
  contended : Bool := false
  /-- The calls in progress on each thread, innermost first. -/
  calls : Array (List (Call K V)) := #[]
  log : List LogEvent := []

namespace Cache

variable {K V τ : Type}

def create (config : Config K V) (hash : K → UInt64) (clock : τ) : Cache K V τ :=
  let bound := config.bound
  let segments := Sizing.segments config.concurrencyLevel bound
  let tableLength := Sizing.tableLength config.initialCapacity segments bound config.weigher.isSome
  let lifetime := Lifetime.ofSpans config.expireAfterWrite config.expireAfterAccess
  let policy : Policy K V :=
    { lifetime
      keyStrength := config.keyStrength
      valueStrength := config.valueStrength
      weigher := config.weigher
      refreshAfter := config.refreshAfterWrite.map Span.toNanos
      tracksReads := bound.isSome || lifetime.afterAccess.isSome }
  { policy
    hash
    shift := Sizing.hashShift segments
    shards := Array.ofFn fun index : Fin segments =>
      { segment := Segment.create policy (Bound.share bound segments index) tableLength }
    clock
    recordsStats := config.recordsStats
    listens := config.listens
    background := if config.background then .queue [] else .none
    log := [.built segments tableLength bound config.keyStrength config.valueStrength] }

def size (cache : Cache K V τ) : Nat :=
  cache.shards.foldl (fun sum shard => sum + shard.published) 0

def weight (cache : Cache K V τ) : Nat :=
  cache.shards.foldl (fun sum shard => sum + shard.segment.weight) 0

def isConsistent (cache : Cache K V τ) : Bool :=
  cache.shards.all fun shard => shard.segment.isConsistent && shard.published == shard.segment.count

def segmentOf (cache : Cache K V τ) (key : K) : Nat :=
  Sizing.segmentAt cache.shift (cache.hash key)

def load? (cache : Cache K V τ) (flight : Flight) : Option (Load K V) :=
  cache.shards[flight.segment]?.bind (·.segment.loads[flight.load]?)

def count (cache : Cache K V τ) (f : Stats → Stats) : Cache K V τ :=
  if cache.recordsStats then { cache with stats := f cache.stats } else cache

def logged (cache : Cache K V τ) (event : LogEvent) : Cache K V τ :=
  { cache with log := cache.log ++ [event] }

def modifyLoad (cache : Cache K V τ) (flight : Flight) (f : Load K V → Load K V) : Cache K V τ :=
  { cache with
    shards := cache.shards.modify flight.segment fun shard =>
      { shard with segment := shard.segment.modifyLoad flight.load f } }

def readClock [Clock τ] (cache : Cache K V τ) : Nat × Cache K V τ :=
  let (now, clock) := Clock.read cache.clock
  (now, { cache with clock })

/-- Takes over what a segment reports. Evictions count even if nobody listens. -/
def collect (cache : Cache K V τ) (removals : List (Removal K V)) (growths : List (Nat × Nat)) :
    Cache K V τ :=
  let evictions := removals.countP (·.cause.wasEvicted)
  { cache with
    undelivered := if cache.listens then cache.undelivered ++ removals else cache.undelivered
    log := cache.log ++ growths.map fun (before, after) => LogEvent.tableGrown before after
  }.count (·.countEvictions evictions)

def onSegment {α : Type} (cache : Cache K V τ) (index : Nat) (otherwise : α)
    (f : Segment K V → α × Segment K V) : α × Cache K V τ :=
  match cache.shards[index]? with
  | none => (otherwise, cache)
  | some shard =>
      let (result, segment) := f shard.segment
      let cache := cache.collect segment.removals segment.growths
      (result, { cache with
        shards := cache.shards.setIfInBounds index
          { shard with
            segment := { segment with removals := [], growths := [] }
            published := segment.count } })

def changeSegment (cache : Cache K V τ) (index : Nat) (f : Segment K V → Segment K V) : Cache K V τ :=
  (cache.onSegment index () fun segment => ((), f segment)).2

def callsOf (cache : Cache K V τ) (thread : ThreadId) : List (Call K V) :=
  (cache.calls[thread]?).getD []

def setCalls (cache : Cache K V τ) (thread : ThreadId) (calls : List (Call K V)) : Cache K V τ :=
  { cache with calls := (cache.calls.rightpad (thread + 1) []).setIfInBounds thread calls }

end Cache
end SegmentedCache
