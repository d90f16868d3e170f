import SegmentedCache.CacheError
import SegmentedCache.Removal

namespace SegmentedCache

/-!
A load in flight, as all see it who have to do with it: the thread that runs the loader, the callers that wait
for it, and the entry that it is to fill.
-/

abbrev ThreadId := Nat

abbrev LoadId := Nat

abbrev LoadOutcome (V : Type) := Except CacheError (Shared V)

structure Load (K V : Type) where
  key : Shared K
  /-- The thread that runs the loader. None while the load waits to be picked up by one. -/
  owner : Option ThreadId
  /-- Why the entry left its segment, or was overwritten, before the load ended. -/
  displaced : Option Cause := none
  outcome : Option (LoadOutcome V) := none

namespace Load

variable {K V : Type}

def displace (cause : Cause) (load : Load K V) : Load K V :=
  { load with displaced := load.displaced.or (some cause) }

def settle (outcome : LoadOutcome V) (load : Load K V) : Load K V :=
  { load with outcome := load.outcome.or (some outcome) }

def setOwner (owner : Option ThreadId) (load : Load K V) : Load K V :=
  { load with owner }

end Load
end SegmentedCache
