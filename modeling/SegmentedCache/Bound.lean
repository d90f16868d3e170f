namespace SegmentedCache

/-!
The bound of a cache, dealt out to its segments.
-/

structure Bound where
  limit : Option Nat := none
deriving DecidableEq

namespace Bound

/-- The share of segment `index` when `total` is split over `segments`: all get the same, and the first ones get
one more until nothing is left. -/
def share (total : Option Nat) (segments index : Nat) : Bound where
  limit := total.map fun total => total / segments + if index < total % segments then 1 else 0

def isBounded (bound : Bound) : Bool :=
  bound.limit.isSome

def isExceededBy (bound : Bound) (weight : Nat) : Bool :=
  bound.limit.any (· < weight)

end Bound
end SegmentedCache
