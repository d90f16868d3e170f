namespace SegmentedCache.Sizing

/-!
How a cache is split into segments, and how long their tables are at first.
-/

def maxExponent : Nat := 16

def longestTable : Nat := 1 <<< 30

def splits (concurrency : Nat) (bound : Option Nat) (count : Nat) : Bool :=
  count < min concurrency (1 <<< maxExponent) && bound.all (count * 20 ≤ ·)

def segments (concurrency : Nat) (bound : Option Nat) : Nat :=
  1 <<< ((List.range maxExponent).find? fun e => !splits concurrency bound (1 <<< e)).getD maxExponent

/-- A power of two that holds one segment's share of the initial capacity. A bound on the number of entries cuts
the capacity off. -/
def tableLength (initialCapacity segments : Nat) (bound : Option Nat) (weighted : Bool) : Nat :=
  let capacity := min initialCapacity longestTable
  let capacity := match bound with
    | some bound => if weighted then capacity else min capacity bound
    | none => capacity
  (max ((capacity + segments - 1) / segments) 1).nextPowerOfTwo

def hashShift (segments : Nat) : Nat :=
  64 - segments.log2

def segmentAt (shift : Nat) (hash : UInt64) : Nat :=
  hash.toNat >>> shift

end SegmentedCache.Sizing
