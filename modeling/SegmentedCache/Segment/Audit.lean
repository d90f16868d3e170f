import SegmentedCache.Segment.Basic

namespace SegmentedCache.Segment

/-!
Checking a segment: its sums and lengths are counted again from the entries.
-/

variable {K V : Type}

def counted (s : Segment K V) : List (Entry K V) :=
  (s.stored.map (·.2)).filter (!·.isReserved)

def chained (s : Segment K V) : Nat :=
  ((List.range s.table.size).map fun bucket => (s.chain bucket).length).foldl (· + ·) 0

def isConsistent (s : Segment K V) : Bool :=
  s.counted.length == s.count && (s.counted.map (·.weight)).foldl (· + ·) 0 == s.weight
    && s.byAccess.length == s.count && s.byWrite.length == s.count
    && s.chained == s.arena.size && s.fault.isNone

end SegmentedCache.Segment
