namespace SegmentedCache

structure Stats where
  hits : UInt64 := 0
  misses : UInt64 := 0
  loadSuccesses : UInt64 := 0
  loadFailures : UInt64 := 0
  /-- The time spent in all loads, in nanoseconds. -/
  totalLoadTime : UInt64 := 0
  evictions : UInt64 := 0
deriving DecidableEq

namespace Stats

def saturatingAdd (a b : UInt64) : UInt64 :=
  if a.toNat + b.toNat < UInt64.size then a + b else UInt64.ofNat (UInt64.size - 1)

def saturatingSub (a b : UInt64) : UInt64 :=
  if b ≤ a then a - b else 0

def requests (stats : Stats) : UInt64 :=
  saturatingAdd stats.hits stats.misses

def loads (stats : Stats) : UInt64 :=
  saturatingAdd stats.loadSuccesses stats.loadFailures

def ratio (part whole : UInt64) (whenEmpty : Float) : Float :=
  if whole = 0 then whenEmpty else part.toFloat / whole.toFloat

def hitRate (stats : Stats) : Float :=
  ratio stats.hits stats.requests 1.0

def missRate (stats : Stats) : Float :=
  ratio stats.misses stats.requests 0.0

def loadFailureRate (stats : Stats) : Float :=
  ratio stats.loadFailures stats.loads 0.0

def meanLoadTime (stats : Stats) : Float :=
  ratio stats.totalLoadTime stats.loads 0.0

def zipWith (f : UInt64 → UInt64 → UInt64) (a b : Stats) : Stats where
  hits := f a.hits b.hits
  misses := f a.misses b.misses
  loadSuccesses := f a.loadSuccesses b.loadSuccesses
  loadFailures := f a.loadFailures b.loadFailures
  totalLoadTime := f a.totalLoadTime b.totalLoadTime
  evictions := f a.evictions b.evictions

def plus : Stats → Stats → Stats :=
  zipWith saturatingAdd

def minus : Stats → Stats → Stats :=
  zipWith saturatingSub

def countHit (stats : Stats) : Stats :=
  { stats with hits := stats.hits + 1 }

def countMiss (stats : Stats) : Stats :=
  { stats with misses := stats.misses + 1 }

def countLoad (nanos : Nat) (stats : Stats) : Stats :=
  { stats with
    loadSuccesses := stats.loadSuccesses + 1
    totalLoadTime := stats.totalLoadTime + UInt64.ofNat nanos }

def countLoadFailure (nanos : Nat) (stats : Stats) : Stats :=
  { stats with
    loadFailures := stats.loadFailures + 1
    totalLoadTime := stats.totalLoadTime + UInt64.ofNat nanos }

def countEvictions (count : Nat) (stats : Stats) : Stats :=
  { stats with evictions := stats.evictions + UInt64.ofNat count }

end Stats
end SegmentedCache
