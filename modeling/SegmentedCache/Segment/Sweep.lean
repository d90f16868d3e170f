import SegmentedCache.Segment.Links

namespace SegmentedCache.Segment

/-!
What a segment removes of its own accord: entries that are too old, entries whose key or value was reclaimed, and
the oldest entries when the bound is exceeded.
-/

variable {K V : Type}

def expireFrom (reach : Reach) (now : Nat) (ranking : Ranking) : Nat → Segment K V → Segment K V
  | 0, s => s
  | steps + 1, s =>
      match (s.queue ranking).head with
      | none => s
      | some handle =>
          match s.entry? handle with
          | none => s.fail .staleHandle
          | some entry =>
              if s.policy.isExpired now entry then
                expireFrom reach now ranking steps
                  (s.discard reach handle (s.trueCause reach handle .expired))
              else s

/-- Removes what has expired: first in the order of writes, then in the order of accesses. -/
def expire (s : Segment K V) (reach : Reach) (now : Nat) : Segment K V :=
  if s.policy.lifetime.isLimited then
    let s := s.replayReads
    let s := expireFrom reach now .write s.byWrite.length s
    expireFrom reach now .access s.byAccess.length s
  else s

def reclaim (s : Segment K V) (reach : Reach) : Segment K V :=
  if s.policy.isStrong then s
  else
    let lost := (s.stored.filter fun entry => s.policy.isLost reach entry.2).map (·.1)
    lost.foldl (fun s handle => s.discard reach handle .collected) s

/-- Where reads count, the entry to evict is the one least recently used, and otherwise the one written first. -/
def victimRanking (s : Segment K V) : Ranking :=
  if s.policy.tracksReads then .access else .write

def victim? (s : Segment K V) : Option Handle :=
  (s.ordered s.victimRanking).find? fun handle => (s.entry? handle).any (·.weight > 0)

def evictOldest (reach : Reach) : Nat → Segment K V → Segment K V
  | 0, s => if s.bound.isExceededBy s.weight then s.fail .nothingToEvict else s
  | steps + 1, s =>
      if s.bound.isExceededBy s.weight then
        match s.victim? with
        | none => s.fail .nothingToEvict
        | some handle => evictOldest reach steps (s.discard reach handle (s.trueCause reach handle .size))
      else s

def evictOversized (s : Segment K V) (reach : Reach) (newest : Option Handle) : Segment K V :=
  match newest with
  | none => s
  | some handle =>
      if (s.entry? handle).any fun entry => !entry.isReserved && s.bound.isExceededBy entry.weight then
        s.discard reach handle (s.trueCause reach handle .size)
      else s

/-- Brings the segment within its bound. An entry that exceeds the bound alone does not drive out the others. -/
def evict (s : Segment K V) (reach : Reach) (newest : Option Handle) : Segment K V :=
  if s.bound.isBounded then
    let s := s.replayReads.evictOversized reach newest
    evictOldest reach s.count s
  else s

def prepare (s : Segment K V) (reach : Reach) (now : Nat) : Segment K V :=
  (s.reclaim reach).expire reach now

def cleanUp (s : Segment K V) (reach : Reach) (now : Nat) : Segment K V :=
  ((s.replayReads.expire reach now).reclaim reach).evict reach none

end SegmentedCache.Segment
