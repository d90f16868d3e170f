import SegmentedCache.Bound
import SegmentedCache.LinkedQueue
import SegmentedCache.Policy
import SegmentedCache.Sizing

namespace SegmentedCache

/-!
One partition of a cache. Its entries live in an arena and are reached in three ways: through the chains of a hash
table, and through two queues that hold every counted entry, one in the order of the last access and one in the
order of the last write.
-/

/-- What can be found wrong inside a segment. None of these is an answer to a request: each means that the links
of the segment contradict each other. -/
inductive Fault where
  | staleHandle
  | missingFromChain
  | brokenQueue
  | miscounted
  | nothingToEvict
deriving DecidableEq

structure Segment (K V : Type) where
  policy : Policy K V
  bound : Bound
  table : Array (Option Handle)
  arena : Arena (Threaded (Entry K V)) := {}
  count : Nat := 0
  weight : Nat := 0
  fillLimit : Nat
  /-- How many entries came, went or were overwritten. -/
  changes : Nat := 0
  byAccess : LinkedQueue := { ranking := .access }
  byWrite : LinkedQueue := { ranking := .write }
  /-- Entries read since `byAccess` was last brought up to date. -/
  readLog : Array Handle := #[]
  loads : Array (Load K V) := #[]
  removals : List (Removal K V) := []
  growths : List (Nat × Nat) := []
  fault : Option Fault := none

namespace Segment

/-- Reads noted beyond this many are forgotten. -/
def readLogLimit : Nat := 1 <<< 12

def fillLimitOf (length : Nat) : Nat :=
  length * 3 / 4

variable {K V : Type}

def create (policy : Policy K V) (bound : Bound) (length : Nat) : Segment K V where
  policy
  bound
  table := Array.replicate length none
  fillLimit := fillLimitOf length

def fail (s : Segment K V) (fault : Fault) : Segment K V :=
  { s with fault := s.fault.or (some fault) }

def bucketOf (length : Nat) (hash : UInt64) : Nat :=
  hash.toNat % length

def bucket (s : Segment K V) (hash : UInt64) : Nat :=
  bucketOf s.table.size hash

def first? (s : Segment K V) (bucket : Nat) : Option Handle :=
  (s.table[bucket]?).join

def entry? (s : Segment K V) (handle : Handle) : Option (Entry K V) :=
  (s.arena.get? handle).map (·.item)

def stored (s : Segment K V) : List (Handle × Entry K V) :=
  s.arena.toList.map fun occupant => (occupant.1, occupant.2.item)

def modifyEntry (s : Segment K V) (handle : Handle) (f : Entry K V → Entry K V) : Segment K V :=
  { s with arena := s.arena.modify handle fun threaded => { threaded with item := f threaded.item } }

def chainFrom (arena : Arena (Threaded (Entry K V))) : Nat → Option Handle → List Handle
  | 0, _ => []
  | _, none => []
  | steps + 1, some start =>
      match arena.get? start with
      | none => []
      | some threaded => start :: chainFrom arena steps threaded.item.next

def chain (s : Segment K V) (bucket : Nat) : List Handle :=
  chainFrom s.arena s.arena.size (s.first? bucket)

def find? [DecidableEq K] (s : Segment K V) (reach : Reach) (hash : UInt64) (key : K) :
    Option (Handle × Entry K V) :=
  (s.chain (s.bucket hash)).findSome? fun handle =>
    ((s.entry? handle).filter (s.policy.standsFor reach hash key)).map fun entry => (handle, entry)

def queue (s : Segment K V) : Ranking → LinkedQueue
  | .access => s.byAccess
  | .write => s.byWrite

def setQueue (s : Segment K V) (queue : LinkedQueue) : Segment K V :=
  match queue.ranking with
  | .access => { s with byAccess := queue }
  | .write => { s with byWrite := queue }

def ordered (s : Segment K V) (ranking : Ranking) : List Handle :=
  (s.queue ranking).toList s.arena

def requeue (s : Segment K V) (result : Option (LinkedQueue × Arena (Threaded (Entry K V)))) : Segment K V :=
  match result with
  | none => s.fail .brokenQueue
  | some (queue, arena) => { s with arena }.setQueue queue

def push (s : Segment K V) (ranking : Ranking) (handle : Handle) : Segment K V :=
  s.requeue ((s.queue ranking).push s.arena handle)

def moveToEnd (s : Segment K V) (ranking : Ranking) (handle : Handle) : Segment K V :=
  s.requeue ((s.queue ranking).moveToEnd s.arena handle)

def dequeue (s : Segment K V) (ranking : Ranking) (handle : Handle) : Segment K V :=
  s.requeue (((s.queue ranking).erase s.arena handle).map (·.2))

def modifyLoad (s : Segment K V) (load : LoadId) (f : Load K V → Load K V) : Segment K V :=
  { s with loads := s.loads.modify load f }

def displace (s : Segment K V) (load : Option LoadId) (cause : Cause) : Segment K V :=
  match load with
  | none => s
  | some load => s.modifyLoad load (Load.displace cause)

def report (s : Segment K V) (removal : Removal K V) : Segment K V :=
  { s with removals := s.removals ++ [removal] }

def noteChange (s : Segment K V) : Segment K V :=
  { s with changes := s.changes + 1 }

end Segment
end SegmentedCache
