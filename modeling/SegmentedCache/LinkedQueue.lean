import SegmentedCache.Arena

namespace SegmentedCache

/-!
Doubly linked lists threaded through the occupants of an arena. Every occupant has one link per ranking, so that
it can stand in two lists at once. An operation gives `none` when it would have to follow a link that leads
nowhere.
-/

inductive Ranking where
  | access
  | write
deriving DecidableEq

structure Link where
  before : Option Handle := none
  after : Option Handle := none
  member : Bool := false
deriving DecidableEq

structure Threaded (α : Type) where
  item : α
  access : Link := {}
  write : Link := {}

namespace Threaded

variable {α : Type}

def link (threaded : Threaded α) : Ranking → Link
  | .access => threaded.access
  | .write => threaded.write

def setLink (ranking : Ranking) (link : Link) (threaded : Threaded α) : Threaded α :=
  match ranking with
  | .access => { threaded with access := link }
  | .write => { threaded with write := link }

def setBefore (ranking : Ranking) (before : Option Handle) (threaded : Threaded α) : Threaded α :=
  threaded.setLink ranking { threaded.link ranking with before }

def setAfter (ranking : Ranking) (after : Option Handle) (threaded : Threaded α) : Threaded α :=
  threaded.setLink ranking { threaded.link ranking with after }

end Threaded

structure LinkedQueue where
  ranking : Ranking
  head : Option Handle := none
  tail : Option Handle := none
  length : Nat := 0

namespace LinkedQueue

variable {α : Type}

def relink (arena : Arena (Threaded α)) (neighbour : Option Handle) (f : Threaded α → Threaded α) :
    Option (Arena (Threaded α)) :=
  match neighbour with
  | none => some arena
  | some handle => if arena.contains handle then some (arena.modify handle f) else none

def push (queue : LinkedQueue) (arena : Arena (Threaded α)) (handle : Handle) :
    Option (LinkedQueue × Arena (Threaded α)) := do
  let threaded ← arena.get? handle
  if (threaded.link queue.ranking).member then
    failure
  let arena := arena.modify handle (·.setLink queue.ranking ⟨queue.tail, none, true⟩)
  let arena ← relink arena queue.tail (·.setAfter queue.ranking (some handle))
  return ({ queue with
      head := if queue.tail.isNone then some handle else queue.head
      tail := some handle
      length := queue.length + 1 },
    arena)

def erase (queue : LinkedQueue) (arena : Arena (Threaded α)) (handle : Handle) :
    Option (Bool × LinkedQueue × Arena (Threaded α)) := do
  let link := (← arena.get? handle).link queue.ranking
  if !link.member then
    return (false, queue, arena)
  let arena ← relink arena link.before (·.setAfter queue.ranking link.after)
  let arena ← relink arena link.after (·.setBefore queue.ranking link.before)
  return (true,
    { queue with
      head := if link.before.isNone then link.after else queue.head
      tail := if link.after.isNone then link.before else queue.tail
      length := queue.length - 1 },
    arena.modify handle (·.setLink queue.ranking {}))

def moveToEnd (queue : LinkedQueue) (arena : Arena (Threaded α)) (handle : Handle) :
    Option (LinkedQueue × Arena (Threaded α)) := do
  if queue.tail = some handle then
    return (queue, arena)
  let (found, queue, arena) ← queue.erase arena handle
  if found then queue.push arena handle else return (queue, arena)

def walk (ranking : Ranking) (arena : Arena (Threaded α)) : Nat → Option Handle → List Handle
  | 0, _ => []
  | _, none => []
  | steps + 1, some start =>
      match arena.get? start with
      | none => []
      | some threaded => start :: walk ranking arena steps (threaded.link ranking).after

def toList (queue : LinkedQueue) (arena : Arena (Threaded α)) : List Handle :=
  walk queue.ranking arena arena.size queue.head

end LinkedQueue
end SegmentedCache
