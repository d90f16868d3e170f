import SegmentedCache.Arena
import SegmentedCache.Load

namespace SegmentedCache

/-!
Entries: a key with what it holds, when that was written and used, and what it weighs.
-/

inductive Content (V : Type) where
  | ready (value : Shared V)
  /-- A load is on its way. With an old value the entry is being refreshed and readers keep seeing that value.
  Without one the entry only reserves a place: it counts for nothing, and readers join the load. -/
  | loading (load : LoadId) (old : Option (Shared V))

structure Entry (K V : Type) where
  key : Shared K
  hash : UInt64
  content : Content V
  weight : Nat
  written : Nat
  accessed : Nat
  next : Option Handle := none

namespace Entry

variable {K V : Type}

def isReserved (entry : Entry K V) : Bool :=
  match entry.content with
  | .loading _ none => true
  | _ => false

def isReady (entry : Entry K V) : Bool :=
  match entry.content with
  | .ready _ => true
  | .loading _ _ => false

def visible? (entry : Entry K V) : Option (Shared V) :=
  match entry.content with
  | .ready value => some value
  | .loading _ old => old

def load? (entry : Entry K V) : Option LoadId :=
  match entry.content with
  | .ready _ => none
  | .loading load _ => some load

def touch (now : Nat) (entry : Entry K V) : Entry K V :=
  { entry with accessed := now }

def store (value : Shared V) (weight now : Nat) (entry : Entry K V) : Entry K V :=
  { entry with content := .ready value, weight, written := now, accessed := now }

def setContent (content : Content V) (entry : Entry K V) : Entry K V :=
  { entry with content }

def setNext (next : Option Handle) (entry : Entry K V) : Entry K V :=
  { entry with next }

end Entry
end SegmentedCache
