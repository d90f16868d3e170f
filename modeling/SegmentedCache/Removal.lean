import SegmentedCache.Shared
import SegmentedCache.Text.Shown

namespace SegmentedCache

/-!
Removals: an entry, or a loaded value that found its entry gone, with the cause. They are kept as they were at the
moment of the removal, and told to a listener later.
-/

inductive Cause where
  | explicit
  | replaced
  | collected
  | expired
  | size
deriving DecidableEq

namespace Cause

def wasEvicted : Cause → Bool
  | collected | expired | size => true
  | explicit | replaced => false

def name : Cause → String
  | explicit => "Explicit"
  | replaced => "Replaced"
  | collected => "Collected"
  | expired => "Expired"
  | size => "Size"

end Cause

/-- One component of an entry that left the cache, and whether it could still be handed out at that moment. -/
structure Reported (α : Type) where
  object : Shared α
  reachable : Bool := true
deriving DecidableEq

def Reported.get? {α : Type} (reported : Reported α) : Option (Shared α) :=
  if reported.reachable then some reported.object else none

structure Removal (K V : Type) where
  key : Reported K
  value : Reported V
  cause : Cause
deriving DecidableEq

/-- What a listener is told: components that were reclaimed are missing. -/
structure Notice (K V : Type) where
  key : Option (Shared K)
  value : Option (Shared V)
  cause : Cause

namespace Removal

variable {K V : Type}

def notice (removal : Removal K V) : Notice K V :=
  ⟨removal.key.get?, removal.value.get?, removal.cause⟩

def objects (removal : Removal K V) : List ObjectId :=
  (removal.key.get?.map Shared.id).toList ++ (removal.value.get?.map Shared.id).toList

end Removal

namespace Notice

variable {K V : Type}

def objects (notice : Notice K V) : List ObjectId :=
  (notice.key.map Shared.id).toList ++ (notice.value.map Shared.id).toList

def wasEvicted (notice : Notice K V) : Bool :=
  notice.cause.wasEvicted

def shown (showKey : K → Text.Shown) (showValue : V → Text.Shown) (notice : Notice K V) : Text.Shown :=
  .record "RemovalNotification"
    [("key", .optional (notice.key.map fun key => showKey key.data)),
     ("value", .optional (notice.value.map fun value => showValue value.data)),
     ("cause", .atom notice.cause.name)]

end Notice
end SegmentedCache
