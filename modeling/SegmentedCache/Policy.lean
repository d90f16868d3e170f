import SegmentedCache.Entry
import SegmentedCache.Lifetime

namespace SegmentedCache

/-!
The rules that all segments of one cache share, and what they say of an entry. Whether an entry can be read
depends on the time and on which objects can still be reached.
-/

structure Policy (K V : Type) where
  lifetime : Lifetime := {}
  keyStrength : Strength := .strong
  valueStrength : Strength := .strong
  weigher : Option (K → V → Nat) := none
  refreshAfter : Option Nat := none
  tracksReads : Bool := false

namespace Policy

variable {K V : Type}

def weigh (policy : Policy K V) (key : K) (value : V) : Nat :=
  match policy.weigher with
  | some weigher => weigher key value
  | none => 1

def isStrong (policy : Policy K V) : Bool :=
  policy.keyStrength = .strong && policy.valueStrength = .strong

def reclaims (policy : Policy K V) : Bool :=
  policy.keyStrength = .weak || policy.valueStrength = .weak

def key? (policy : Policy K V) (reach : Reach) (entry : Entry K V) : Option (Shared K) :=
  if policy.keyStrength.reaches reach entry.key then some entry.key else none

def value? (policy : Policy K V) (reach : Reach) (entry : Entry K V) : Option (Shared V) :=
  entry.visible?.filter (policy.valueStrength.reaches reach)

def isLost (policy : Policy K V) (reach : Reach) (entry : Entry K V) : Bool :=
  match entry.visible? with
  | none => false
  | some value =>
      !policy.keyStrength.reaches reach entry.key || !policy.valueStrength.reaches reach value

def isExpired (policy : Policy K V) (now : Nat) (entry : Entry K V) : Bool :=
  policy.lifetime.isOver now entry.written entry.accessed

def stale? (policy : Policy K V) (reach : Reach) (now : Nat) (entry : Entry K V) : Option Cause :=
  if entry.isReserved then none
  else if policy.isLost reach entry then some .collected
  else if policy.isExpired now entry then some .expired
  else none

def wantsRefresh (policy : Policy K V) (now : Nat) (entry : Entry K V) : Bool :=
  entry.isReady && policy.refreshAfter.any (· < now - entry.written)

/-- Whether the entry stands for `key`. A reclaimed key stands for nothing. -/
def standsFor [DecidableEq K] (policy : Policy K V) (reach : Reach) (hash : UInt64) (key : K)
    (entry : Entry K V) : Bool :=
  entry.hash = hash && policy.keyStrength.reaches reach entry.key && entry.key.data = key

end Policy
end SegmentedCache
