import SegmentedCache.Segment.Links

namespace SegmentedCache

inductive Finding (V : Type) where
  | live (value : Shared V) (refresh : Bool)
  | pending (load : LoadId)
  | nothing

namespace Segment

/-!
Reading a segment. A reader removes nothing, not even what has expired: it passes over it.
-/

variable {K V : Type} [DecidableEq K]

def read (s : Segment K V) (reach : Reach) (now : Nat) (hash : UInt64) (key : K) :
    Finding V × Segment K V :=
  match s.find? reach hash key with
  | none => (.nothing, s)
  | some (handle, entry) =>
      match entry.content with
      | .loading load none => (.pending load, s)
      | _ =>
          match s.policy.stale? reach now entry, s.policy.value? reach entry with
          | none, some value => (.live value (s.policy.wantsRefresh now entry), s.noteRead handle now)
          | _, _ => (.nothing, s)

def contains (s : Segment K V) (reach : Reach) (now : Nat) (hash : UInt64) (key : K) : Bool :=
  (s.find? reach hash key).any fun (_, entry) =>
    !entry.isReserved && (s.policy.stale? reach now entry).isNone

def toList (s : Segment K V) (reach : Reach) (now : Nat) : List (Shared K × Shared V) :=
  s.stored.filterMap fun (_, entry) => do
    guard (s.policy.stale? reach now entry).isNone
    return (← s.policy.key? reach entry, ← s.policy.value? reach entry)

end Segment
end SegmentedCache
