import SegmentedCache.Segment.Sweep

namespace SegmentedCache

inductive Claim (V : Type) where
  | granted (load : LoadId)
  | taken (load : LoadId)
  | needless (value : Shared V)

namespace Segment

/-!
Loads. A load starts when its caller claims the key, or the refresh of a value, and ends when it is told to have
given a value or none. Whatever happened to its entry in between, it only ever changes an entry that it is still
on its way to.
-/

variable {K V : Type} [DecidableEq K]

def issue (s : Segment K V) (thread : ThreadId) (key : Shared K) : LoadId × Segment K V :=
  (s.loads.size, { s with loads := s.loads.push { key, owner := some thread } })

def grant (s : Segment K V) (now : Nat) (thread : ThreadId) (key : Shared K) (hash : UInt64) :
    Claim V × Segment K V :=
  let (load, s) := s.issue thread key
  (.granted load, (s.attach key hash (.loading load none) 0 now).2)

/-- Claims a key for loading, or finds who has it already. A stale value that is being refreshed is worth waiting
for. -/
def claim (s : Segment K V) (reach : Reach) (now : Nat) (thread : ThreadId) (key : Shared K)
    (hash : UInt64) : Claim V × Segment K V :=
  let s := s.prepare reach now
  match s.find? reach hash key.data with
  | none => s.grant now thread key hash
  | some (handle, entry) =>
      match s.policy.stale? reach now entry, entry.content with
      | none, .loading load none => (.taken load, s)
      | none, _ =>
          match s.policy.value? reach entry with
          | some value => (.needless value, s.use handle now)
          | none => (s.discard reach handle .collected).grant now thread key hash
      | some _, .loading load _ => (.taken load, s)
      | some cause, .ready _ => (s.discard reach handle cause).grant now thread key hash

/-- Starts the refresh of a live entry that no load is on its way to: when the entry wants it, or in any case if
`force` is set. Gives the load and the value that readers keep seeing. -/
def claimRefresh (s : Segment K V) (reach : Reach) (now : Nat) (thread : ThreadId) (key : Shared K)
    (hash : UInt64) (force : Bool) : Option (LoadId × Shared V) × Segment K V :=
  match s.find? reach hash key.data with
  | none => (none, s)
  | some (handle, entry) =>
      match entry.content with
      | .loading _ _ => (none, s)
      | .ready value =>
          if (s.policy.stale? reach now entry).isSome || !(force || s.policy.wantsRefresh now entry) then
            (none, s)
          else
            let (load, s) := s.issue thread key
            (some (load, value), s.modifyEntry handle (·.setContent (.loading load (some value))))

def storeLoaded (s : Segment K V) (reach : Reach) (now : Nat) (key : Shared K) (value : Shared V)
    (handle : Handle) (entry : Entry K V) : Segment K V :=
  let weight := s.policy.weigh key.data value.data
  let s := s.modifyEntry handle (·.store value weight now)
  let s := match entry.visible? with
    | none => s.enroll handle
    | some old =>
        ((s.reweigh entry.weight weight).rejuvenate handle).report
          { key := ⟨key, true⟩, value := ⟨old, s.policy.valueStrength.reaches reach old⟩, cause := .replaced }
  s.noteChange.evict reach (some handle)

def giveUp (s : Segment K V) (reach : Reach) (handle : Handle) (entry : Entry K V) : Segment K V :=
  match entry.visible? with
  | some old => s.modifyEntry handle (·.setContent (.ready old))
  | none => s.discard reach handle .explicit

/-- Ends a load, with the value it gave or without one. If its entry is gone or was overwritten, the value is only
reported, with the cause of that. -/
def finishLoad (s : Segment K V) (reach : Reach) (now : Nat) (key : Shared K) (hash : UInt64)
    (load : LoadId) (loaded : Option (Shared V)) : Segment K V :=
  let s := s.prepare reach now
  match (s.find? reach hash key.data).filter (fun entry => entry.2.load? = some load), loaded with
  | some (handle, entry), some value => s.storeLoaded reach now key value handle entry
  | some (handle, entry), none => s.giveUp reach handle entry
  | none, some value =>
      let cause := ((s.loads[load]?).bind (·.displaced)).getD .explicit
      s.report { key := ⟨key, true⟩, value := ⟨value, true⟩, cause }
  | none, none => s

end Segment
end SegmentedCache
