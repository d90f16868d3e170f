import SegmentedCache.Segment.Sweep

namespace SegmentedCache.Segment

/-!
Writing to a segment: storing values, and removing entries one by one or all at once.
-/

variable {K V : Type} [DecidableEq K]

def insertNew (s : Segment K V) (reach : Reach) (now : Nat) (key : Shared K) (hash : UInt64)
    (value : Shared V) (weight : Nat) : Segment K V :=
  let (handle, s) := s.attach key hash (.ready value) weight now
  (s.enroll handle).evict reach (some handle)

def fillReserved (s : Segment K V) (reach : Reach) (now : Nat) (value : Shared V) (weight : Nat)
    (handle : Handle) (entry : Entry K V) : Segment K V :=
  let s := s.displace entry.load? .replaced
  let s := (s.modifyEntry handle (·.store value weight now)).enroll handle
  s.noteChange.evict reach (some handle)

def overwrite (s : Segment K V) (reach : Reach) (now : Nat) (key : Shared K) (value : Shared V) (weight : Nat)
    (handle : Handle) (entry : Entry K V) (old : Shared V) : Segment K V :=
  let s := (s.displace entry.load? .replaced).report
    { key := ⟨key, true⟩, value := ⟨old, s.policy.valueStrength.reaches reach old⟩, cause := .replaced }
  let s := (s.modifyEntry handle (·.store value weight now)).reweigh entry.weight weight
  (s.rejuvenate handle).noteChange.evict reach (some handle)

/-- Stores a value, and gives the live value that the key had before. With `onlyIfNew` such a value stays. -/
def insert (s : Segment K V) (reach : Reach) (now : Nat) (key : Shared K) (hash : UInt64) (value : Shared V)
    (onlyIfNew : Bool) : Option (Shared V) × Segment K V :=
  let s := s.prepare reach now
  let weight := s.policy.weigh key.data value.data
  match s.find? reach hash key.data with
  | none => (none, s.insertNew reach now key hash value weight)
  | some (handle, entry) =>
      match s.policy.stale? reach now entry, entry.visible? with
      | some cause, _ =>
          (none, (s.discard reach handle cause).insertNew reach now key hash value weight)
      | none, none => (none, s.fillReserved reach now value weight handle entry)
      | none, some old =>
          if onlyIfNew then (some old, s.use handle now)
          else (some old, s.overwrite reach now key value weight handle entry old)

def remove (s : Segment K V) (reach : Reach) (now : Nat) (hash : UInt64) (key : K) :
    Option (Shared V) × Segment K V :=
  let s := s.prepare reach now
  match s.find? reach hash key with
  | none => (none, s)
  | some (handle, entry) =>
      if s.policy.isLost reach entry then (none, s.discard reach handle .collected)
      else (s.policy.value? reach entry, s.discard reach handle .explicit)

def clear (s : Segment K V) (reach : Reach) : Segment K V :=
  if s.arena.isEmpty then s
  else
    let s := s.arena.handles.foldl
      (fun s handle => s.discard reach handle (s.trueCause reach handle .explicit)) s
    { s with readLog := #[] }

def releaseSoft (s : Segment K V) (reach : Reach) : Segment K V :=
  if s.policy.valueStrength = .soft then
    let released := (s.stored.filter fun entry => !entry.2.isReserved).map (·.1)
    released.foldl (fun s handle => s.discard reach handle .collected) s
  else s

end SegmentedCache.Segment
