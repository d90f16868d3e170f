import SegmentedCache.Segment.Basic

namespace SegmentedCache.Segment

/-!
How an entry comes into a segment, how it leaves, and how its uses are counted. Coming and leaving keep the table,
the arena and both queues in step.
-/

variable {K V : Type}

def rechain (table : Array (Option Handle)) (arena : Arena (Threaded (Entry K V))) (handle : Handle)
    (hash : UInt64) : Array (Option Handle) × Arena (Threaded (Entry K V)) :=
  let bucket := bucketOf table.size hash
  let next := (table[bucket]?).join
  (table.setIfInBounds bucket (some handle),
    arena.modify handle fun threaded => { threaded with item := threaded.item.setNext next })

/-- Doubles the table, up to its greatest length, and chains every entry anew in the order of the slots. -/
def growTable (s : Segment K V) : Segment K V :=
  let length := s.table.size
  if length ≥ Sizing.longestTable then s
  else
    let (table, arena) := s.stored.foldl
      (fun (table, arena) (handle, entry) => rechain table arena handle entry.hash)
      (Array.replicate (2 * length) none, s.arena)
    { s with
      table
      arena
      fillLimit := fillLimitOf (2 * length)
      growths := s.growths ++ [(length, 2 * length)] }

def attach (s : Segment K V) (key : Shared K) (hash : UInt64) (content : Content V) (weight now : Nat) :
    Handle × Segment K V :=
  let s := if s.arena.size + 1 > s.fillLimit then s.growTable else s
  let bucket := s.bucket hash
  let next := s.first? bucket
  let (handle, arena) := s.arena.insert
    { item := { key, hash, content, weight, written := now, accessed := now, next } }
  (handle, { s with arena, table := s.table.setIfInBounds bucket (some handle) }.noteChange)

def enroll (s : Segment K V) (handle : Handle) : Segment K V :=
  let s := (s.push .write handle).push .access handle
  match s.entry? handle with
  | none => s.fail .staleHandle
  | some entry => { s with count := s.count + 1, weight := s.weight + entry.weight }

def reweigh (s : Segment K V) (old new : Nat) : Segment K V :=
  let s := if s.weight < old then s.fail .miscounted else s
  { s with weight := s.weight - old + new }

def rejuvenate (s : Segment K V) (handle : Handle) : Segment K V :=
  (s.moveToEnd .write handle).moveToEnd .access handle

def unchain (s : Segment K V) (handle : Handle) (entry : Entry K V) : Segment K V :=
  let bucket := s.bucket entry.hash
  if s.first? bucket = some handle then
    { s with table := s.table.setIfInBounds bucket entry.next }
  else
    match (s.chain bucket).find? fun before => (s.entry? before).any (·.next = some handle) with
    | some before => s.modifyEntry before (·.setNext entry.next)
    | none => s.fail .missingFromChain

def discount (s : Segment K V) (reach : Reach) (entry : Entry K V) (cause : Cause) : Segment K V :=
  match entry.visible? with
  | none => s
  | some value =>
      let s := if s.count = 0 ∨ s.weight < entry.weight then s.fail .miscounted else s
      { s with count := s.count - 1, weight := s.weight - entry.weight }.report
        { key := ⟨entry.key, s.policy.keyStrength.reaches reach entry.key⟩
          value := ⟨value, s.policy.valueStrength.reaches reach value⟩
          cause }

/-- Removes an entry. A load on its way to the entry learns the cause, and reports its own value when it ends. -/
def discard (s : Segment K V) (reach : Reach) (handle : Handle) (cause : Cause) : Segment K V :=
  match s.entry? handle with
  | none => s.fail .staleHandle
  | some entry =>
      let s := ((s.unchain handle entry).dequeue .access handle).dequeue .write handle
      let s := { s with arena := (s.arena.remove handle).2 }.noteChange
      (s.displace entry.load? cause).discount reach entry cause

def trueCause (s : Segment K V) (reach : Reach) (handle : Handle) (cause : Cause) : Cause :=
  if (s.entry? handle).any (s.policy.isLost reach) then .collected else cause

/-- Brings `byAccess` up to date with the reads noted since the last time. Entries that left in the meantime are
passed over. -/
def replayReads (s : Segment K V) : Segment K V :=
  s.readLog.foldl
    (fun s handle => if s.arena.contains handle then s.moveToEnd .access handle else s)
    { s with readLog := #[] }

/-- Counts a use of an entry by a writer, who moves it at once. -/
def use (s : Segment K V) (handle : Handle) (now : Nat) : Segment K V :=
  if s.policy.tracksReads then (s.modifyEntry handle (·.touch now)).moveToEnd .access handle else s

def noteRead (s : Segment K V) (handle : Handle) (now : Nat) : Segment K V :=
  if s.policy.tracksReads then
    let s := s.modifyEntry handle (·.touch now)
    if s.readLog.size < readLogLimit then { s with readLog := s.readLog.push handle } else s
  else s

end SegmentedCache.Segment
