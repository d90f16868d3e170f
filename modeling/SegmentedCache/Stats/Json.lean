import SegmentedCache.Stats
import SegmentedCache.Text.Json

namespace SegmentedCache.Stats

open Text.Json

/-!
Statistics as JSON. They are written as an object with the six counts in a fixed order, without blanks. They are
read from an object that has each count once, among any other members, or from an array of the six in order.
-/

structure Field where
  name : String
  get : Stats → UInt64
  set : UInt64 → Stats → Stats

def fields : List Field :=
  [⟨"hit_count", hits, fun n stats => { stats with hits := n }⟩,
   ⟨"miss_count", misses, fun n stats => { stats with misses := n }⟩,
   ⟨"load_success_count", loadSuccesses, fun n stats => { stats with loadSuccesses := n }⟩,
   ⟨"load_exception_count", loadFailures, fun n stats => { stats with loadFailures := n }⟩,
   ⟨"total_load_time", totalLoadTime, fun n stats => { stats with totalLoadTime := n }⟩,
   ⟨"eviction_count", evictions, fun n stats => { stats with evictions := n }⟩]

def toJson (stats : Stats) : String :=
  "\x7b"
    ++ ",".intercalate (fields.map fun field => "\"" ++ field.name ++ "\":" ++ toString (field.get stats).toNat)
    ++ "\x7d"

def readCount (cs : List Char) : Option (UInt64 × List Char) := do
  let (n, rest) ← readNat (skipBlanks cs)
  if n < UInt64.size then return (UInt64.ofNat n, rest) else failure

/-- What is read so far: the counts, and the names of those that are still missing. -/
structure Partly where
  stats : Stats := {}
  missing : List String := fields.map (·.name)

def readMember (partly : Partly) (name : String) (cs : List Char) : Option (Partly × List Char) :=
  match fields.find? (·.name == name) with
  | none => (skipValue (cs.length + 1) cs).map fun rest => (partly, rest)
  | some field =>
      if partly.missing.contains name then do
        let (n, rest) ← readCount cs
        return (⟨field.set n partly.stats, partly.missing.erase name⟩, rest)
      else none

def readMembers : Nat → Partly → List Char → Option (Partly × List Char)
  | 0, _, _ => none
  | steps + 1, partly, cs => do
      let (name, rest) ← readString (skipBlanks cs)
      match skipBlanks rest with
      | ':' :: rest =>
          let (partly, rest) ← readMember partly name rest
          match skipBlanks rest with
          | ',' :: rest => readMembers steps partly rest
          | '}' :: rest => some (partly, rest)
          | _ => none
      | _ => none

def readItems (stats : Stats) : List Field → List Char → Option (Stats × List Char)
  | [], _ => none
  | [field], cs => do
      let (n, rest) ← readCount cs
      match skipBlanks rest with
      | ']' :: rest => some (field.set n stats, rest)
      | _ => none
  | field :: fields, cs => do
      let (n, rest) ← readCount cs
      match skipBlanks rest with
      | ',' :: rest => readItems (field.set n stats) fields rest
      | _ => none

def ofJson? (text : String) : Option Stats := do
  let (stats, rest) ← match skipBlanks text.toList with
    | '\x7b' :: rest => do
        let (partly, rest) ← readMembers (rest.length + 1) {} rest
        if partly.missing.isEmpty then some (partly.stats, rest) else none
    | '[' :: rest => readItems {} fields rest
    | _ => none
  if (skipBlanks rest).isEmpty then some stats else none

end SegmentedCache.Stats
