import SegmentedCache.Config
import SegmentedCache.Scenario.Hashing

namespace SegmentedCache.Scenario

/-!
Scenarios: a configuration, a loader and a listener that follow scripts, and the steps of a client. Keys are
texts and values are numbers of 64 bits.
-/

/-- A key or a value in a step: a new object, or the one that is held under a name. -/
inductive Named (α : Type) where
  | fresh (data : α)
  | held (name : String)

inductive Ending where
  | panic (message : String)
  | fail (texts : List String)
  | give (value : UInt64)
  /-- The old value, or zero, and this much more. -/
  | add (amount : UInt64)
  | length
  | nothing

mutual

inductive Step where
  | get (key : Named String) (loader : Outcome) (hold : Option String)
  | getWith (key : Named String) (value : Named UInt64) (hold : Option String)
  | lookup (key : String) (hold : Option String)
  | insert (key : Named String) (value : Named UInt64)
  | invalidate (key : String)
  | invalidateKeys (keys : List String)
  | invalidateAll
  | cleanUp
  | releaseSoft
  | stats
  | state
  | check
  | debug
  | put (key : Named String) (value : Named UInt64) (hold : Option String)
  | putIfNew (key : Named String) (value : Named UInt64) (hold : Option String)
  | contains (key : String)
  | remove (key : String) (hold : Option String)
  | viewLength
  | keys
  | values
  | entries
  | load (key : Named String) (hold : Option String)
  | loadAll (keys : List (Named String))
  | refresh (key : Named String)
  | advance (span : Span)
  | autoIncrement (span : Span)
  | holdKey (name : String) (key : Named String)
  | holdValue (name : String) (value : Named UInt64)
  | drop (name : String)
  | again (times : Nat) (step : Step)
  | fill (first count : Nat)
  | thread (steps : List Step)
  | waiter (name : String) (key : Named String) (loader : Outcome)
  | join (name : String)
  | runBackground
  | stopBackground
  | unknown (name : String)

inductive Outcome where
  | mk (steps : Option (List Step)) (ending : Ending)

end

namespace Outcome

def steps : Outcome → Option (List Step)
  | mk steps _ => steps

def ending : Outcome → Ending
  | mk _ ending => ending

end Outcome

/-- The outcomes of the calls of a loader: for some keys a list, of which the last repeats, and one for all the
other keys. -/
structure Script where
  default : Outcome
  keys : List (String × List Outcome)

def Script.outcome (script : Script) (key : String) (count : Nat) : Outcome :=
  match script.keys.lookup key with
  | none => script.default
  | some outcomes => (outcomes[count]?).getD (outcomes.getLastD script.default)

structure LoaderScript where
  load : Script
  reload : Option Script

inductive PanicPayload where
  | text
  | fixed
  | other

inductive Listener where
  | recording (steps : List (String × List Step)) (panics : List (String × PanicPayload))
  | queuing
  | counting

inductive Weigher where
  | value
  | keyLength
  | sum
  | const (weight : Nat)

def Weigher.weigh : Weigher → String → UInt64 → Nat
  | value, _, number => number.toNat
  | keyLength, key, _ => key.utf8ByteSize
  | sum, key, number => min (key.utf8ByteSize + number.toNat) (UInt64.size - 1)
  | const weight, _, _ => weight

inductive Choice where
  | setting (setting : Setting String UInt64)
  | listener (listener : Listener)
  | unknown (name : String)

end SegmentedCache.Scenario
