import SegmentedCache.Cache.Log
import SegmentedCache.Stats

namespace SegmentedCache.Scenario

/-!
What a scenario answers.
-/

inductive Refusal where
  | unknownOperation (name : String)
  | unknownOption (name : String)
  | unknownStep (name : String)
  | notLoading
  | notHeld (name : String)
  | noBackground
  | noWaiter

def Refusal.message : Refusal → String
  | unknownOperation name => "unknown op: " ++ name
  | unknownOption name => "unknown option: " ++ name
  | unknownStep name => "unknown step: " ++ name
  | notLoading => "not a loading cache"
  | notHeld name => "not held: " ++ name
  | noBackground => "no spawner"
  | noWaiter => "no such waiter"

inductive Result (α : Type) where
  | nothing
  | flag (b : Bool)
  | number (n : UInt64)
  | text (text : String)
  | error (error : CacheError)
  | panicked (message : String)
  | refused (refusal : Refusal)
  | keys (keys : List String)
  | values (values : List UInt64)
  | entries (entries : List (String × UInt64))
  | stats (stats : Stats) (timed : Bool)
  | length (length : Nat) (empty : Bool)
  | shape (tableLengths : List Nat) (limits : List (Option Nat)) (changes : List Nat)
  | answers (answers : List α)
  | repeated (results : List (Result α))

inductive Heard (α : Type) where
  | removal (key : Option String) (value : Option UInt64) (cause : Cause) (steps : Option (List α))
  | count (n : Nat)

structure LoadCall (α : Type) where
  key : String
  old : Option UInt64
  steps : Option (List α)

structure Answer where
  result : Result Answer
  size : Nat
  weight : Nat
  heard : List (Heard Answer)
  loads : List (LoadCall Answer)
  log : List LogEvent

inductive Report where
  | refused (refusal : Refusal)
  | misconfigured (error : CacheError) (index : Option Nat)
  | ran (log : List LogEvent) (answers : List Answer)

end SegmentedCache.Scenario
