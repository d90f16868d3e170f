import SegmentedCache.Text.Quoted
import SegmentedCache.Text.Shown

namespace SegmentedCache

/-!
What a cache reports when it can not answer: a kind, a message, the circumstances as named texts, and the
failure that lies behind it, if any.
-/

inductive ErrorKind where
  | invalidArgument
  | illegalState
  | load
  | nullValue
  | recursiveLoad
  | taskCancelled
  | join
deriving DecidableEq

namespace ErrorKind

def name : ErrorKind → String
  | invalidArgument => "InvalidArgument"
  | illegalState => "IllegalState"
  | load => "Load"
  | nullValue => "NullValue"
  | recursiveLoad => "RecursiveLoad"
  | taskCancelled => "TaskCancelled"
  | join => "Join"

def text : ErrorKind → String
  | invalidArgument => "Invalid argument"
  | illegalState => "Illegal state"
  | load => "Load error"
  | nullValue => "Null value"
  | recursiveLoad => "Recursive load"
  | taskCancelled => "Task cancelled"
  | join => "Join error"

end ErrorKind

inductive Failure where
  | message (text : String)
  | wrapped (context : String) (cause : Failure)
  | typed (text : String)
deriving DecidableEq

namespace Failure

def ofTexts (texts : List String) : Failure :=
  match texts with
  | [] => message ""
  | root :: contexts => contexts.foldl (fun cause context => wrapped context cause) (message root)

def text : Failure → String
  | message text => text
  | wrapped context _ => context
  | typed text => text

def chain : Failure → List String
  | message text => [text]
  | wrapped context cause => context :: cause.chain
  | typed text => [text]

def typed? : Failure → Option String
  | typed text => some text
  | _ => none

def shown : Failure → Text.Shown
  | message text => .atom (Text.quoted text)
  | wrapped context cause =>
      .record "Error" [("context", .atom (Text.quotedLoosely context)), ("source", cause.shown)]
  | typed text => .atom (Text.quoted text)

end Failure

structure CacheError where
  kind : ErrorKind
  message : String
  context : List (String × String) := []
  source : Option Failure := none
deriving DecidableEq

namespace CacheError

def withContext (error : CacheError) (key value : String) : CacheError :=
  { error with context := error.context ++ [(key, value)] }

def withSource (error : CacheError) (source : Failure) : CacheError :=
  { error with source := some source }

def isLoadFailure (error : CacheError) : Bool :=
  match error.kind with
  | .load | .nullValue | .recursiveLoad | .taskCancelled => true
  | _ => false

def badValue (option message : String) : CacheError :=
  withContext ⟨.invalidArgument, message, [], none⟩ "option" option

def conflict (option message : String) : CacheError :=
  withContext ⟨.illegalState, message, [], none⟩ "option" option

def givenTwice (option : String) : CacheError :=
  conflict option "option was already set"

def loadFailed (source : Failure) : CacheError :=
  ⟨.load, "loader failed", [], some source⟩

def nothingLoaded : CacheError :=
  ⟨.nullValue, "loader returned no value", [], none⟩

def loadsItself (hash : UInt64) : CacheError :=
  withContext ⟨.recursiveLoad, "recursive load of the same key", [], none⟩ "hash" (toString hash.toNat)

def loadDropped (hash : UInt64) : CacheError :=
  withContext ⟨.taskCancelled, "loading task ended without a result", [], none⟩ "hash" (toString hash.toNat)

def jobPanicked : CacheError :=
  ⟨.join, "tokio join error", [], none⟩

def text (error : CacheError) : String :=
  error.kind.text
    ++ (if error.context.isEmpty then ""
        else ", context: \x7b "
          ++ ", ".intercalate (error.context.map fun entry => entry.1 ++ ": " ++ entry.2) ++ " \x7d")
    ++ (if error.message.isEmpty then "" else " => " ++ error.message)
    ++ (match error.source with
        | none => ""
        | some source => ", source: " ++ source.text)

def report (error : CacheError) : String :=
  error.kind.text
    ++ (if error.message.isEmpty then "" else " => " ++ error.message) ++ "\n"
    ++ (if error.context.isEmpty then ""
        else "\nContext:\n"
          ++ String.join (error.context.map fun entry => "  " ++ entry.1 ++ ": " ++ entry.2 ++ "\n"))
    ++ (match error.source with
        | none => ""
        | some source => "\nSource:\n  " ++ ": ".intercalate source.chain ++ "\n")
    ++ "\nBacktrace:\ndisabled backtrace\n"

def shown (error : CacheError) : Text.Shown :=
  .record "Error"
    [("kind", .atom error.kind.name),
     ("message", .atom (Text.quoted error.message)),
     ("context", .list (error.context.map fun entry =>
       .tagged "" [.atom (Text.quoted entry.1), .atom (Text.quoted entry.2)])),
     ("source", .optional (error.source.map Failure.shown)),
     ("backtrace", .optional (some (.atom "<disabled>")))]

end CacheError
end SegmentedCache
