import SegmentedCache.CacheError
import SegmentedCache.Removal
import SegmentedCache.Text.Shown

namespace SegmentedCache

/-!
What a cache logs: growth, clearing, and the failures that no caller is told of.
-/

/-- Which loader a call uses: one that came with the call, or the one that the cache is bound to. -/
inductive Source where
  | given
  | bound
deriving DecidableEq

inductive LogEvent where
  | built (segments tableLength : Nat) (bound : Option Nat) (keys values : Strength)
  | cleared (segments : Nat)
  | tableGrown (before after : Nat)
  | listenerPanicked (cause : Cause) (message : Option String)
  | refreshFailed (source : Source) (error : CacheError)
  | absentRefreshFailed (error : CacheError)
  | backgroundRefreshFailed (error : CacheError)

namespace LogEvent

def level : LogEvent → String
  | built .. => "DEBUG"
  | cleared _ | tableGrown _ _ => "TRACE"
  | listenerPanicked _ _ | refreshFailed _ _ | absentRefreshFailed _ | backgroundRefreshFailed _ => "WARN"

def message : LogEvent → String
  | built .. => "[raw]: cache built"
  | cleared _ => "[raw]: cleared"
  | tableGrown _ _ => "[segment]: expand table"
  | listenerPanicked _ _ => "[notifier]: removal listener panicked"
  | refreshFailed .given _ => "[cache]: refresh failed, keeping the old value"
  | refreshFailed .bound _ => "[loading cache]: refresh failed, keeping the old value"
  | absentRefreshFailed _ => "[loading cache]: refresh of an absent key failed"
  | backgroundRefreshFailed _ => "[loading cache]: background refresh failed, keeping the old value"

def fields : LogEvent → List (String × String)
  | built segments tableLength bound keys values =>
      [("segments", toString segments), ("table_len", toString tableLength),
       ("max_weight", (Text.Shown.optional (bound.map .number)).inline),
       ("key_strength", keys.name), ("value_strength", values.name)]
  | cleared segments => [("segments", toString segments)]
  | tableGrown before after => [("from", toString before), ("to", toString after)]
  | listenerPanicked cause message =>
      [("cause", cause.name), ("panic", message.getD "<non-string panic payload>")]
  | refreshFailed _ error | absentRefreshFailed error | backgroundRefreshFailed error =>
      [("error", error.text)]

end LogEvent
end SegmentedCache
