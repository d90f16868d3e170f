import SegmentedCache.CacheError

namespace SegmentedCache

/-!
Work on other threads, of which nothing comes back but the result.
-/

inductive Job (α : Type) where
  | give (result : α)
  | panic (message : String)

def Job.join {α : Type} : Job α → Except CacheError α
  | give result => .ok result
  | panic _ => .error .jobPanicked

end SegmentedCache
