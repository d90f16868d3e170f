import SegmentedCache.Span

namespace SegmentedCache

/-!
When an entry is too old to be read.
-/

/-- How long an entry stays readable after its last write and after its last access, in nanoseconds. Either limit
alone ends its life. -/
structure Lifetime where
  afterWrite : Option Nat := none
  afterAccess : Option Nat := none

namespace Lifetime

/-- A limit of zero is no limit on age: a cache that keeps nothing is bounded to weight zero instead. -/
def ofSpans (afterWrite afterAccess : Option Span) : Lifetime where
  afterWrite := (afterWrite.map Span.toNanos).filter (· > 0)
  afterAccess := (afterAccess.map Span.toNanos).filter (· > 0)

def isLimited (lifetime : Lifetime) : Bool :=
  lifetime.afterWrite.isSome || lifetime.afterAccess.isSome

/-- An age that equals a limit is past it. A time in the future counts as age zero. -/
def isOver (lifetime : Lifetime) (now written accessed : Nat) : Bool :=
  lifetime.afterWrite.any (· ≤ now - written) || lifetime.afterAccess.any (· ≤ now - accessed)

end Lifetime
end SegmentedCache
