import SegmentedCache.Span

namespace SegmentedCache

/-!
Clocks, of which a cache reads the time at every call.
-/

/-- A source of readings in nanoseconds. Reading may move the clock. -/
class Clock (τ : Type) where
  read : τ → Nat × τ

/-- A clock that moves only when told to, and by a fixed step after every reading. It wraps around at 64 bits. -/
structure ManualClock where
  nanos : UInt64 := 0
  step : UInt64 := 0

namespace ManualClock

def read (clock : ManualClock) : Nat × ManualClock :=
  (clock.nanos.toNat, { clock with nanos := clock.nanos + clock.step })

instance : Clock ManualClock := ⟨read⟩

def advanceNanos (clock : ManualClock) (nanos : Nat) : ManualClock :=
  { clock with nanos := clock.nanos + UInt64.ofNat nanos }

def advance (clock : ManualClock) (span : Span) : ManualClock :=
  clock.advanceNanos span.toNanos

def setStep (clock : ManualClock) (span : Span) : ManualClock :=
  { clock with step := UInt64.ofNat span.toNanos }

end ManualClock
end SegmentedCache
