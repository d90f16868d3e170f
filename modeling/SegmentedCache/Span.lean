import SegmentedCache.Text.Shown

namespace SegmentedCache

/-!
Lengths of time, what clocks can tell of them, and how they are written.
-/

structure Span where
  seconds : Nat
  nanos : Nat
  nanos_lt : nanos < 1000000000 := by omega

namespace Span

def ofParts (seconds nanos : Nat) : Span where
  seconds := seconds + nanos / 1000000000
  nanos := nanos % 1000000000

def ofNanos (nanos : Nat) : Span :=
  ofParts 0 nanos

def maxNanos : Nat := UInt64.size - 1

def toNanos (span : Span) : Nat :=
  min (span.seconds * 1000000000 + span.nanos) maxNanos

def isZero (span : Span) : Bool :=
  span.seconds == 0 && span.nanos == 0

def fractionDigits (fraction places : Nat) : String :=
  let digits := Nat.toDigits 10 fraction
  let padded := List.replicate (places - digits.length) '0' ++ digits
  String.ofList (padded.reverse.dropWhile (· == '0')).reverse

def decimal (whole fraction places : Nat) (unit : String) : String :=
  let digits := fractionDigits fraction places
  toString whole ++ (if digits.isEmpty then "" else "." ++ digits) ++ unit

def text (span : Span) : String :=
  if span.seconds > 0 then decimal span.seconds span.nanos 9 "s"
  else if span.nanos ≥ 1000000 then decimal (span.nanos / 1000000) (span.nanos % 1000000) 6 "ms"
  else if span.nanos ≥ 1000 then decimal (span.nanos / 1000) (span.nanos % 1000) 3 "µs"
  else decimal span.nanos 0 0 "ns"

def shown (span : Span) : Text.Shown :=
  .atom span.text

end Span
end SegmentedCache
