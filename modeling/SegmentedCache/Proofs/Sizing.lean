import Mathlib.Algebra.Ring.Nat
import Mathlib.Data.Nat.Log
import SegmentedCache.Sizing

namespace SegmentedCache.Sizing

/-!
Segments and tables are counted in powers of two, and every hash falls into a segment.
-/

theorem segments_eq_pow (concurrency : Nat) (bound : Option Nat) :
    ∃ exponent ≤ maxExponent, segments concurrency bound = 2 ^ exponent := by
  refine ⟨_, ?_, Nat.one_shiftLeft _⟩
  cases found : (List.range maxExponent).find? fun e => !splits concurrency bound (1 <<< e) with
  | none => exact le_rfl
  | some e => exact (List.mem_range.mp (List.mem_of_find?_eq_some found)).le

theorem segmentAt_lt (concurrency : Nat) (bound : Option Nat) (hash : UInt64) :
    segmentAt (hashShift (segments concurrency bound)) hash < segments concurrency bound := by
  obtain ⟨exponent, le, segments_eq⟩ := segments_eq_pow concurrency bound
  have small : exponent ≤ 64 := le.trans (by decide)
  rw [segments_eq, segmentAt, hashShift, Nat.log2_two_pow, Nat.shiftRight_eq_div_pow,
    Nat.div_lt_iff_lt_mul (Nat.two_pow_pos _), ← Nat.pow_add, Nat.add_sub_cancel' small]
  exact hash.toNat_lt

theorem tableLength_eq_pow (capacity segments : Nat) (bound : Option Nat) (weighted : Bool) :
    ∃ exponent, tableLength capacity segments bound weighted = 2 ^ exponent :=
  Nat.isPowerOfTwo_nextPowerOfTwo _

end SegmentedCache.Sizing
