import Mathlib.Algebra.Order.Floor.Div
import Mathlib.Order.Bounds.Basic
import SegmentedCache.Bound
import SegmentedCache.Proofs.Sizing

namespace SegmentedCache.Sizing

/-!
How a cache is split: into how many segments, which share of the bound each gets, how long its table is, and which
hashes fall into it. All of it can be computed in words of 64 bits, step by step, without an overflow.
-/

def LeastPower (holds : Nat → Prop) (power : Nat) : Prop :=
  IsLeast {candidate | candidate.isPowerOfTwo ∧ holds candidate} power

theorem LeastPower.congr {holds holds' : Nat → Prop} {power : Nat} (least : LeastPower holds power)
    (same : ∀ candidate, holds candidate ↔ holds' candidate) : LeastPower holds' power := by
  rwa [← funext fun candidate => propext (same candidate)]

theorem LeastPower.or {holds holds' : Nat → Prop} {power power' : Nat} (least : LeastPower holds power)
    (least' : LeastPower holds' power') :
    LeastPower (fun candidate => holds candidate ∨ holds' candidate) (min power power') := by
  constructor
  · rcases min_choice power power' with eq | eq <;> rw [eq]
    · exact ⟨least.1.1, .inl least.1.2⟩
    · exact ⟨least'.1.1, .inr least'.1.2⟩
  · rintro candidate ⟨isPower, found | found⟩
    · exact min_le_of_left_le (least.2 ⟨isPower, found⟩)
    · exact min_le_of_right_le (least'.2 ⟨isPower, found⟩)

theorem leastPower_two_pow {holds : Nat → Prop} {exponent : Nat} (here : holds (2 ^ exponent))
    (notBefore : ∀ lower < exponent, ¬holds (2 ^ lower)) : LeastPower holds (2 ^ exponent) := by
  refine ⟨⟨⟨exponent, rfl⟩, here⟩, ?_⟩
  rintro _ ⟨⟨other, rfl⟩, found⟩
  refine Nat.pow_le_pow_right (by decide) ?_
  by_contra less
  exact notBefore other (Nat.lt_of_not_le less) found

open private Nat.nextPowerOfTwo.go from Init.Data.Nat.Power2.Basic in
theorem leastPower_nextPowerOfTwo (number : Nat) : LeastPower (number ≤ ·) number.nextPowerOfTwo := by
  -- The powers that the loop has left behind are too low, and `rounds` more are enough.
  have loop (rounds exponent : Nat) (positive : 2 ^ exponent > 0) (enough : number ≤ 2 ^ exponent + rounds)
      (tooLow : ∀ lower < exponent, ¬number ≤ 2 ^ lower) :
      LeastPower (number ≤ ·) (Nat.nextPowerOfTwo.go number (2 ^ exponent) positive) := by
    induction rounds generalizing exponent with
    | zero =>
        unfold Nat.nextPowerOfTwo.go
        have reached : number ≤ 2 ^ exponent := enough
        rw [if_neg (Nat.not_lt.mpr reached)]
        exact leastPower_two_pow reached tooLow
    | succ rounds ih =>
        unfold Nat.nextPowerOfTwo.go
        split
        · rename_i below
          simp only [← Nat.pow_succ]
          apply ih
          · rw [Nat.pow_succ]
            omega
          · intro lower less
            rcases Nat.lt_succ_iff_lt_or_eq.mp less with less | rfl
            · exact tooLow lower less
            · exact Nat.not_le.mpr below
        · rename_i reached
          exact leastPower_two_pow (Nat.not_lt.mp reached) tooLow
  exact loop number 0 (by decide) (by simp) (by simp)

theorem segments_least (concurrency : Nat) (bound : Option Nat) :
    LeastPower (splits concurrency bound · = false) (segments concurrency bound) := by
  unfold segments
  rw [Nat.one_shiftLeft]
  cases found : (List.range maxExponent).find? fun e => !splits concurrency bound (1 <<< e) with
  | none =>
      rw [List.find?_range_eq_none] at found
      refine leastPower_two_pow ?_ ?_
      · simp [splits, Nat.one_shiftLeft]
      · intro lower less
        simpa [Nat.one_shiftLeft] using found lower less
  | some exponent =>
      obtain ⟨here, _, before⟩ := List.find?_range_eq_some.mp found
      refine leastPower_two_pow (by simpa [Nat.one_shiftLeft] using here) fun lower less => ?_
      simpa [Nat.one_shiftLeft] using before lower less

theorem segments_eq_two_pow {concurrency exponent : Nat} {bound : Option Nat}
    (stops : splits concurrency bound (2 ^ exponent) = false)
    (below : ∀ lower < exponent, splits concurrency bound (2 ^ lower) = true) :
    segments concurrency bound = 2 ^ exponent :=
  (segments_least concurrency bound).unique (leastPower_two_pow stops fun lower less => by simp [below lower less])

theorem splits_eq_false_iff {concurrency count : Nat} {bound : Option Nat} :
    splits concurrency bound count = false ↔
      min concurrency 65536 ≤ count ∨ ∃ total, bound = some total ∧ total < 20 * count := by
  cases bound <;> simp [splits, maxExponent] <;> omega

theorem segments_of_unbounded (concurrency : Nat) :
    LeastPower (min concurrency 65536 ≤ ·) (segments concurrency none) :=
  (segments_least concurrency none).congr fun count => by simp [splits_eq_false_iff]

theorem segments_of_bounded (concurrency total : Nat) :
    ∃ level division, LeastPower (min concurrency 65536 ≤ ·) level ∧ LeastPower (total < 20 * ·) division ∧
      segments concurrency (some total) = min level division := by
  have level := leastPower_nextPowerOfTwo (min concurrency 65536)
  have division : LeastPower (total < 20 * ·) (total / 20 + 1).nextPowerOfTwo :=
    (leastPower_nextPowerOfTwo (total / 20 + 1)).congr fun count => by omega
  refine ⟨_, _, level, division, ?_⟩
  refine (segments_least concurrency (some total)).unique ((level.or division).congr fun count => ?_)
  simp [splits_eq_false_iff]

theorem segments_pos (concurrency : Nat) (bound : Option Nat) : 0 < segments concurrency bound :=
  Nat.pos_of_isPowerOfTwo (segments_least concurrency bound).1.1

theorem split_pays {concurrency half : Nat} {bound : Option Nat} (isPower : half.isPowerOfTwo)
    (fewer : half < segments concurrency bound) : splits concurrency bound half = true := by
  by_contra stops
  exact Nat.not_le.mpr fewer ((segments_least concurrency bound).2 ⟨isPower, Bool.eq_false_iff.mpr stops⟩)

def portions (total segments : Nat) : List Nat :=
  (List.range segments).map fun index => total / segments + if index < total % segments then 1 else 0

theorem share_eq_portion (total segments : Nat) :
    (List.range segments).map (fun index => (Bound.share (some total) segments index).limit) =
      (portions total segments).map some := by
  simp [portions, Bound.share, Function.comp_def]

theorem sum_dealt (each more segments : Nat) :
    ((List.range segments).map fun index => each + if index < more then 1 else 0).sum =
      each * segments + min more segments := by
  induction segments with
  | zero => simp
  | succ segments ih =>
      rw [List.range_succ, List.map_append, List.sum_append, ih, Nat.mul_succ]
      simp only [List.map_cons, List.map_nil, List.sum_cons, List.sum_nil]
      split <;> omega

theorem portions_sum {total segments : Nat} (positive : 0 < segments) : (portions total segments).sum = total := by
  rw [portions, sum_dealt, Nat.min_eq_left (Nat.mod_lt _ positive).le, Nat.mul_comm, Nat.div_add_mod]

theorem portion_bounds {total segments portion : Nat} (member : portion ∈ portions total segments) :
    total / segments ≤ portion ∧ portion ≤ total / segments + 1 := by
  obtain ⟨index, _, rfl⟩ := List.mem_map.mp member
  split <;> omega

theorem ten_le_portion {concurrency total portion : Nat} (split : 1 < segments concurrency (some total))
    (member : portion ∈ portions total (segments concurrency (some total))) : 10 ≤ portion := by
  refine le_trans ?_ (portion_bounds member).1
  obtain ⟨exponent, eq⟩ := (segments_least concurrency (some total)).1.1
  cases exponent with
  | zero => omega
  | succ exponent =>
      -- Half as many segments had twenty units each to themselves.
      have fewer : 2 ^ exponent < segments concurrency (some total) := by
        rw [eq, Nat.pow_succ]
        have := Nat.two_pow_pos exponent
        omega
      have pays := split_pays ⟨exponent, rfl⟩ fewer
      rw [Nat.le_div_iff_mul_le (segments_pos ..), eq, Nat.pow_succ]
      simp [splits] at pays
      omega

/-- The initial capacity as far as it can be used: no table is longer than 2 ^ 30, and without a weigher a bound is
one on the number of entries. -/
def usable (initialCapacity : Nat) (bound : Option Nat) (weighted : Bool) : Nat :=
  match bound, weighted with
  | some total, false => min (min initialCapacity (2 ^ 30)) total
  | _, _ => min initialCapacity (2 ^ 30)

theorem usable_le (initialCapacity : Nat) (bound : Option Nat) (weighted : Bool) :
    usable initialCapacity bound weighted ≤ 2 ^ 30 := by
  unfold usable
  split <;> omega

theorem tableLength_eq (initialCapacity segments : Nat) (bound : Option Nat) (weighted : Bool) :
    tableLength initialCapacity segments bound weighted =
      (max 1 (usable initialCapacity bound weighted ⌈/⌉ segments)).nextPowerOfTwo := by
  rw [max_comm, Nat.ceilDiv_eq_add_pred_div]
  cases bound <;> cases weighted <;> rfl

theorem tableLength_least (initialCapacity segments : Nat) (bound : Option Nat) (weighted : Bool) :
    LeastPower (max 1 (usable initialCapacity bound weighted ⌈/⌉ segments) ≤ ·)
      (tableLength initialCapacity segments bound weighted) := by
  rw [tableLength_eq]
  exact leastPower_nextPowerOfTwo _

theorem tableLength_le (initialCapacity segments : Nat) (bound : Option Nat) (weighted : Bool)
    (positive : 0 < segments) : tableLength initialCapacity segments bound weighted ≤ 2 ^ 30 := by
  refine (tableLength_least ..).2 ⟨⟨30, rfl⟩, max_le (by decide) ?_⟩
  rw [ceilDiv_le_iff_le_mul positive]
  exact (usable_le ..).trans (Nat.le_mul_of_pos_left _ positive)

theorem exists_segmentAt {concurrency index : Nat} {bound : Option Nat}
    (inside : index < segments concurrency bound) :
    ∃ hash, segmentAt (hashShift (segments concurrency bound)) hash = index := by
  obtain ⟨exponent, le, eq⟩ := segments_eq_pow concurrency bound
  rw [eq] at inside ⊢
  have small : exponent ≤ 64 := le.trans (by decide)
  have fits : index * 2 ^ (64 - exponent) < 2 ^ 64 := by
    calc index * 2 ^ (64 - exponent) < 2 ^ exponent * 2 ^ (64 - exponent) :=
          Nat.mul_lt_mul_of_pos_right inside (Nat.two_pow_pos _)
      _ = 2 ^ 64 := by rw [← Nat.pow_add, Nat.add_sub_cancel' small]
  refine ⟨UInt64.ofNat (index * 2 ^ (64 - exponent)), ?_⟩
  rw [segmentAt, hashShift, Nat.log2_two_pow, UInt64.toNat_ofNat_of_lt' fits, Nat.shiftRight_eq_div_pow,
    Nat.mul_div_cancel _ (Nat.two_pow_pos _)]

namespace Word

def fit (number : Nat) : Option Nat :=
  if number < 2 ^ 64 then some number else none

def difference (number less : Nat) : Option Nat :=
  if less ≤ number then some (number - less) else none

def quotient (number divisor : Nat) : Option Nat :=
  if divisor = 0 then none else some (number / divisor)

def remainder (number divisor : Nat) : Option Nat :=
  if divisor = 0 then none else some (number % divisor)

def shiftedRight (number places : Nat) : Option Nat :=
  if places < 64 then some (number >>> places) else none

def splits (level : Nat) (bound : Option Nat) (count : Nat) : Option Bool :=
  if count < level then
    match bound with
    | none => some true
    | some total => do return (← fit (count * 20)) ≤ total
  else
    some false

def doubled (level : Nat) (bound : Option Nat) : Nat → Nat → Option Nat
  | 0, _ => none
  | rounds + 1, count => do
      if ← splits level bound count then
        doubled level bound rounds (← fit (count * 2))
      else
        return count

def segments (concurrency : Nat) (bound : Option Nat) : Option Nat :=
  doubled (min concurrency (1 <<< maxExponent)) bound (maxExponent + 1) 1

def share (total segments index : Nat) : Option Nat := do
  let each ← quotient total segments
  let more ← remainder total segments
  fit (each + if index < more then 1 else 0)

def roundedUp (number divisor : Nat) : Option Nat := do
  let whole ← quotient number divisor
  let rest ← remainder number divisor
  if rest = 0 then return whole else fit (whole + 1)

def tableLength (initialCapacity segments : Nat) (bound : Option Nat) (weighted : Bool) : Option Nat := do
  let each ← roundedUp (usable initialCapacity bound weighted) segments
  fit (max each 1).nextPowerOfTwo

/-- A cache of one segment would have to shift by the whole width, and does not shift at all. -/
def segmentAt (segments : Nat) (hash : Nat) : Option Nat := do
  let places ← difference 64 segments.log2
  if places = 64 then return 0 else shiftedRight hash places

theorem splits_eq {concurrency count : Nat} (bound : Option Nat) (small : count ≤ 65536) :
    splits (min concurrency (1 <<< maxExponent)) bound count = some (Sizing.splits concurrency bound count) := by
  have fits : count * 20 < 2 ^ 64 := by omega
  unfold splits Sizing.splits
  split
  · cases bound <;> simp_all [fit]
  · simp_all

theorem doubled_eq (concurrency : Nat) (bound : Option Nat) (exponent : Nat) {rounds : Nat}
    (rest : exponent + rounds = 16)
    (below : ∀ lower < exponent, Sizing.splits concurrency bound (2 ^ lower) = true) :
    doubled (min concurrency (1 <<< maxExponent)) bound (rounds + 1) (2 ^ exponent) =
      some (Sizing.segments concurrency bound) := by
  -- The exponent and the rounds left always make sixteen, so that no doubling leaves the word.
  induction rounds generalizing exponent with
  | zero =>
      have last : exponent = 16 := rest
      have stops : Sizing.splits concurrency bound (2 ^ exponent) = false := by
        simp [last, Sizing.splits, maxExponent]
      have small : 2 ^ exponent ≤ 65536 := by simp [last]
      simp [doubled, splits_eq bound small, stops, segments_eq_two_pow stops below]
  | succ rounds ih =>
      have bounded : exponent ≤ 16 := by omega
      have small : 2 ^ exponent ≤ 65536 := Nat.pow_le_pow_right (by decide) bounded
      rw [doubled, splits_eq bound small]
      cases pays : Sizing.splits concurrency bound (2 ^ exponent) with
      | false => simp [segments_eq_two_pow pays below]
      | true =>
          have fits : 2 ^ exponent * 2 < 2 ^ 64 := by omega
          simp only [Option.bind_eq_bind, Option.bind_some, if_true, fit, if_pos fits]
          rw [← Nat.pow_succ]
          refine ih (exponent + 1) (by omega) fun lower less => ?_
          rcases Nat.lt_succ_iff_lt_or_eq.mp less with less | rfl
          · exact below lower less
          · exact pays

theorem segments_eq (concurrency : Nat) (bound : Option Nat) :
    segments concurrency bound = some (Sizing.segments concurrency bound) :=
  doubled_eq concurrency bound 0 (by decide) (by simp)

theorem share_eq {total segments index : Nat} (positive : 0 < segments) (fits : total < 2 ^ 64) :
    share total segments index = (Bound.share (some total) segments index).limit := by
  have whole := Nat.div_add_mod total segments
  have few : (if index < total % segments then 1 else 0) ≤ total % segments := by
    split <;> omega
  have each : total / segments ≤ segments * (total / segments) := Nat.le_mul_of_pos_left _ positive
  have inWord : total / segments + (if index < total % segments then 1 else 0) < 2 ^ 64 := by omega
  simpa [share, quotient, remainder, positive.ne', fit, Bound.share] using inWord

theorem roundedUp_eq {number divisor : Nat} (positive : 0 < divisor) (fits : number + 1 < 2 ^ 64) :
    roundedUp number divisor = some (number ⌈/⌉ divisor) := by
  have whole := Nat.div_add_mod number divisor
  have le := Nat.div_le_self number divisor
  have ceiling : number ⌈/⌉ divisor = number / divisor + (number % divisor + divisor - 1) / divisor := by
    rw [Nat.ceilDiv_eq_add_pred_div, ← Nat.mul_add_div positive]
    congr 1
    omega
  have less := Nat.mod_lt number positive
  simp only [roundedUp, quotient, remainder, if_neg positive.ne', Option.bind_eq_bind, Option.bind_some, ceiling]
  split
  · rename_i even
    have nothing : (number % divisor + divisor - 1) / divisor = 0 := Nat.div_eq_of_lt (by omega)
    rw [nothing]
    rfl
  · have one : (number % divisor + divisor - 1) / divisor = 1 := Nat.div_eq_of_lt_le (by omega) (by omega)
    rw [one, fit, if_pos (by omega)]

theorem tableLength_eq (initialCapacity : Nat) {segments : Nat} (bound : Option Nat) (weighted : Bool)
    (positive : 0 < segments) :
    tableLength initialCapacity segments bound weighted =
      some (Sizing.tableLength initialCapacity segments bound weighted) := by
  have usable_le := usable_le initialCapacity bound weighted
  have length_le := tableLength_le initialCapacity segments bound weighted positive
  rw [Sizing.tableLength_eq, max_comm] at length_le ⊢
  rw [tableLength, roundedUp_eq positive (by omega)]
  simp only [Option.bind_eq_bind, Option.bind_some, fit]
  rw [if_pos (by omega)]

theorem segmentAt_eq {segments : Nat} (hash : UInt64) (small : segments.log2 ≤ 64) :
    segmentAt segments hash.toNat = some (Sizing.segmentAt (hashShift segments) hash) := by
  have inWord := hash.toNat_lt
  simp only [segmentAt, difference, if_pos small, Option.bind_eq_bind, Option.bind_some, Sizing.segmentAt, hashShift]
  split
  · rename_i whole
    rw [whole, Nat.shiftRight_eq_div_pow, Nat.div_eq_of_lt inWord]
    rfl
  · rw [shiftedRight, if_pos (by omega)]

end Word

structure Exact (concurrency initialCapacity : Nat) (bound : Option Nat) (weighted : Bool) : Prop where
  isPower : (segments concurrency bound).isPowerOfTwo
  unbounded : bound = none → LeastPower (min concurrency 65536 ≤ ·) (segments concurrency bound)
  bounded : ∀ total, bound = some total → ∃ level division,
    LeastPower (min concurrency 65536 ≤ ·) level ∧ LeastPower (total < 20 * ·) division ∧
      segments concurrency bound = min level division
  shares : ∀ total, bound = some total → ∃ portions : List Nat,
    (List.range (segments concurrency bound)).map
        (fun index => (Bound.share bound (segments concurrency bound) index).limit) = portions.map some ∧
      portions.sum = total ∧ (∀ portion ∈ portions, ∀ other ∈ portions, portion ≤ other + 1) ∧
      (1 < segments concurrency bound → ∀ portion ∈ portions, 10 ≤ portion)
  table : LeastPower (max 1 (usable initialCapacity bound weighted ⌈/⌉ segments concurrency bound) ≤ ·)
    (tableLength initialCapacity (segments concurrency bound) bound weighted)
  hashes : Set.range (segmentAt (hashShift (segments concurrency bound))) =
    {index | index < segments concurrency bound}
  stepwise : Word.segments concurrency bound = some (segments concurrency bound) ∧
    (∀ total, bound = some total → ∀ index, Word.share total (segments concurrency bound) index =
      (Bound.share bound (segments concurrency bound) index).limit) ∧
    Word.tableLength initialCapacity (segments concurrency bound) bound weighted =
      some (tableLength initialCapacity (segments concurrency bound) bound weighted) ∧
    ∀ hash : UInt64, Word.segmentAt (segments concurrency bound) hash.toNat =
      some (segmentAt (hashShift (segments concurrency bound)) hash)

theorem exact_of_words (concurrency initialCapacity : UInt64) (bound : Option UInt64) (weighted : Bool) :
    Exact concurrency.toNat initialCapacity.toNat (bound.map UInt64.toNat) weighted where
  isPower := (segments_least ..).1.1
  unbounded unbounded := by
    rw [unbounded]
    exact segments_of_unbounded _
  bounded total bounded := by
    rw [bounded]
    exact segments_of_bounded _ total
  shares total bounded := by
    rw [bounded]
    refine ⟨_, share_eq_portion .., portions_sum (segments_pos ..), ?_, fun split _ => ten_le_portion split⟩
    intro portion member other memOther
    have := portion_bounds member
    have := portion_bounds memOther
    omega
  table := tableLength_least ..
  hashes := by
    ext index
    constructor
    · rintro ⟨hash, rfl⟩
      exact segmentAt_lt ..
    · exact exists_segmentAt
  stepwise := by
    refine ⟨Word.segments_eq .., ?_, Word.tableLength_eq _ _ _ (segments_pos ..), fun hash => ?_⟩
    · intro total bounded index
      obtain ⟨word, _, rfl⟩ := Option.map_eq_some_iff.mp bounded
      rw [bounded]
      exact Word.share_eq (segments_pos ..) word.toNat_lt
    · obtain ⟨exponent, le, eq⟩ := segments_eq_pow concurrency.toNat (bound.map UInt64.toNat)
      refine Word.segmentAt_eq hash ?_
      rw [eq, Nat.log2_two_pow]
      exact le.trans (by decide)

example : Word.segments 64 (some 40) = some 4 ∧ portions 40 4 = [10, 10, 10, 10] := by decide

end SegmentedCache.Sizing
