import Mathlib.Algebra.BigOperators.Fin
import Mathlib.Algebra.Order.BigOperators.Group.Finset
import SegmentedCache.Proofs.Cache.Lasting
import SegmentedCache.Proofs.Segment.Weights

namespace SegmentedCache

/-!
The bound of a cache. It is dealt out to the segments without anything left over, so that it holds for all of them
together because it holds for each.
-/

variable {K V τ : Type}

theorem Bound.sum_shares (total : Nat) {segments : Nat} (positive : 0 < segments) :
    ∑ index ∈ Finset.range segments, (total / segments + if index < total % segments then 1 else 0) = total := by
  have rest : (Finset.range segments).filter (· < total % segments) = Finset.range (total % segments) := by
    ext index
    have less := Nat.mod_lt total positive
    simp only [Finset.mem_filter, Finset.mem_range]
    omega
  rw [Finset.sum_add_distrib, Finset.sum_const, Finset.card_range, smul_eq_mul, Finset.sum_boole, rest,
    Finset.card_range, Nat.cast_id, Nat.div_add_mod]

theorem Bound.le_share {total segments index weight : Nat}
    (within : (Bound.share (some total) segments index).isExceededBy weight = false) :
    weight ≤ total / segments + if index < total % segments then 1 else 0 := by
  simpa [Bound.share, Bound.isExceededBy] using within

def Config.price (config : Config K V) (entry : Entry K V) : Nat :=
  entry.visible?.elim 0 fun value => config.weigher.elim 1 fun weigher => weigher entry.key.data value.data

theorem Policy.price_eq {policy : Policy K V} {config : Config K V} (same : policy.weigher = config.weigher) :
    policy.price = config.price := by
  funext entry
  rw [price, Config.price]
  congr 1
  funext value
  rw [weigh, same]
  cases config.weigher <;> rfl

structure Shard.Weighed (policy : Policy K V) (bound : Bound) (shard : Shard K V) : Prop where
  segment : shard.segment.Weighed
  policy : shard.segment.policy = policy
  bound : shard.segment.bound = bound
  published : shard.published = shard.segment.count

namespace Cache

theorem lasting_weighed [DecidableEq K] (hash : K → UInt64) (place : K → Nat) (policy : Policy K V)
    (bound : Nat → Bound) :
    Lasting hash place (fun index (shard : Shard K V) => shard.Weighed policy (bound index)) where
  read _ _ weighed := ⟨weighed.segment, weighed.policy, weighed.bound, weighed.published⟩
  modifyLoad load f _ _ weighed :=
    ⟨(weighed.segment.consistent.modifyLoad load f).weighed rfl rfl weighed.segment, weighed.policy, weighed.bound,
      weighed.published⟩
  operate reach now op _ _ _ weighed := by
    have run := weighed.segment.run hash reach now op
    have rules := (weighed.segment.consistent.runs hash reach now op).rules weighed.segment.consistent
    exact ⟨run.consistent.collected.weighed rfl rfl run, rules.1.trans weighed.policy,
      rules.2.trans weighed.bound, rfl⟩

theorem each_create (config : Config K V) (hash : K → UInt64) (clock : τ) :
    (create config hash clock).Each fun index shard => shard.Weighed (create config hash clock).policy
      (Bound.share config.bound (Sizing.segments config.concurrencyLevel config.bound) index) := by
  intro index shard found
  obtain ⟨exponent, rfl⟩ := shard_create found
  exact ⟨Segment.weighed_create _ _ exponent, rfl, rfl, rfl⟩

theorem Recorded.weighed [DecidableEq K] [Clock τ] {config : Config K V} {hash : K → UInt64} {clock : τ}
    {cache : Cache K V τ} {accepted : List (K × Shared V)} {notified : List (Removal K V)}
    (recorded : Recorded config hash clock cache accepted notified) :
    cache.Each fun index shard => shard.Weighed (Cache.create config hash clock).policy
      (Bound.share config.bound (Sizing.segments config.concurrencyLevel config.bound) index) :=
  recorded.each (lasting_weighed hash _ _ _) (each_create config hash clock)

theorem weight_eq_total (cache : Cache K V τ) : cache.weight = cache.total Segment.weight := by
  rw [weight, ← Array.foldl_toList, total, List.sum_eq_foldl, List.foldl_map]

theorem size_eq_sum (cache : Cache K V τ) : cache.size = (cache.shards.toList.map (·.published)).sum := by
  rw [size, ← Array.foldl_toList, List.sum_eq_foldl, List.foldl_map]

theorem weight_le {cache : Cache K V τ} {total : Nat} (positive : 0 < cache.shards.size)
    (within : cache.Each fun index shard =>
      shard.segment.weight ≤ total / cache.shards.size + if index < total % cache.shards.size then 1 else 0) :
    cache.weight ≤ total := by
  have each (index : Fin cache.shards.toList.length) : cache.shards.toList[index.val].segment.weight ≤
      total / cache.shards.size + if index.val < total % cache.shards.size then 1 else 0 := by
    apply within
    rw [← Array.getElem?_toList]
    exact List.getElem?_eq_getElem index.isLt
  calc cache.weight = ∑ index : Fin cache.shards.toList.length, cache.shards.toList[index.val].segment.weight := by
        rw [weight_eq_total, Cache.total, Fin.sum_univ_fun_getElem cache.shards.toList fun shard =>
          shard.segment.weight]
    _ ≤ ∑ index : Fin cache.shards.toList.length,
          (total / cache.shards.size + if index.val < total % cache.shards.size then 1 else 0) :=
        Finset.sum_le_sum fun index _ => each index
    _ = ∑ index ∈ Finset.range cache.shards.size,
          (total / cache.shards.size + if index < total % cache.shards.size then 1 else 0) := by
        rw [Fin.sum_univ_eq_sum_range
          (fun index => total / cache.shards.size + if index < total % cache.shards.size then 1 else 0),
          Array.length_toList]
    _ = total := Bound.sum_shares total positive

structure Balanced (config : Config K V) (cache : Cache K V τ) : Prop where
  exact : cache.Each fun _ shard => shard.segment.weight = (shard.segment.counted.map config.price).sum
  share : ∀ total, config.bound = some total → cache.Each fun index shard =>
    shard.segment.weight ≤ total / cache.shards.size + if index < total % cache.shards.size then 1 else 0
  bounded : ∀ total, config.bound = some total ∨ config.maximum = some total → cache.weight ≤ total
  size : config.weigher = none → cache.size = cache.weight
  sound : cache.Each fun _ shard => shard.segment.fault = none

theorem balanced_of_recorded [DecidableEq K] [Clock τ] {config : Config K V} {hash : K → UInt64} {clock : τ}
    {cache : Cache K V τ} {accepted : List (K × Shared V)} {notified : List (Removal K V)}
    (recorded : Recorded config hash clock cache accepted notified) :
    Balanced config cache ∧ ∀ s : Segment K V, s.Consistent →
      ∀ (reach : Reach) (steps : Nat), s.count ≤ steps →
      ∃ evictions ≤ s.count, Segment.Shrinks reach evictions s (Segment.evictOldest reach steps s) := by
  have size := recorded.size
  have weighed := recorded.weighed
  have share (total : Nat) (bound : config.bound = some total) : cache.Each fun index shard =>
      shard.segment.weight ≤ total / cache.shards.size + if index < total % cache.shards.size then 1 else 0 := by
    intro index shard found
    have within := (weighed index shard found).segment.within
    rw [(weighed index shard found).bound, ← size, bound] at within
    exact Bound.le_share within
  have positive : 0 < cache.shards.size := by
    obtain ⟨exponent, _, segments⟩ := Sizing.segments_eq_pow config.concurrencyLevel config.bound
    rw [size, segments]
    exact Nat.two_pow_pos exponent
  refine ⟨⟨?_, share, ?_, ?_, ?_⟩, fun s consistent reach steps enough => consistent.shrinks reach enough⟩
  · intro index shard found
    obtain ⟨segment, policy, -, -⟩ := weighed index shard found
    have price : shard.segment.policy.price = config.price := Policy.price_eq (by rw [policy, create])
    rw [segment.weight_eq, price]
  · rintro total (bound | maximum)
    · exact weight_le positive (share total bound)
    · by_cases nothing : config.keepsNothing = true
      · have bound : config.bound = some 0 := if_pos nothing
        exact (weight_le positive (share 0 bound)).trans (Nat.zero_le total)
      · have bound : config.bound = some total := (if_neg nothing).trans maximum
        exact weight_le positive (share total bound)
  · intro unweighed
    rw [size_eq_sum, weight_eq_total, total]
    refine congrArg List.sum (List.map_congr_left fun shard member => ?_)
    obtain ⟨index, found⟩ := List.mem_iff_getElem?.mp member
    rw [Array.getElem?_toList] at found
    obtain ⟨segment, policy, -, published⟩ := weighed index shard found
    rw [published, segment.weight_eq_count (by rw [policy, create, unweighed])]
  · exact fun index shard found => (weighed index shard found).segment.consistent.sound

theorem balanced_after_evicting :
    let config : Config Nat Nat :=
      { initialCapacity := 1, concurrencyLevel := 1, maximum := some 5, weigher := some fun _ value => value }
    ∃ (cache : Cache Nat Nat ManualClock) (accepted : List (Nat × Shared Nat)) (notified : List (Removal Nat Nat)),
      Recorded config (fun _ => 3) {} cache accepted notified ∧ accepted.map (·.2.data) = [2, 4] ∧
      cache.weight = 4 ∧
        cache.size = 1 ∧ Balanced config cache := by
  intro config
  have created : Recorded config (fun _ => 3) ({} : ManualClock) _ _ _ := .create
  have started := (created.step (fun _ => true) (.call 0 (.get ⟨0, 6⟩))).step (fun _ => true) (.proceed 0)
  have claimed := started.step (fun _ => true) (.proceed 0)
  have stored := (claimed.step (fun _ => true) (.call 1 (.insert ⟨1, 7⟩ ⟨2, 2⟩))).step (fun _ => true)
    (.proceed 1)
  have heavier := (stored.step (fun _ => true) (.call 2 (.insert ⟨3, 8⟩ ⟨4, 4⟩))).step (fun _ => true)
    (.proceed 2)
  exact ⟨_, _, _, heavier, by decide +kernel, by decide +kernel, by decide +kernel,
    (balanced_of_recorded heavier).1⟩

end Cache
end SegmentedCache
