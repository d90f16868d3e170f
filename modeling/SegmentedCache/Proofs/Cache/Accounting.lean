import SegmentedCache.Proofs.Cache.Steps
import SegmentedCache.Proofs.Sizing

namespace SegmentedCache.Cache

/-!
Every value that a cache with a listener accepts is held by an entry, or was handed to the listener, or is about to be:
none is lost, and none goes two ways.
-/

variable {K V τ : Type}

def pairs (cache : Cache K V τ) : List (K × Shared V) :=
  cache.shards.toList.flatMap fun shard => shard.segment.pairs

theorem Orderly.accounts_eq {cache : Cache K V τ} (orderly : cache.Orderly) :
    cache.accounts = ↑(cache.pairs ++ cache.undelivered.map Removal.pair) := by
  have collected (shard : Shard K V) (member : shard ∈ cache.shards.toList) :
      shard.segment.accounts = ↑shard.segment.pairs := by
    obtain ⟨index, found⟩ := Array.mem_iff_getElem?.mp (Array.mem_toList_iff.mp member)
    rw [Segment.accounts, (orderly.shards index shard found).2]
    exact add_zero _
  rw [accounts, total, List.map_congr_left collected, ← Multiset.coe_add, pairs]
  congr 1
  induction cache.shards.toList with
  | nil => rfl
  | cons shard rest ih => rw [List.map_cons, List.sum_cons, ih, List.flatMap_cons, ← Multiset.coe_add]

theorem shard_create {config : Config K V} {hash : K → UInt64} {clock : τ} {index : Nat} {shard : Shard K V}
    (found : (create config hash clock).shards[index]? = some shard) :
    ∃ exponent, shard =
      { segment := Segment.create (create config hash clock).policy
          (Bound.share config.bound (Sizing.segments config.concurrencyLevel config.bound) index) (2 ^ exponent) } := by
  obtain ⟨exponent, length⟩ := Sizing.tableLength_eq_pow config.initialCapacity
    (Sizing.segments config.concurrencyLevel config.bound) config.bound config.weigher.isSome
  obtain ⟨inside, rfl⟩ := Array.getElem?_eq_some_iff.mp found
  simp only [create, Array.getElem_ofFn, length]
  exact ⟨exponent, rfl⟩

theorem segment_create {config : Config K V} {hash : K → UInt64} {clock : τ} {index : Nat} {shard : Shard K V}
    (found : (create config hash clock).shards[index]? = some shard) :
    ∃ policy bound exponent, shard.segment = Segment.create policy bound (2 ^ exponent) := by
  obtain ⟨exponent, rfl⟩ := shard_create found
  exact ⟨_, _, exponent, rfl⟩

theorem size_create (config : Config K V) (hash : K → UInt64) (clock : τ) :
    (create config hash clock).shards.size = Sizing.segments config.concurrencyLevel config.bound :=
  Array.size_ofFn

theorem composed_create (config : Config K V) (hash : K → UInt64) (clock : τ) :
    (create config hash clock).Composed := by
  have idle (thread : ThreadId) : (create config hash clock).callsOf thread = [] := rfl
  refine ⟨⟨?_, ?_, ?_⟩, ?_⟩
  · intro index shard found
    obtain ⟨policy, bound, exponent, created⟩ := segment_create found
    rw [created]
    exact ⟨Segment.consistent_create policy bound exponent, rfl⟩
  · intro key
    rw [size_create]
    exact Sizing.segmentAt_lt config.concurrencyLevel config.bound (hash key)
  · simp only [create]
    split
    · simp [Background.Placed]
    · trivial
  · simp [idle]

theorem attentive_create {config : Config K V} (listens : config.listens = true) (hash : K → UInt64) (clock : τ) :
    (create config hash clock).Attentive := by
  have composed := composed_create config hash clock
  refine ⟨composed.orderly, listens, composed.arranged, ?_, ?_⟩
  · exact fun delivering => nomatch delivering
  · exact fun due => absurd rfl due

theorem pairs_create (config : Config K V) (hash : K → UInt64) (clock : τ) :
    (create config hash clock).pairs = [] := by
  rw [pairs, List.flatMap_eq_nil_iff]
  intro shard member
  obtain ⟨index, found⟩ := Array.mem_iff_getElem?.mp (Array.mem_toList_iff.mp member)
  obtain ⟨policy, bound, exponent, created⟩ := segment_create found
  rw [created, ← Multiset.coe_eq_zero, Segment.pairs_eq_total, Segment.total_create]

variable [DecidableEq K] [Clock τ]

/-- The states that events lead to, in whatever order they come and whatever the client refers to, with all values
accepted and all removals handed to the listener so far. -/
inductive Recorded (config : Config K V) (hash : K → UInt64) (clock : τ) :
    Cache K V τ → List (K × Shared V) → List (Removal K V) → Prop where
  | create : Recorded config hash clock (create config hash clock) [] []
  | step {cache : Cache K V τ} {accepted : List (K × Shared V)} {notified : List (Removal K V)}
      (recorded : Recorded config hash clock cache accepted notified) (held : Reach) (event : Event K V τ) :
      Recorded config hash clock (cache.step held event).1 (accepted ++ cache.accepts held event)
        (notified ++ cache.notifies event)

structure Accounted (cache : Cache K V τ) (accepted : List (K × Shared V))
    (notified : List (Removal K V)) : Prop where
  balance : accepted.Perm (cache.pairs ++ (notified ++ cache.undelivered).map Removal.pair)
  due : cache.undelivered ≠ [] → ∃ thread, ∃ call ∈ cache.callsOf thread, ∃ frame ∈ call.frames,
    frame = .deliver ∨ frame = .delivering
  settled : (∀ thread, cache.callsOf thread = []) → accepted.Perm (cache.pairs ++ notified.map Removal.pair)

theorem Recorded.invariant {config : Config K V} {hash : K → UInt64} {clock : τ} {cache : Cache K V τ}
    {accepted : List (K × Shared V)} {notified : List (Removal K V)}
    (recorded : Recorded config hash clock cache accepted notified) (listens : config.listens = true) :
    cache.Attentive ∧ cache.accounts + notified.map Removal.pair = accepted := by
  induction recorded with
  | create =>
      have attentive := attentive_create listens hash clock
      refine ⟨attentive, ?_⟩
      rw [attentive.orderly.accounts_eq, pairs_create]
      rfl
  | step recorded held event ih =>
      obtain ⟨attentive, balance⟩ := ih
      have steps := attentive.step_steps held event
      refine ⟨steps.attentive attentive, ?_⟩
      rw [List.map_append, ← Multiset.coe_add, ← Multiset.coe_add, add_left_comm, steps.accounts attentive,
        ← balance]
      ac_rfl

theorem accounted_of_recorded {config : Config K V} {hash : K → UInt64} {clock : τ} {cache : Cache K V τ}
    {accepted : List (K × Shared V)} {notified : List (Removal K V)} (listens : config.listens = true)
    (recorded : Recorded config hash clock cache accepted notified) : Accounted cache accepted notified := by
  obtain ⟨attentive, all⟩ := recorded.invariant listens
  have balance : accepted.Perm (cache.pairs ++ (notified ++ cache.undelivered).map Removal.pair) := by
    rw [← Multiset.coe_eq_coe, ← all, attentive.orderly.accounts_eq, List.map_append, ← Multiset.coe_add,
      ← Multiset.coe_add, ← Multiset.coe_add]
    ac_rfl
  refine ⟨balance, attentive.due, fun idle => ?_⟩
  have nothing : cache.undelivered = [] := by
    by_contra waiting
    obtain ⟨thread, call, member, _⟩ := attentive.due waiting
    rw [idle] at member
    cases member
  simpa [nothing] using balance

theorem accounted_after_overwriting :
    ∃ (cache : Cache Nat Nat ManualClock) (accepted : List (Nat × Shared Nat)) (notified : List (Removal Nat Nat)),
      accepted = [(7, ⟨1, 70⟩), (7, ⟨3, 71⟩)] ∧ notified.map Removal.pair = [(7, ⟨1, 70⟩)] ∧
        cache.pairs = [(7, ⟨3, 71⟩)] ∧ Accounted cache accepted notified := by
  have created : Recorded { initialCapacity := 1, concurrencyLevel := 1, listens := true } (fun _ => 3)
    ({} : ManualClock) _ _ _ := .create (K := Nat) (V := Nat)
  have stored := (created.step (fun _ => true) (.call 0 (.insert ⟨0, 7⟩ ⟨1, 70⟩))).step (fun _ => true)
    (.proceed 0)
  have overwritten := (stored.step (fun _ => true) (.call 1 (.insert ⟨2, 7⟩ ⟨3, 71⟩))).step (fun _ => true)
    (.proceed 1)
  have told := (overwritten.step (fun _ => true) (.proceed 1)).step (fun _ => true) (.proceed 1)
  exact ⟨_, _, _, by decide +kernel, by decide +kernel, by decide +kernel, accounted_of_recorded rfl told⟩

end SegmentedCache.Cache
