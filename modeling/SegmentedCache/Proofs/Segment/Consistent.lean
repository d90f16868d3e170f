import SegmentedCache.Proofs.Segment.Chain
import SegmentedCache.Proofs.Segment.Records

namespace SegmentedCache.Segment

/-!
What holds of a segment between operations. Every entry stands in the chain of its bucket, every entry that counts
stands in both queues, and the sums agree with the entries.
-/

variable {K V : Type}

structure Queued (s : Segment K V) : Prop where
  arena : s.arena.WellFormed
  ranked : ∀ ranking, (s.queue ranking).ranking = ranking
  queued : ∀ ranking, (s.queue ranking).Holds s.arena (s.ordered ranking)
  sound : s.fault = none

/-- The links of the segment agree with its entries: chains and queues are lists that end, and each entry is in the
chain of its bucket. -/
structure Linked (s : Segment K V) : Prop extends s.Queued where
  table : ∃ exponent, s.table.size = 2 ^ exponent
  fillLimit : s.fillLimit = fillLimitOf s.table.size
  chained : ∀ bucket, IsChain s.arena (s.first? bucket) (s.chain bucket)
  mem_chain : ∀ bucket handle, handle ∈ s.chain bucket ↔
    ∃ entry, s.entry? handle = some entry ∧ s.bucket entry.hash = bucket

theorem queued_of_lists {s : Segment K V} {orders : Ranking → List Handle} (arena : s.arena.WellFormed)
    (ranked : ∀ ranking, (s.queue ranking).ranking = ranking)
    (queued : ∀ ranking, (s.queue ranking).Holds s.arena (orders ranking)) (sound : s.fault = none) :
    s.Queued ∧ ∀ ranking, s.ordered ranking = orders ranking := by
  have ordered_eq (ranking : Ranking) : s.ordered ranking = orders ranking := (queued ranking).toList_eq arena
  exact ⟨⟨arena, ranked, fun ranking => ordered_eq ranking ▸ queued ranking, sound⟩, ordered_eq⟩

theorem Queued.of_eq {s s' : Segment K V} (queued : s.Queued) (arena : s'.arena = s.arena)
    (queues : ∀ ranking, s'.queue ranking = s.queue ranking) (sound : s'.fault = s.fault) :
    s'.Queued ∧ ∀ ranking, s'.ordered ranking = s.ordered ranking := by
  apply queued_of_lists
  · rw [arena]
    exact queued.arena
  · intro ranking
    rw [queues, queued.ranked]
  · intro ranking
    rw [queues, arena]
    exact queued.queued ranking
  · rw [sound, queued.sound]

theorem linked_of_chains {s : Segment K V} {chains : Nat → List Handle} (queued : s.Queued)
    (table : ∃ exponent, s.table.size = 2 ^ exponent) (fillLimit : s.fillLimit = fillLimitOf s.table.size)
    (chained : ∀ bucket, IsChain s.arena (s.first? bucket) (chains bucket))
    (mem_chain : ∀ bucket handle, handle ∈ chains bucket ↔
      ∃ entry, s.entry? handle = some entry ∧ s.bucket entry.hash = bucket) : s.Linked := by
  have chain_eq (bucket : Nat) : s.chain bucket = chains bucket :=
    (chained bucket).chainFrom_eq ((chained bucket).length_le_size queued.arena)
  refine ⟨queued, table, fillLimit, ?_, ?_⟩
  · simpa only [chain_eq] using chained
  · simpa only [chain_eq] using mem_chain

theorem get?_of_found {s : Segment K V} {handle : Handle} {entry : Entry K V}
    (found : s.entry? handle = some entry) : ∃ threaded, s.arena.get? handle = some threaded :=
  (entry?_eq_some.mp found).imp fun _ => And.left

theorem next?_eq (s : Segment K V) (handle : Handle) : next? s.arena handle = (s.entry? handle).map (·.next) := by
  rw [next?, entry?, Option.map_map]
  rfl

theorem Queued.entry?_of_mem {s : Segment K V} (queued : s.Queued) {ranking : Ranking} {handle : Handle}
    (member : handle ∈ s.ordered ranking) : ∃ entry, s.entry? handle = some entry := by
  obtain ⟨threaded, found⟩ := (queued.queued ranking).live member
  exact ⟨threaded.item, entry?_eq_some.mpr ⟨threaded, found, rfl⟩⟩

theorem Queued.head_eq {s : Segment K V} (queued : s.Queued) (ranking : Ranking) :
    (s.queue ranking).head = (s.ordered ranking).head? :=
  (queued.queued ranking).head

namespace Linked

variable {s : Segment K V}

theorem table_pos (linked : s.Linked) : 0 < s.table.size := by
  obtain ⟨exponent, size⟩ := linked.table
  rw [size]
  exact Nat.two_pow_pos exponent

theorem bucket_lt (linked : s.Linked) (hash : UInt64) : s.bucket hash < s.table.size :=
  Nat.mod_lt _ linked.table_pos

end Linked

structure SameBooks (s s' : Segment K V) : Prop where
  policy : s'.policy = s.policy
  bound : s'.bound = s.bound
  count : s'.count = s.count
  weight : s'.weight = s.weight
  readLog : s'.readLog = s.readLog
  loads : s'.loads = s.loads
  removals : s'.removals = s.removals

theorem SameBooks.refl {s : Segment K V} : SameBooks s s := ⟨rfl, rfl, rfl, rfl, rfl, rfl, rfl⟩

theorem SameBooks.trans {s s' s'' : Segment K V} (first : SameBooks s s') (second : SameBooks s' s'') :
    SameBooks s s'' where
  policy := second.policy.trans first.policy
  bound := second.bound.trans first.bound
  count := second.count.trans first.count
  weight := second.weight.trans first.weight
  readLog := second.readLog.trans first.readLog
  loads := second.loads.trans first.loads
  removals := second.removals.trans first.removals

structure Consistent (s : Segment K V) : Prop extends s.Linked where
  mem_ordered : ∀ ranking handle, handle ∈ s.ordered ranking ↔
    ∃ entry, s.entry? handle = some entry ∧ entry.isReserved = false
  count_eq : s.count = s.total Entry.counts
  weight_eq : s.weight = s.total Entry.weighs

end SegmentedCache.Segment
