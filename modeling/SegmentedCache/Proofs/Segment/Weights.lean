import SegmentedCache.Proofs.Segment.FailedLoads
import SegmentedCache.Proofs.Segment.Storing

namespace SegmentedCache

/-!
What a segment weighs. Each counted entry weighs what the weigher makes of the value that readers see, and all of them
together stay within the bound.
-/

variable {K V : Type}

def Policy.price (policy : Policy K V) (entry : Entry K V) : Nat :=
  entry.visible?.elim 0 fun value => policy.weigh entry.key.data value.data

theorem Entry.Fresh.price {policy : Policy K V} {now : Nat} {key : Shared K} {value : Shared V} {entry : Entry K V}
    (fresh : entry.Fresh policy now key value) : entry.weighs = policy.price entry := by
  have visible : entry.visible? = some value := by rw [visible?, fresh.content]
  rw [fresh.weighs, Policy.price, visible, Option.elim_some, fresh.same]

theorem Bound.isExceededBy_mono {bound : Bound} {weight weight' : Nat} (le : weight ≤ weight')
    (within : bound.isExceededBy weight' = false) : bound.isExceededBy weight = false := by
  cases limit : bound.limit with
  | none => rw [isExceededBy, limit, Option.any_none]
  | some limit' =>
      simp only [isExceededBy, limit, Option.any_some, decide_eq_false_iff_not] at within ⊢
      omega

namespace Segment

variable {s s' : Segment K V} {handle : Handle} {reach : Reach} {now : Nat}

inductive Shrinks (reach : Reach) : Nat → Segment K V → Segment K V → Prop where
  | done {s : Segment K V} (within : s.bound.isExceededBy s.weight = false) : Shrinks reach 0 s s
  | evict {s s' : Segment K V} {handle : Handle} {steps : Nat} (exceeded : s.bound.isExceededBy s.weight = true)
      (victim : s.victim? = some handle)
      (rest : Shrinks reach steps (s.discard reach handle (s.trueCause reach handle .size)) s') :
      Shrinks reach (steps + 1) s s'

theorem Shrinks.within {steps : Nat} (shrinks : Shrinks reach steps s s') :
    s'.bound.isExceededBy s'.weight = false := by
  induction shrinks with
  | done within => exact within
  | evict _ _ _ ih => exact ih

theorem Consistent.shrinks (consistent : s.Consistent) (reach : Reach) {steps : Nat} (enough : s.count ≤ steps) :
    ∃ evictions ≤ s.count, Shrinks reach evictions s (evictOldest reach steps s) := by
  induction steps generalizing s with
  | zero =>
      have within : ¬ s.bound.isExceededBy s.weight = true := by
        intro exceeded
        obtain ⟨handle, entry, _, found, counted⟩ := consistent.victim exceeded
        have fewer := consistent.count_discard found counted reach .size
        omega
      rw [evictOldest, if_neg within]
      exact ⟨0, Nat.zero_le _, .done (Bool.not_eq_true _ ▸ within)⟩
  | succ steps ih =>
      rw [evictOldest]
      split
      · rename_i exceeded
        obtain ⟨handle, entry, located, found, counted⟩ := consistent.victim exceeded
        have discarded := consistent.discard found reach (s.trueCause reach handle .size)
        have fewer := consistent.count_discard found counted reach (s.trueCause reach handle .size)
        obtain ⟨evictions, le, rest⟩ := ih discarded.consistent (by omega)
        simp only [located]
        exact ⟨evictions + 1, by omega, .evict exceeded located rest⟩
      · rename_i within
        exact ⟨0, Nat.zero_le _, .done (Bool.not_eq_true _ ▸ within)⟩

theorem Consistent.evict_within (consistent : s.Consistent) (reach : Reach) (newest : Option Handle) :
    (s.evict reach newest).bound.isExceededBy (s.evict reach newest).weight = false := by
  unfold Segment.evict
  split
  · rename_i bounded
    have replayed := consistent.replayReads
    have oversized := evictOversized_purge (s := s.replayReads) (by rwa [replayed.bound]) reach newest
    obtain ⟨_, _, shrinks⟩ := (oversized.consistent replayed.consistent).shrinks reach le_rfl
    exact shrinks.within
  · rename_i unbounded
    have limit : s.bound.limit = none := by simpa [Bound.isBounded] using unbounded
    rw [Bound.isExceededBy, limit, Option.any_none]

def Priced (s : Segment K V) : Prop :=
  ∀ handle record, s.bare? handle = some record → record.weighs = s.policy.price record

structure Weighed (s : Segment K V) : Prop where
  consistent : s.Consistent
  priced : s.Priced
  within : s.bound.isExceededBy s.weight = false

theorem Transition.priced {before after : Option (Entry K V)} {ledger : Ledger K V}
    (transition : Transition s s' handle before after ledger) (policy : ledger.policy = s.policy) (priced : s.Priced)
    (fits : ∀ record, after = some record → record.weighs = s.policy.price record) : s'.Priced := by
  intro other record found
  rw [transition.differ.bare?] at found
  rw [transition.policy, policy]
  split at found
  · exact fits record found
  · exact priced other record found

theorem Transition.weighed {before after : Option (Entry K V)} {ledger : Ledger K V}
    (transition : Transition s s' handle before after ledger) (policy : ledger.policy = s.policy)
    (bound : ledger.bound = s.bound) (weighed : s.Weighed)
    (fits : ∀ record, after = some record → record.weighs = s.policy.price record)
    (light : after.elim 0 Entry.weighs ≤ before.elim 0 Entry.weighs) : s'.Weighed where
  consistent := transition.consistent
  priced := transition.priced policy weighed.priced fits
  within := by
    have total := transition.differ.total Entry.weighs
    rw [← transition.consistent.weight_eq, ← weighed.consistent.weight_eq] at total
    rw [transition.bound, bound]
    exact Bound.isExceededBy_mono (by omega) weighed.within

theorem Rebooked.weighed {ledger : Ledger K V} (rebooked : Rebooked s s' ledger) (policy : ledger.policy = s.policy)
    (bound : ledger.bound = s.bound) (weighed : s.Weighed) : s'.Weighed where
  consistent := rebooked.consistent
  priced handle record found := by
    rw [rebooked.policy, policy]
    exact weighed.priced handle record ((rebooked.bare? handle).symm.trans found)
  within := by
    rw [rebooked.bound, bound, rebooked.weight weighed.consistent]
    exact weighed.within

section Purging

variable {allowed : Entry K V → Cause → Prop}

theorem Purge.priced (purge : Purge reach allowed s s') (consistent : s.Consistent) (priced : s.Priced) :
    s'.Priced := by
  intro handle record left
  rw [purge.policy consistent]
  exact priced handle record (purge.bare? consistent left)

theorem Purge.weight_le (purge : Purge reach allowed s s') (consistent : s.Consistent) : s'.weight ≤ s.weight := by
  obtain ⟨losses, thinned⟩ := purge.thinned consistent
  have fewer := thinned.weight
  omega

theorem Purge.weighed (purge : Purge reach allowed s s') (weighed : s.Weighed) : s'.Weighed where
  consistent := purge.consistent weighed.consistent
  priced := purge.priced weighed.consistent weighed.priced
  within := by
    rw [purge.bound weighed.consistent]
    exact Bound.isExceededBy_mono (purge.weight_le weighed.consistent) weighed.within

end Purging

theorem Transition.used {entry : Entry K V} {ledger : Ledger K V}
    (transition : Transition s s' handle (some entry.bare) (some (s.policy.used now entry).bare) ledger)
    (policy : ledger.policy = s.policy) (bound : ledger.bound = s.bound) (weighed : s.Weighed) : s'.Weighed := by
  have same : (s.policy.used now entry).weighs = entry.weighs ∧
      s.policy.price (s.policy.used now entry) = s.policy.price entry := by
    unfold Policy.used
    split <;> exact ⟨rfl, rfl⟩
  apply transition.weighed policy bound weighed
  · rintro _ ⟨⟩
    exact same.1.trans ((weighed.priced _ _ transition.differ.before).trans same.2.symm)
  · exact same.1.le

theorem Consistent.evict_weighed (consistent : s.Consistent) (priced : s.Priced) (reach : Reach)
    (newest : Option Handle) : (s.evict reach newest).Weighed where
  consistent := (consistent.evict reach newest).consistent consistent
  priced := (consistent.evict reach newest).priced consistent priced
  within := consistent.evict_within reach newest

theorem Stores.weighed {key : Shared K} {value : Shared V} (stores : Stores now key value s s' handle)
    (weighed : s.Weighed) (reach : Reach) : (s'.evict reach (some handle)).Weighed := by
  obtain ⟨before, after, ledger, transition, fresh, policy, _⟩ := stores.transition
  apply transition.consistent.evict_weighed (transition.priced policy weighed.priced ?_)
  rintro _ ⟨⟩
  exact fresh.price

theorem Weighed.weight_eq (weighed : s.Weighed) : s.weight = (s.counted.map s.policy.price).sum := by
  rw [weighed.consistent.weight_eq, ← weight_counted]
  refine congrArg List.sum (List.map_congr_left fun entry member => ?_)
  obtain ⟨inside, unreserved⟩ := List.mem_filter.mp member
  obtain ⟨⟨handle, entry⟩, stored, rfl⟩ := List.mem_map.mp inside
  have priced := weighed.priced handle entry.bare (bare?_of_found (mem_stored.mp stored))
  rw [Bool.not_eq_true'] at unreserved
  rwa [Entry.weighs_bare, Entry.weighs, unreserved, if_neg Bool.false_ne_true] at priced

theorem Weighed.weight_eq_count (weighed : s.Weighed) (unweighed : s.policy.weigher = none) : s.weight = s.count := by
  rw [weighed.consistent.weight_eq, weighed.consistent.count_eq, total, total]
  refine congrArg List.sum (List.map_congr_left ?_)
  rintro ⟨handle, record⟩ member
  have priced := weighed.priced handle record (mem_records.mp member)
  have reserved := record.isReserved_iff
  simp only [priced, Policy.price, Policy.weigh, unweighed, Entry.counts]
  cases visible : record.visible? <;> simp [reserved, visible]

theorem weighed_create (policy : Policy K V) (bound : Bound) (exponent : Nat) :
    (create policy bound (2 ^ exponent)).Weighed where
  consistent := consistent_create policy bound exponent
  priced handle record found := by cases (bare?_create policy bound _ handle).symm.trans found
  within := by
    cases limit : bound.limit <;> simp [create, Bound.isExceededBy, limit]

theorem Weighed.giveUp (weighed : s.Weighed) {entry : Entry K V} (live : s.entry? handle = some entry) (reach : Reach) :
    (s.giveUp reach handle entry).Weighed := by
  obtain ⟨ledger, given_up, policy, bound, _, _⟩ := weighed.consistent.giveUp live reach
  have weight := entry.bare.weighs_forgone?
  apply given_up.weighed policy bound weighed
  · intro record forgone
    rw [forgone, Option.elim_some] at weight
    obtain ⟨old, counted, rfl⟩ := Option.map_eq_some_iff.mp forgone
    rw [weight, weighed.priced _ _ given_up.differ.before, Policy.price, Policy.price, counted]
    rfl
  · exact weight.le

section Operations

variable [DecidableEq K] {hash : K → UInt64}

theorem Runs.rules {op : Operation K V} {accepted : List (K × Shared V)} (runs : Runs hash reach now op accepted s s')
    (consistent : s.Consistent) : s'.policy = s.policy ∧ s'.bound = s.bound := by
  obtain ⟨before, after, first, act, last⟩ := runs.parts
  have consistent₁ := first.consistent consistent
  have consistent₂ := act.consistent consistent₁
  constructor
  · rw [last.policy consistent₂, act.rules.1, first.policy consistent]
  · rw [last.bound consistent₂, act.rules.2, first.bound consistent]

theorem Act.weighed {keyed : Prop} {op : Operation K V} {accepted : List (K × Shared V)}
    (act : Act hash reach now keyed op accepted s s') (quiet : op.stores = false) (weighed : s.Weighed) :
    s'.Weighed := by
  cases act with
  | idle => exact weighed
  | used _ _ transition => exact transition.used rfl rfl weighed
  | granted _ _ transition =>
      apply transition.weighed rfl rfl weighed
      · rintro _ ⟨⟩
        rfl
      · exact Nat.zero_le 0
  | @renewing _ _ _ entry _ _ _ value _ ready transition =>
      have visible : entry.visible? = some value := by rw [Entry.visible?, ready]
      have weight : (entry.setContent (.loading s.loads.size (some value))).weighs = entry.weighs := by
        simp [Entry.weighs, Entry.isReserved, Entry.setContent, ready]
      have price : s.policy.price (entry.setContent (.loading s.loads.size (some value))) = s.policy.price entry := by
        rw [Policy.price, Policy.price, visible]
        rfl
      apply transition.weighed rfl rfl weighed
      · rintro _ ⟨⟩
        exact weight.trans ((weighed.priced _ _ transition.differ.before).trans price.symm)
      · exact weight.le
  | filled writes | overwritten writes => cases writes <;> cases quiet
  | forgot rebooked => exact rebooked.weighed rfl rfl weighed
  | added | reverted | abandoned | reported | dropped => cases quiet

theorem Runs.weighed {op : Operation K V} {accepted : List (K × Shared V)}
    (runs : Runs hash reach now op accepted s s') (quiet : op.stores = false) (weighed : s.Weighed) : s'.Weighed := by
  obtain ⟨before, after, first, act, last⟩ := runs.parts
  exact last.weighed (act.weighed quiet (first.weighed weighed))

theorem Weighed.finishLoad (weighed : s.Weighed) (reach : Reach) (now : Nat) (key : Shared K) (load : LoadId)
    (loaded : Option (Shared V)) : (s.finishLoad reach now key (hash key.data) load loaded).Weighed := by
  have prepared := (weighed.consistent.prepare reach now).weighed weighed
  have finishing := s.finishing reach now key (hash key.data) load loaded
  generalize s.finishLoad reach now key (hash key.data) load loaded = s' at finishing ⊢
  generalize s.prepare reach now = t at *
  cases finishing with
  | dropped => exact prepared
  | reported => exact (prepared.consistent.report _).weighed rfl rfl prepared
  | forgone located => exact prepared.giveUp (find?_eq_some located).1 reach
  | @stored _ _ value located =>
      obtain ⟨live, _, same⟩ := find?_eq_some located
      obtain ⟨u, stores, stored⟩ := prepared.consistent.storeLoaded_stores live same reach now value
      exact stored ▸ stores.weighed prepared reach

theorem Weighed.insert (weighed : s.Weighed) (reach : Reach) (now : Nat) (key : Shared K) (value : Shared V)
    (onlyIfNew : Bool) : (s.insert reach now key (hash key.data) value onlyIfNew).2.Weighed := by
  obtain ⟨t, purge, _, inserted⟩ := weighed.consistent.insert_stores hash reach now key value onlyIfNew
  have prepared := purge.weighed weighed
  rcases inserted with ⟨u, handle, stores, _, stored⟩ | ⟨_, handle, entry, live, used⟩
  · exact stored ▸ stores.weighed prepared reach
  · exact used ▸ (prepared.consistent.use live now).used rfl rfl prepared

theorem Weighed.run (weighed : s.Weighed) (hash : K → UInt64) (reach : Reach) (now : Nat) (op : Operation K V) :
    (op.run hash reach now s).Weighed := by
  cases op with
  | finishLoad key load loaded => exact weighed.finishLoad reach now key load loaded
  | insert key value onlyIfNew => exact weighed.insert reach now key value onlyIfNew
  | read | claim | claimRefresh | remove | clear | releaseSoft | cleanUp =>
      exact (weighed.consistent.runs hash reach now _).weighed rfl weighed

end Operations

end Segment
end SegmentedCache
