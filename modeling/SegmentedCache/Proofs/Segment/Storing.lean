import SegmentedCache.Proofs.Segment.Ages
import SegmentedCache.Proofs.Segment.Losses
import SegmentedCache.Proofs.Segment.Operation

namespace SegmentedCache

/-!
Storing a value. Whichever way it comes in, it is the newest in both queues, and what is over the bound is evicted
afterwards.
-/

variable {K V : Type}

structure Entry.Fresh (policy : Policy K V) (now : Nat) (key : Shared K) (value : Shared V) (entry : Entry K V) :
    Prop where
  same : entry.key.data = key.data
  content : entry.content = .ready value
  weight : entry.weight = policy.weigh key.data value.data
  written : entry.written = now
  accessed : entry.accessed = now

theorem Entry.fresh_store {policy : Policy K V} {key : Shared K} {entry : Entry K V} (same : entry.key.data = key.data)
    (now : Nat) (value : Shared V) :
    (entry.store value (policy.weigh key.data value.data) now).bare.Fresh policy now key value :=
  ⟨same, rfl, rfl, rfl, rfl⟩

theorem Entry.Fresh.weighs {policy : Policy K V} {now : Nat} {key : Shared K} {value : Shared V} {entry : Entry K V}
    (fresh : entry.Fresh policy now key value) : entry.weighs = policy.weigh key.data value.data := by
  simp [Entry.weighs, isReserved, fresh.content, fresh.weight]

namespace Segment

variable {s s' : Segment K V} {handle : Handle} {reach : Reach} {now : Nat} {key : Shared K} {value : Shared V}

/-- The second segment is the first with a value stored in the entry of this handle, before anything is evicted. -/
structure Stores (now : Nat) (key : Shared K) (value : Shared V) (s s' : Segment K V) (handle : Handle) : Prop where
  transition : ∃ before after ledger, Transition s s' handle before (some after) ledger ∧
    after.Fresh s.policy now key value ∧ ledger.policy = s.policy ∧ ledger.bound = s.bound ∧
    ledger.readLog = s.readLog
  ordered : ∀ ranking, s'.ordered ranking = (s.ordered ranking).erase handle ++ [handle]

theorem Consistent.appended (consistent : s.Consistent)
    (uncounted : ∀ record, s.bare? handle = some record → record.visible? = none) (ranking : Ranking) :
    s.ordered ranking ++ [handle] = (s.ordered ranking).erase handle ++ [handle] := by
  have outside : handle ∉ s.ordered ranking := by
    rw [consistent.mem_ordered]
    rintro ⟨entry, live, counted⟩
    obtain ⟨old, visible⟩ := Entry.isReserved_eq_false.mp counted
    cases visible.symm.trans (uncounted entry.bare (bare?_of_found live))
  rw [List.erase_of_not_mem outside]

theorem Consistent.moved (consistent : s.Consistent) {entry : Entry K V} (live : s.entry? handle = some entry)
    {old : Shared V} (counted : entry.visible? = some old) (ranking : Ranking) :
    LinkedQueue.movedToEnd (s.ordered ranking) handle = (s.ordered ranking).erase handle ++ [handle] := by
  have inside : handle ∈ s.ordered ranking :=
    (consistent.mem_ordered ranking handle).mpr ⟨entry, live, Entry.isReserved_eq_false.mpr ⟨old, counted⟩⟩
  rw [LinkedQueue.movedToEnd, if_pos inside]

theorem Consistent.insertNew_stores (consistent : s.Consistent) (reach : Reach) (now : Nat) (key : Shared K)
    (hash : UInt64) (value : Shared V) :
    ∃ t handle, Stores now key value s t handle ∧
      s.insertNew reach now key hash value (s.policy.weigh key.data value.data) = t.evict reach (some handle) := by
  have added := consistent.add key hash value (s.policy.weigh key.data value.data) now
  refine ⟨_, _, ⟨⟨_, _, _, added, ⟨rfl, rfl, rfl, rfl, rfl⟩, rfl, rfl, rfl⟩, fun ranking => ?_⟩, rfl⟩
  rw [added.ordered]
  apply consistent.appended
  intro record found
  cases added.differ.before.symm.trans found

section Over

variable {entry : Entry K V}

theorem Consistent.fillReserved_stores (consistent : s.Consistent) (live : s.entry? handle = some entry)
    (reserved : entry.visible? = none) (same : entry.key.data = key.data) (reach : Reach) (now : Nat)
    (value : Shared V) :
    ∃ t, Stores now key value s t handle ∧
      s.fillReserved reach now value (s.policy.weigh key.data value.data) handle entry =
        t.evict reach (some handle) := by
  obtain ⟨t, filled, stored⟩ :=
    consistent.fillReserved live reserved reach now value (s.policy.weigh key.data value.data)
  refine ⟨t, ⟨⟨_, _, _, filled, Entry.fresh_store same now value, rfl, rfl, rfl⟩, fun ranking => ?_⟩,
    stored⟩
  rw [filled.ordered]
  apply consistent.appended
  intro record found
  cases (bare?_of_found live).symm.trans found
  exact reserved

theorem Consistent.overwrite_stores (consistent : s.Consistent) (live : s.entry? handle = some entry) {old : Shared V}
    (counted : entry.visible? = some old) (same : entry.key.data = key.data) (reach : Reach) (now : Nat)
    (value : Shared V) :
    ∃ t, Stores now key value s t handle ∧
      s.overwrite reach now key value (s.policy.weigh key.data value.data) handle entry old =
        t.evict reach (some handle) := by
  obtain ⟨t, renewed, stored⟩ :=
    consistent.overwrite live counted reach now key value (s.policy.weigh key.data value.data)
  refine ⟨t, ⟨⟨_, _, _, renewed, Entry.fresh_store same now value, rfl, rfl, rfl⟩, fun ranking => ?_⟩,
    stored⟩
  rw [renewed.ordered]
  exact consistent.moved live counted ranking

theorem Consistent.storeLoaded_stores (consistent : s.Consistent) (live : s.entry? handle = some entry)
    (same : entry.key.data = key.data) (reach : Reach) (now : Nat) (value : Shared V) :
    ∃ t, Stores now key value s t handle ∧
      s.storeLoaded reach now key value handle entry = t.evict reach (some handle) := by
  cases counted : entry.visible? with
  | none =>
      obtain ⟨t, filled, stored⟩ := consistent.storeLoaded_reserved live counted reach now key value
      refine ⟨t, ⟨⟨_, _, _, filled, Entry.fresh_store same now value, rfl, rfl, rfl⟩, fun ranking => ?_⟩,
        stored⟩
      rw [filled.ordered]
      apply consistent.appended
      intro record found
      cases (bare?_of_found live).symm.trans found
      exact counted
  | some old =>
      obtain ⟨t, renewed, stored⟩ := consistent.storeLoaded_counted live counted reach now key value
      refine ⟨t, ⟨⟨_, _, _, renewed, Entry.fresh_store same now value, rfl, rfl, rfl⟩, fun ranking => ?_⟩,
        stored⟩
      rw [renewed.ordered]
      exact consistent.moved live counted ranking

end Over

theorem Consistent.insert_swept [DecidableEq K] (consistent : s.Consistent) (hash : K → UInt64)
    (reach : Reach) (now : Nat) (key : Shared K) (value : Shared V) (onlyIfNew : Bool) :
    ∃ t, Purge reach (fun entry cause => s.policy.stale? reach now entry = some cause) s t ∧
      (s.policy.lifetime.isLimited = true → t.readLog = #[]) ∧ t.Reclaimed reach ∧
      ∃ handle, (s.Keyed hash reach → ∀ other, t.StandsFor reach key.data other → other = handle) ∧
        ((∃ u, Stores now key value t u handle ∧
            (s.insert reach now key (hash key.data) value onlyIfNew).2 = u.evict reach (some handle)) ∨
          onlyIfNew = true ∧ ∃ entry, t.entry? handle = some entry ∧ entry.key.data = key.data ∧
            entry.isReserved = false ∧
            (s.insert reach now key (hash key.data) value onlyIfNew).2 = t.use handle now) := by
  have prepared := (consistent.prepare reach now).mono fun _ _ => Policy.stale?_of_prepares
  have consistent' := prepared.consistent consistent
  have policy := prepared.policy consistent
  have replayed := consistent.prepare_readLog reach now
  have reclaimed := consistent.reclaimed_prepare reach now
  have inserting := s.inserting reach now key (hash key.data) value onlyIfNew
  generalize s.insert reach now key (hash key.data) value onlyIfNew = result at inserting ⊢
  generalize s.prepare reach now = t at *
  have only {handle : Handle} {entry : Entry K V}
      (located : t.find? reach (hash key.data) key.data = some (handle, entry)) (keyed : s.Keyed hash reach)
      (other : Handle) (stands : t.StandsFor reach key.data other) : other = handle :=
    (prepared.keyed consistent keyed).distinct key.data other handle stands (standsFor_of_find? located)
  cases inserting with dsimp only
  | absent missing =>
      obtain ⟨u, handle, stores, stored⟩ := consistent'.insertNew_stores reach now key (hash key.data) value
      refine ⟨t, prepared, replayed, reclaimed, handle, fun keyed other stands => ?_, .inl ⟨u, stores, stored⟩⟩
      exact absurd stands (((prepared.keyed consistent keyed).find?_eq_none consistent'.toLinked).mp missing other)
  | @stale _ handle entry cause located stale =>
      have live := (find?_eq_some located).1
      have discarded := consistent'.discard live reach cause
      have kept : (t.discard reach handle cause).policy = t.policy := discarded.policy
      have emptied : Purge reach (fun entry cause => s.policy.stale? reach now entry = some cause) t
          (t.discard reach handle cause) := .single live (policy ▸ stale)
      obtain ⟨u, handle', stores, stored⟩ :=
        discarded.consistent.insertNew_stores reach now key (hash key.data) value
      rw [kept] at stored
      refine ⟨_, prepared.trans emptied, fun limited => discarded.readLog.trans (replayed limited),
        emptied.reclaimed consistent' reclaimed, handle', fun keyed other stands => ?_, .inl ⟨u, stores, stored⟩⟩
      have absent := (prepared.keyed consistent keyed).absent_of_gone (standsFor_of_find? located) kept
        discarded.differ.after discarded.differ.others
      exact absurd stands (absent other)
  | @reserved _ handle entry located reserved =>
      obtain ⟨live, _, same⟩ := find?_eq_some located
      obtain ⟨u, stores, stored⟩ := consistent'.fillReserved_stores live reserved same reach now value
      exact ⟨t, prepared, replayed, reclaimed, handle, only located, .inl ⟨u, stores, stored⟩⟩
  | @turnedAway handle entry old located counted =>
      obtain ⟨live, _, same⟩ := find?_eq_some located
      exact ⟨t, prepared, replayed, reclaimed, handle, only located,
        .inr ⟨rfl, entry, live, same, Entry.isReserved_eq_false.mpr ⟨old, counted⟩, rfl⟩⟩
  | @overwritten handle entry old located counted =>
      obtain ⟨live, _, same⟩ := find?_eq_some located
      obtain ⟨u, stores, stored⟩ := consistent'.overwrite_stores live counted same reach now value
      exact ⟨t, prepared, replayed, reclaimed, handle, only located, .inl ⟨u, stores, stored⟩⟩

theorem Consistent.insert_stores [DecidableEq K] (consistent : s.Consistent) (hash : K → UInt64)
    (reach : Reach) (now : Nat) (key : Shared K) (value : Shared V) (onlyIfNew : Bool) :
    ∃ t, Purge reach (fun entry cause => s.policy.stale? reach now entry = some cause) s t ∧
      (s.policy.lifetime.isLimited = true → t.readLog = #[]) ∧
      ((∃ u handle, Stores now key value t u handle ∧
          (s.Keyed hash reach → ∀ other, t.StandsFor reach key.data other → other = handle) ∧
          (s.insert reach now key (hash key.data) value onlyIfNew).2 = u.evict reach (some handle)) ∨
        onlyIfNew = true ∧ ∃ handle entry, t.entry? handle = some entry ∧
          (s.insert reach now key (hash key.data) value onlyIfNew).2 = t.use handle now) := by
  obtain ⟨t, purge, replayed, _, handle, only, inserted⟩ :=
    consistent.insert_swept hash reach now key value onlyIfNew
  refine ⟨t, purge, replayed, ?_⟩
  rcases inserted with ⟨u, stores, stored⟩ | ⟨turned_away, entry, live, _, _, used⟩
  · exact .inl ⟨u, handle, stores, only, stored⟩
  · exact .inr ⟨turned_away, handle, entry, live, used⟩

theorem Consistent.finishLoad_swept [DecidableEq K] (consistent : s.Consistent) (hash : K → UInt64) (reach : Reach)
    (now : Nat) (key : Shared K) (load : LoadId) (value : Shared V) :
    ∃ t, Purge reach (fun entry cause => s.policy.stale? reach now entry = some cause) s t ∧
      (s.policy.lifetime.isLimited = true → t.readLog = #[]) ∧ t.Reclaimed reach ∧
      ((∃ u handle, Stores now key value t u handle ∧
          (s.Keyed hash reach → ∀ other, t.StandsFor reach key.data other → other = handle) ∧
          s.finishLoad reach now key (hash key.data) load (some value) = u.evict reach (some handle)) ∨
        (s.Keyed hash reach → ∀ handle, t.StandsFor reach key.data handle →
          ∀ record, t.bare? handle = some record →
            record.load? ≠ some load) ∧
          ∃ cause, s.finishLoad reach now key (hash key.data) load (some value) =
            t.report { key := ⟨key, true⟩, value := ⟨value, true⟩, cause }) := by
  have prepared := consistent.prepare reach now
  have consistent' := prepared.consistent consistent
  refine ⟨s.prepare reach now, prepared.mono fun _ _ => Policy.stale?_of_prepares,
    consistent.prepare_readLog reach now, consistent.reclaimed_prepare reach now, ?_⟩
  have finishing := s.finishing reach now key (hash key.data) load (some value)
  generalize s.finishLoad reach now key (hash key.data) load (some value) = s' at finishing ⊢
  generalize s.prepare reach now = t at *
  cases finishing with
  | reported gone =>
      refine .inr ⟨fun keyed handle stands record found own => ?_, _, rfl⟩
      obtain ⟨_, found', reached, same⟩ := stands
      cases found'.symm.trans found
      obtain ⟨entry, live, rfl⟩ := bare?_eq_some.mp found
      exact gone handle entry ((prepared.keyed consistent keyed).find?_eq consistent'.toLinked live reached same) own
  | @stored handle entry _ located own =>
      obtain ⟨live, _, same⟩ := find?_eq_some located
      obtain ⟨u, stores, stored⟩ := consistent'.storeLoaded_stores live same reach now value
      refine .inl ⟨u, handle, stores, fun keyed other stands => ?_, stored⟩
      exact (prepared.keyed consistent keyed).distinct key.data other handle stands (standsFor_of_find? located)

end Segment
end SegmentedCache
