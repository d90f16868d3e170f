import SegmentedCache.Proofs.Segment.ReadBack
import SegmentedCache.Proofs.Segment.Sheltering

namespace SegmentedCache

/-!
Loads that find their entry when they end. The sweep before that may still take the entry away, and then the loaded
value goes nowhere.
-/

variable {K V : Type}

theorem Policy.isLost_of_strong {policy : Policy K V} (strong : policy.isStrong = true) (reach : Reach)
    (entry : Entry K V) : policy.isLost reach entry = false := by
  simp only [isStrong, Bool.and_eq_true, decide_eq_true_eq] at strong
  unfold isLost
  split
  · rfl
  · simp [strong, Strength.reaches]

namespace Segment

variable {s : Segment K V} {handle : Handle} {hash : K → UInt64} {reach : Reach} {now : Nat} {key : Shared K}
  {value : Shared V} {record : Entry K V}

theorem Consistent.sheltered_of_reserved (consistent : s.Consistent) (found : s.bare? handle = some record)
    (reserved : record.isReserved = true) : s.Sheltered reach now handle := by
  intro ranking inside
  obtain ⟨record', found', counted⟩ := consistent.stored_of_due (List.takeWhile_subset _ inside)
  cases found.symm.trans found'
  cases reserved.symm.trans counted

theorem sheltered_of_fresh (found : s.bare? handle = some record) (fresh : s.policy.stale? reach now record = none) :
    s.Sheltered reach now handle := by
  intro ranking inside
  have stale := List.mem_takeWhile_imp inside
  simp [found, isStale, fresh] at stale

theorem Sound.prepare_bare? (sound : s.Sound hash) :
    (s.prepare reach now).bare? handle = some record ↔
      s.bare? handle = some record ∧ s.Sheltered reach now handle := by
  rw [sound.consistent.prepare_bare?, Policy.isLost_of_strong sound.strong]
  simp

section Ends

variable [DecidableEq K] {load : LoadId}

theorem Sound.finishLoad_reports (sound : s.Sound hash) (unbounded : s.bound.isBounded = false)
    (found : s.bare? handle = some record) (own : record.load? = some load) (same : record.key.data = key.data)
    (sheltered : s.Sheltered reach now handle) :
    ∀ removal ∈ (s.finishLoad reach now key (hash key.data) load (some value)).removals, removal ∈ s.removals ∨
      record.visible? = some removal.value.object ∧ removal.cause = .replaced ∨
      ∃ other record', other ≠ handle ∧ s.bare? other = some record' ∧
        record'.visible? = some removal.value.object ∧
        s.policy.stale? reach now record' = some removal.cause := by
  have consistent := sound.consistent
  have left := sound.prepare_bare?.mpr ⟨found, sheltered⟩
  have purge := consistent.prepare reach now
  have consistent' := purge.consistent consistent
  have keyed' := purge.keyed consistent (sound.keyed reach)
  have bound := purge.bound consistent
  have reached (object : Shared K) : (s.prepare reach now).policy.keyStrength.reaches reach object = true := by
    rw [purge.policy consistent, strong_keys sound.strong]
    rfl
  obtain ⟨losses, thinned⟩ := consistent.prepare_thinned reach now
  have swept : ∀ removal ∈ (s.prepare reach now).removals, removal ∈ s.removals ∨
      ∃ other record', other ≠ handle ∧ s.bare? other = some record' ∧
      record'.visible? = some removal.value.object ∧
        s.policy.stale? reach now record' = some removal.cause := by
    intro removal reported
    rw [thinned.removals, List.append_nil, List.mem_append, List.mem_flatMap] at reported
    refine reported.imp_right fun ⟨loss, lost, told⟩ => ?_
    obtain ⟨old, visible, rfl⟩ := List.mem_map.mp told
    refine ⟨loss.handle, loss.record, ?_, thinned.held loss lost, Option.mem_toList.mp visible,
      thinned.permitted loss lost⟩
    rintro rfl
    rw [thinned.bare?, if_pos (List.mem_map_of_mem lost)] at left
    cases left
  obtain ⟨entry, live, rfl⟩ := bare?_eq_some.mp left
  have own : entry.load? = some load := own
  rw [finishLoad_of_own (keyed'.find?_eq consistent'.toLinked live (reached entry.key) same) own]
  generalize s.prepare reach now = t at *
  have unbounded (u : Segment K V) (kept : u.bound = t.bound) : u.evict reach (some handle) = u :=
    evict_of_unbounded (by rw [kept, bound, unbounded]) reach _
  cases visible : entry.visible? with
  | none =>
      obtain ⟨u, filled, stored⟩ := consistent'.storeLoaded_reserved live visible reach now key value
      rw [stored, unbounded u filled.bound, filled.removals]
      exact fun removal reported => (swept removal reported).imp_right .inr
  | some old =>
      obtain ⟨u, renewed, stored⟩ := consistent'.storeLoaded_counted live visible reach now key value
      rw [stored, unbounded u renewed.bound, renewed.removals]
      intro removal reported
      rcases List.mem_append.mp reported with earlier | replaced
      · exact (swept removal earlier).imp_right .inr
      · cases List.mem_singleton.mp replaced
        exact .inr (.inl ⟨visible, rfl⟩)

theorem Sound.finishLoad_of_exposed (sound : s.Sound hash) (found : s.bare? handle = some record)
    (same : record.key.data = key.data) (exposed : ¬ s.Sheltered reach now handle) :
    (∀ other record', (s.finishLoad reach now key (hash key.data) load (some value)).bare? other = some record' →
      record'.key.data ≠ key.data) ∧
      ∃ cause, { key := ⟨key, true⟩, value := ⟨value, true⟩, cause } ∈
        (s.finishLoad reach now key (hash key.data) load (some value)).removals := by
  have consistent := sound.consistent
  have purge := consistent.prepare reach now
  have consistent' := purge.consistent consistent
  have keyed' := purge.keyed consistent (sound.keyed reach)
  have policy := purge.policy consistent
  have absent : (s.prepare reach now).Absent reach key.data := by
    rintro other stands
    have earlier := stands.mono policy fun _ => purge.bare? consistent
    have reached : s.policy.keyStrength.reaches reach record.key = true := by
      rw [strong_keys sound.strong]
      rfl
    cases (sound.keyed reach).distinct key.data other handle earlier ⟨record, found, reached, same⟩
    obtain ⟨record', left, _⟩ := stands
    exact exposed (sound.prepare_bare?.mp left).2
  have missing := (keyed'.find?_eq_none consistent'.toLinked).mpr absent
  have strong := strong_keys sound.strong
  have finishing := s.finishing reach now key (hash key.data) load (some value)
  generalize s.prepare reach now = t at *
  generalize s.finishLoad reach now key (hash key.data) load (some value) = t' at finishing ⊢
  cases finishing with
  | stored located => cases missing.symm.trans located
  | reported =>
      refine ⟨fun other record' left same' => absent other ⟨record', left, ?_, same'⟩, ?_⟩
      · rw [policy, strong]
        rfl
      · exact ⟨_, List.mem_append_right _ (List.mem_singleton.mpr rfl)⟩

end Ends

end Segment
end SegmentedCache
