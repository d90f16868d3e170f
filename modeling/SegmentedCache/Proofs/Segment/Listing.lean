import SegmentedCache.Proofs.Segment.Flights

namespace SegmentedCache

/-!
What can be read of a segment. A lookup and a test follow the chain of a key, a listing goes over all entries, and what
they find is the same.
-/

variable {K V : Type}

def Finding.value? : Finding V → Option (Shared V)
  | live value _ => some value
  | pending _ | nothing => none

theorem Finding.isSome_value? (finding : Finding V) :
    finding.value?.isSome = true ↔ ∃ value refresh, finding = .live value refresh := by
  cases finding <;> simp [value?]

def Policy.shown? (policy : Policy K V) (reach : Reach) (now : Nat) (entry : Entry K V) :
    Option (Shared K × Shared V) := do
  guard (policy.stale? reach now entry).isNone
  return (← policy.key? reach entry, ← policy.value? reach entry)

theorem Policy.shown?_eq_some {policy : Policy K V} {reach : Reach} {now : Nat} {entry : Entry K V} {key : Shared K}
    {value : Shared V} :
    policy.shown? reach now entry = some (key, value) ↔
      policy.stale? reach now entry = none ∧ policy.value? reach entry = some value ∧
        policy.keyStrength.reaches reach entry.key = true ∧ entry.key = key := by
  unfold shown? key? guard
  cases policy.stale? reach now entry <;> cases policy.value? reach entry <;>
    cases policy.keyStrength.reaches reach entry.key <;> simp [and_comm]

theorem Policy.unreserved_of_shown {policy : Policy K V} {reach : Reach} {now : Nat} {entry : Entry K V}
    {pair : Shared K × Shared V} (shown : policy.shown? reach now entry = some pair) : entry.isReserved = false := by
  obtain ⟨_, visible, _⟩ := shown?_eq_some.mp shown
  exact Entry.isReserved_eq_false.mpr ⟨_, (Option.filter_eq_some_iff.mp visible).1⟩

namespace Segment

variable {s s' : Segment K V} {handle : Handle} {hash : K → UInt64} {reach held : Reach} {now : Nat}
  {ended : LoadId → Prop}

theorem toList_eq (s : Segment K V) (reach : Reach) (now : Nat) :
    s.toList reach now = s.stored.filterMap fun stored => s.policy.shown? reach now stored.2 := rfl

theorem mem_toList {pair : Shared K × Shared V} :
    pair ∈ s.toList reach now ↔
      ∃ handle entry, s.entry? handle = some entry ∧ s.policy.shown? reach now entry = some pair := by
  simp only [toList_eq, List.mem_filterMap, Prod.exists, mem_stored]

theorem standsFor_of_shown {entry : Entry K V} {pair : Shared K × Shared V} (found : s.entry? handle = some entry)
    (shown : s.policy.shown? reach now entry = some pair) : s.StandsFor reach pair.1.data handle := by
  obtain ⟨_, _, reached, same⟩ := Policy.shown?_eq_some.mp shown
  exact same ▸ standsFor_of_found found reached

theorem Only.listed {belongs : K → Prop} (only : s.Only belongs) {pair : Shared K × Shared V}
    (listed : pair ∈ s.toList reach now) : belongs pair.1.data := by
  obtain ⟨handle, entry, found, shown⟩ := mem_toList.mp listed
  obtain ⟨record, there, _, same⟩ := standsFor_of_shown found shown
  exact same ▸ only handle record there

theorem Keyed.nodup_toList (keyed : s.Keyed hash reach) (now : Nat) :
    ((s.toList reach now).map (·.1.data)).Nodup := by
  have handles := s.stored_handles_nodup
  rw [List.Nodup, List.pairwise_map] at handles
  rw [toList_eq, List.Nodup, List.pairwise_map, List.pairwise_filterMap]
  refine handles.imp_of_mem ?_
  rintro ⟨first, entry⟩ ⟨second, entry'⟩ stored stored' different pair shown pair' shown' same
  exact different (keyed.distinct pair.1.data first second (standsFor_of_shown (mem_stored.mp stored) shown)
    (same ▸ standsFor_of_shown (mem_stored.mp stored') shown'))

theorem Flights.not_listed (flights : Flights ended held s) {record : Entry K V} (found : s.bare? handle = some record)
    (reserved : record.isReserved = true) {pair : Shared K × Shared V} (listed : pair ∈ s.toList reach now) :
    pair.1.data ≠ record.key.data := by
  intro same
  obtain ⟨other, entry, live, shown⟩ := mem_toList.mp listed
  obtain ⟨_, _, _, own⟩ := Policy.shown?_eq_some.mp shown
  have here := flights.unique other handle entry.bare record (bare?_of_found live) found
    ((congrArg Shared.data own).trans same)
  subst here
  cases found.symm.trans (bare?_of_found live)
  exact Bool.false_ne_true ((Policy.unreserved_of_shown shown).symm.trans reserved)

theorem length_toList_le (s : Segment K V) (reach : Reach) (now : Nat) :
    (s.toList reach now).length ≤ s.counted.length := by
  rw [toList_eq, List.length_filterMap_eq_countP, counted, ← List.countP_eq_length_filter, List.countP_map]
  refine List.countP_mono_left fun stored _ shown => ?_
  obtain ⟨pair, shown⟩ := Option.isSome_iff_exists.mp shown
  simp [Policy.unreserved_of_shown shown]

section Read

variable [DecidableEq K] {code : UInt64} {key : K} {value : Shared V}

theorem read_value?_eq_some :
    (s.read reach now code key).1.value? = some value ↔
      ∃ handle entry, s.find? reach code key = some (handle, entry) ∧
      s.policy.stale? reach now entry = none ∧ s.policy.value? reach entry = some value := by
  have reading := s.reading reach now code key
  generalize s.read reach now code key = result at reading ⊢
  cases reading with
  | absent missing => simp [Finding.value?, missing]
  | awaited located reserved => simp [Finding.value?, located, Policy.value?, Entry.visible?, reserved]
  | stale located _ stale => simp [Finding.value?, located, stale]
  | live located counted fresh => simp [Finding.value?, located, fresh, Policy.value?_of_stale? fresh counted]

theorem Keyed.read_value?_eq_some (keyed : s.Keyed hash reach) (linked : s.Linked) :
    (s.read reach now (hash key) key).1.value? = some value ↔
      ∃ pair ∈ s.toList reach now, pair.1.data = key ∧ pair.2 = value := by
  rw [Segment.read_value?_eq_some]
  constructor
  · rintro ⟨handle, entry, located, fresh, shown⟩
    obtain ⟨live, reached, same⟩ := find?_eq_some located
    exact ⟨(entry.key, value),
      mem_toList.mpr ⟨handle, entry, live, Policy.shown?_eq_some.mpr ⟨fresh, shown, reached, rfl⟩⟩, same, rfl⟩
  · rintro ⟨⟨object, value⟩, listed, same, rfl⟩
    obtain ⟨handle, entry, live, shown⟩ := mem_toList.mp listed
    obtain ⟨fresh, visible, reached, rfl⟩ := Policy.shown?_eq_some.mp shown
    exact ⟨handle, entry, keyed.find?_eq linked live reached same, fresh, visible⟩

theorem contains_eq (s : Segment K V) (reach : Reach) (now : Nat) (code : UInt64) (key : K) :
    s.contains reach now code key = (s.read reach now code key).1.value?.isSome := by
  rw [Bool.eq_iff_iff, ← read_live_iff, Finding.isSome_value?]

end Read

end Segment
end SegmentedCache
