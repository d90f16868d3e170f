import SegmentedCache.Proofs.Segment.Ages
import SegmentedCache.Proofs.Segment.Cases

namespace SegmentedCache.Segment

/-!
Keys. As long as a key can be reached, at most one entry stands for it, and looking the key up finds that entry.
-/

variable {K V : Type} {s s' : Segment K V} {handle : Handle} {hash : K → UInt64} {reach : Reach} {key : K}

def StandsFor (s : Segment K V) (reach : Reach) (key : K) (handle : Handle) : Prop :=
  ∃ record, s.bare? handle = some record ∧ s.policy.keyStrength.reaches reach record.key = true ∧
    record.key.data = key

def Absent (s : Segment K V) (reach : Reach) (key : K) : Prop :=
  ∀ handle, ¬ s.StandsFor reach key handle

/-- Entries have the hashes of their keys, and of those that can be reached no two have equal keys. -/
structure Keyed (hash : K → UInt64) (reach : Reach) (s : Segment K V) : Prop where
  hashed : ∀ handle record, s.bare? handle = some record → record.hash = hash record.key.data
  distinct : ∀ key first second, s.StandsFor reach key first → s.StandsFor reach key second → first = second

theorem standsFor_of_found {entry : Entry K V} (found : s.entry? handle = some entry)
    (reached : s.policy.keyStrength.reaches reach entry.key = true) : s.StandsFor reach entry.key.data handle :=
  ⟨entry.bare, bare?_of_found found, reached, rfl⟩

theorem StandsFor.mono (stands : s'.StandsFor reach key handle) (policy : s'.policy = s.policy)
    (kept : ∀ record, s'.bare? handle = some record → s.bare? handle = some record) :
    s.StandsFor reach key handle := by
  obtain ⟨record, found, reached, rfl⟩ := stands
  exact ⟨record, kept record found, policy ▸ reached, rfl⟩

theorem Keyed.mono (keyed : s.Keyed hash reach) (policy : s'.policy = s.policy)
    (kept : ∀ handle record, s'.bare? handle = some record → s.bare? handle = some record) :
    s'.Keyed hash reach where
  hashed handle record found := keyed.hashed handle record (kept handle record found)
  distinct key first second stands stands' :=
    keyed.distinct key first second (stands.mono policy (kept first)) (stands'.mono policy (kept second))

theorem Purge.keyed {allowed : Entry K V → Cause → Prop} (purge : Purge reach allowed s s')
    (consistent : s.Consistent) (keyed : s.Keyed hash reach) : s'.Keyed hash reach :=
  keyed.mono (purge.policy consistent) fun _ _ => purge.bare? consistent

section Find

variable [DecidableEq K]

theorem live_of_find? {code : UInt64} {entry : Entry K V} (found : s.find? reach code key = some (handle, entry)) :
    s.entry? handle = some entry ∧ s.policy.standsFor reach code key entry = true := by
  obtain ⟨other, _, located⟩ := List.exists_of_findSome?_eq_some found
  obtain ⟨entry', kept, equal⟩ := Option.map_eq_some_iff.mp located
  cases equal
  exact Option.filter_eq_some_iff.mp kept

theorem find?_eq_some {code : UInt64} {entry : Entry K V} (found : s.find? reach code key = some (handle, entry)) :
    s.entry? handle = some entry ∧ s.policy.keyStrength.reaches reach entry.key = true ∧ entry.key.data = key := by
  obtain ⟨live, stands⟩ := live_of_find? found
  simp only [Policy.standsFor, Bool.and_eq_true, decide_eq_true_eq] at stands
  exact ⟨live, stands.1.2, stands.2⟩

theorem standsFor_of_find? {code : UInt64} {entry : Entry K V}
    (found : s.find? reach code key = some (handle, entry)) : s.StandsFor reach key handle := by
  obtain ⟨live, reached, rfl⟩ := find?_eq_some found
  exact standsFor_of_found live reached

theorem Keyed.find?_eq (keyed : s.Keyed hash reach) (linked : s.Linked) {entry : Entry K V}
    (found : s.entry? handle = some entry) (reached : s.policy.keyStrength.reaches reach entry.key = true)
    (same : entry.key.data = key) : s.find? reach (hash key) key = some (handle, entry) := by
  subst same
  have hashed : entry.hash = hash entry.key.data := keyed.hashed handle entry.bare (bare?_of_found found)
  have chained : handle ∈ s.chain (s.bucket (hash entry.key.data)) :=
    (linked.mem_chain _ _).mpr ⟨entry, found, by rw [hashed]⟩
  have located : (s.find? reach (hash entry.key.data) entry.key.data).isSome := by
    rw [Segment.find?, List.findSome?_isSome_iff]
    refine ⟨handle, chained, ?_⟩
    simp [found, Policy.standsFor, hashed, reached]
  obtain ⟨⟨other, entry'⟩, located⟩ := Option.isSome_iff_exists.mp located
  have same := keyed.distinct _ _ _ (standsFor_of_find? located) (standsFor_of_found found reached)
  obtain ⟨found', _, _⟩ := find?_eq_some located
  rw [same, found] at found'
  rw [located, same, Option.some.inj found']

theorem Keyed.find?_eq_none (keyed : s.Keyed hash reach) (linked : s.Linked) :
    s.find? reach (hash key) key = none ↔ s.Absent reach key := by
  constructor
  · rintro missing handle ⟨record, found, reached, same⟩
    obtain ⟨entry, live, rfl⟩ := bare?_eq_some.mp found
    have located := keyed.find?_eq linked live reached same
    cases missing.symm.trans located
  · intro absent
    cases located : s.find? reach (hash key) key with
    | none => rfl
    | some found => exact absurd (standsFor_of_find? located) (absent found.1)

end Find

theorem Keyed.absent_of_gone (keyed : s.Keyed hash reach) (stands : s.StandsFor reach key handle)
    (policy : s'.policy = s.policy) (gone : s'.bare? handle = none)
    (others : ∀ other ≠ handle, s'.bare? other = s.bare? other) : s'.Absent reach key := by
  intro other stands'
  by_cases same : other = handle
  · obtain ⟨record, found, _⟩ := stands'
    rw [same, gone] at found
    cases found
  · have earlier := stands'.mono policy fun record found => (others other same).symm.trans found
    exact same (keyed.distinct key other handle earlier stands)

section Live

variable [DecidableEq K] {now : Nat}

theorem read_live_iff (s : Segment K V) (reach : Reach) (now : Nat) (code : UInt64) (key : K) :
    (∃ value refresh, (s.read reach now code key).1 = .live value refresh) ↔
      s.contains reach now code key = true := by
  have reading := s.reading reach now code key
  generalize s.read reach now code key = result at reading ⊢
  cases reading with
  | absent missing => simp [contains, missing]
  | awaited located reserved => simp [contains, located, Entry.isReserved, reserved]
  | stale located _ stale => simp [contains, located, stale]
  | live located counted fresh => simp [contains, located, fresh, Entry.isReserved_eq_false.mpr ⟨_, counted⟩]

theorem read_of_missed {code : UInt64}
    (missed : ∀ value refresh, (s.read reach now code key).1 ≠ .live value refresh) :
    (s.read reach now code key).2 = s := by
  have reading := s.reading reach now code key
  generalize s.read reach now code key = result at reading missed ⊢
  cases reading with
  | live => exact absurd rfl (missed _ _)
  | absent | awaited | stale => rfl

theorem Consistent.contains_prepare (consistent : s.Consistent) (keyed : s.Keyed hash reach) :
    (s.prepare reach now).contains reach now (hash key) key = s.contains reach now (hash key) key := by
  have prepared := consistent.prepare reach now
  have policy := prepared.policy consistent
  have consistent' := prepared.consistent consistent
  have keyed' := prepared.keyed consistent keyed
  have same {earlier entry : Entry K V} (bare : earlier.bare = entry.bare) :
      earlier.key = entry.key ∧ earlier.isReserved = entry.isReserved ∧
        s.policy.stale? reach now earlier = s.policy.stale? reach now entry := by
    refine ⟨congrArg (·.key) bare, congrArg (·.isReserved) bare, ?_⟩
    show s.policy.stale? reach now earlier.bare = s.policy.stale? reach now entry.bare
    rw [bare]
  rw [Bool.eq_iff_iff]
  simp only [contains, Option.any_eq_true, Bool.and_eq_true, Bool.not_eq_true', Option.isNone_iff_eq_none, policy]
  constructor
  · rintro ⟨⟨handle, entry⟩, located, counted, fresh⟩
    obtain ⟨live, reached, own⟩ := find?_eq_some located
    obtain ⟨earlier, found, bare⟩ := bare?_eq_some.mp (prepared.bare? consistent (bare?_of_found live))
    obtain ⟨key_eq, reserved, stale⟩ := same bare
    exact ⟨(handle, earlier), keyed.find?_eq consistent.toLinked found (key_eq ▸ policy ▸ reached)
      (key_eq ▸ own), reserved ▸ counted, stale ▸ fresh⟩
  · rintro ⟨⟨handle, earlier⟩, located, counted, fresh⟩
    obtain ⟨found, reached, own⟩ := find?_eq_some located
    have kept := prepared.kept consistent (bare?_of_found found) fun cause swept => by
      cases fresh.symm.trans (Policy.stale?_of_prepares swept)
    obtain ⟨entry, live, bare⟩ := bare?_eq_some.mp kept
    obtain ⟨key_eq, reserved, stale⟩ := same bare.symm
    exact ⟨(handle, entry), keyed'.find?_eq consistent'.toLinked live (key_eq ▸ policy.symm ▸ reached)
      (key_eq ▸ own), reserved ▸ counted, stale ▸ fresh⟩

theorem Consistent.needless_iff (consistent : s.Consistent) (keyed : s.Keyed hash reach) (now : Nat)
    (thread : ThreadId) (key : Shared K) :
    (∃ value, (s.claim reach now thread key (hash key.data)).1 = .needless value) ↔
      s.contains reach now (hash key.data) key.data = true := by
  have granted (t : Segment K V) (value : Shared V) :
      (t.grant now thread key (hash key.data)).1 ≠ .needless value := nofun
  rw [← consistent.contains_prepare keyed]
  have claiming := s.claiming reach now thread key (hash key.data)
  generalize s.claim reach now thread key (hash key.data) = result at claiming ⊢
  cases claiming with
  | absent missing => simp [contains, missing, granted]
  | awaited located _ unread => rcases unread with reserved | stale <;> simp_all [contains]
  | live located counted fresh => simp [contains, located, fresh, Entry.isReserved_eq_false.mpr ⟨_, counted⟩]
  | stale located _ stale => simp [contains, located, stale, granted]

end Live

end SegmentedCache.Segment
