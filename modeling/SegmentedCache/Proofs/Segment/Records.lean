import Mathlib.Algebra.BigOperators.Group.List.Basic
import Mathlib.Algebra.Ring.Nat
import SegmentedCache.Proofs.Arena
import SegmentedCache.Segment.Audit

namespace SegmentedCache

/-!
The entries of a segment without their places in the chains. What a segment holds is a map from handles to such
records, and every sum over its entries is a sum over that map.
-/

variable {K V : Type}

namespace Entry

/-- The entry without its place in a chain. -/
def bare (entry : Entry K V) : Entry K V :=
  entry.setNext none

@[simp] theorem bare_setNext (next : Option Handle) (entry : Entry K V) : (entry.setNext next).bare = entry.bare :=
  rfl

@[simp] theorem bare_bare (entry : Entry K V) : entry.bare.bare = entry.bare := rfl

@[simp] theorem isReserved_bare (entry : Entry K V) : entry.bare.isReserved = entry.isReserved := rfl

@[simp] theorem visible?_bare (entry : Entry K V) : entry.bare.visible? = entry.visible? := rfl

@[simp] theorem load?_bare (entry : Entry K V) : entry.bare.load? = entry.load? := rfl

@[simp] theorem key_bare (entry : Entry K V) : entry.bare.key = entry.key := rfl

@[simp] theorem hash_bare (entry : Entry K V) : entry.bare.hash = entry.hash := rfl

@[simp] theorem content_bare (entry : Entry K V) : entry.bare.content = entry.content := rfl

@[simp] theorem weight_bare (entry : Entry K V) : entry.bare.weight = entry.weight := rfl

@[simp] theorem written_bare (entry : Entry K V) : entry.bare.written = entry.written := rfl

@[simp] theorem accessed_bare (entry : Entry K V) : entry.bare.accessed = entry.accessed := rfl

theorem isReserved_iff (entry : Entry K V) : entry.isReserved = true ↔ entry.visible? = none := by
  unfold isReserved visible?
  split
  · rename_i content
    simp [content]
  · rename_i other
    cases content : entry.content with
    | ready value => simp
    | loading load old =>
        cases old with
        | none => exact absurd content (other load)
        | some value => simp

theorem visible?_eq_none {entry : Entry K V} :
    entry.visible? = none ↔ ∃ load, entry.content = .loading load none := by
  unfold visible?
  cases content : entry.content with
  | ready value => simp
  | loading load old => simp

theorem isReserved_of_ne {entry : Entry K V} (other : ∀ load, entry.content ≠ .loading load none) :
    entry.isReserved = false := by
  unfold isReserved
  split
  · rename_i load content
    exact absurd content (other load)
  · rfl

theorem isReserved_eq_false {entry : Entry K V} :
    entry.isReserved = false ↔ ∃ value, entry.visible? = some value := by
  rw [← Bool.not_eq_true, isReserved_iff, ← ne_eq, Option.ne_none_iff_exists']

def counts (entry : Entry K V) : Nat :=
  if entry.isReserved then 0 else 1

def weighs (entry : Entry K V) : Nat :=
  if entry.isReserved then 0 else entry.weight

@[simp] theorem counts_bare (entry : Entry K V) : entry.bare.counts = entry.counts := rfl

@[simp] theorem weighs_bare (entry : Entry K V) : entry.bare.weighs = entry.weighs := rfl

@[simp] theorem isReserved_store (entry : Entry K V) (value : Shared V) (weight now : Nat) :
    (entry.store value weight now).isReserved = false := rfl

@[simp] theorem weight_store (entry : Entry K V) (value : Shared V) (weight now : Nat) :
    (entry.store value weight now).weight = weight := rfl

end Entry

namespace Segment

def bare? (s : Segment K V) (handle : Handle) : Option (Entry K V) :=
  (s.entry? handle).map Entry.bare

theorem bare?_eq_some {s : Segment K V} {handle : Handle} {record : Entry K V} :
    s.bare? handle = some record ↔ ∃ entry, s.entry? handle = some entry ∧ entry.bare = record :=
  Option.map_eq_some_iff

theorem bare?_of_found {s : Segment K V} {handle : Handle} {entry : Entry K V} (found : s.entry? handle = some entry) :
    s.bare? handle = some entry.bare := by
  rw [bare?, found, Option.map_some]

theorem exists_bare_iff {s : Segment K V} {handle : Handle} {p : Entry K V → Prop}
    (same : ∀ entry, p entry.bare ↔ p entry) :
    (∃ record, s.bare? handle = some record ∧ p record) ↔ ∃ entry, s.entry? handle = some entry ∧
      p entry := by
  simp only [bare?_eq_some]
  constructor
  · rintro ⟨_, ⟨entry, found, rfl⟩, holds⟩
    exact ⟨entry, found, (same entry).mp holds⟩
  · rintro ⟨entry, found, holds⟩
    exact ⟨entry.bare, ⟨entry, found, rfl⟩, (same entry).mpr holds⟩

theorem entry?_eq_some {s : Segment K V} {handle : Handle} {entry : Entry K V} :
    s.entry? handle = some entry ↔ ∃ threaded, s.arena.get? handle = some threaded ∧ threaded.item = entry :=
  Option.map_eq_some_iff

theorem mem_stored {s : Segment K V} {handle : Handle} {entry : Entry K V} :
    (handle, entry) ∈ s.stored ↔ s.entry? handle = some entry := by
  rw [entry?_eq_some, stored, List.mem_map]
  constructor
  · rintro ⟨⟨handle', threaded⟩, member, equal⟩
    cases equal
    exact ⟨threaded, Arena.mem_toList.mp member, rfl⟩
  · rintro ⟨threaded, found, rfl⟩
    exact ⟨(handle, threaded), Arena.mem_toList.mpr found, rfl⟩

theorem stored_handles (s : Segment K V) : s.stored.map (·.1) = s.arena.handles := by
  simp [stored, Arena.handles]

theorem stored_handles_nodup (s : Segment K V) : (s.stored.map (·.1)).Nodup := by
  rw [stored_handles]
  exact Arena.handles_nodup _

def records (s : Segment K V) : List (Handle × Entry K V) :=
  s.stored.map fun stored => (stored.1, stored.2.bare)

theorem mem_records {s : Segment K V} {handle : Handle} {record : Entry K V} :
    (handle, record) ∈ s.records ↔ s.bare? handle = some record := by
  rw [bare?_eq_some, records, List.mem_map]
  constructor
  · rintro ⟨⟨handle', entry⟩, member, equal⟩
    cases equal
    exact ⟨entry, mem_stored.mp member, rfl⟩
  · rintro ⟨entry, found, rfl⟩
    exact ⟨(handle, entry), mem_stored.mpr found, rfl⟩

theorem records_nodup (s : Segment K V) : s.records.Nodup := by
  have handles : s.records.map (·.1) = s.stored.map (·.1) := by simp [records]
  exact (handles ▸ s.stored_handles_nodup).of_map _

theorem records_perm {s : Segment K V} {records : List (Handle × Entry K V)} (distinct : records.Nodup)
    (same : ∀ handle record, (handle, record) ∈ records ↔ s.bare? handle = some record) :
    s.records.Perm records := by
  rw [List.perm_ext_iff_of_nodup s.records_nodup distinct]
  rintro ⟨handle, record⟩
  rw [mem_records, same]

section Total

variable {M : Type} [AddCommMonoid M]

def total (f : Entry K V → M) (s : Segment K V) : M :=
  (s.records.map fun record => f record.2).sum

theorem total_congr {s s' : Segment K V} (same : ∀ handle, s'.bare? handle = s.bare? handle) (f : Entry K V → M) :
    s'.total f = s.total f :=
  ((records_perm s.records_nodup fun handle record => by rw [mem_records, same]).map _).sum_eq

/-- The two segments differ at one handle at most, which stands for `before` in the first and for `after` in the
second. -/
structure Differ (s s' : Segment K V) (handle : Handle) (before after : Option (Entry K V)) : Prop where
  before : s.bare? handle = before
  after : s'.bare? handle = after
  others : ∀ other ≠ handle, s'.bare? other = s.bare? other

theorem records_split (s : Segment K V) (handle : Handle) :
    s.records.Perm ((s.bare? handle).toList.map (handle, ·) ++ s.records.filter (·.1 ≠ handle)) := by
  apply records_perm
  · rw [List.nodup_append]
    refine ⟨?_, s.records_nodup.filter _, ?_⟩
    · cases s.bare? handle <;> simp
    · rintro first member second member' rfl
      obtain ⟨record, _, rfl⟩ := List.mem_map.mp member
      simp at member'
  · intro other record
    simp only [List.mem_append, List.mem_map, Option.mem_toList, Prod.mk.injEq, List.mem_filter, mem_records]
    by_cases same : other = handle
    · simp [same]
    · simp [same, Ne.symm same]

theorem total_split (s : Segment K V) (handle : Handle) (f : Entry K V → M) :
    s.total f = (s.bare? handle).elim 0 f +
      ((s.records.filter (·.1 ≠ handle)).map fun record => f record.2).sum := by
  rw [total, ((s.records_split handle).map _).sum_eq, List.map_append, List.sum_append]
  cases s.bare? handle <;> simp

namespace Differ

variable {s s' : Segment K V} {handle : Handle} {before after : Option (Entry K V)}

theorem bare? (differ : Differ s s' handle before after) (other : Handle) :
    s'.bare? other = if other = handle then after else s.bare? other := by
  by_cases same : other = handle
  · rw [if_pos same, same, differ.after]
  · rw [if_neg same, differ.others other same]

theorem trans {s'' : Segment K V} {after' : Option (Entry K V)} (first : Differ s s' handle before after)
    (second : Differ s' s'' handle after after') : Differ s s'' handle before after' where
  before := first.before
  after := second.after
  others other different := (second.others other different).trans (first.others other different)

theorem total (differ : Differ s s' handle before after) (f : Entry K V → M) :
    s'.total f + before.elim 0 f = s.total f + after.elim 0 f := by
  have rest : (s'.records.filter (·.1 ≠ handle)).Perm (s.records.filter (·.1 ≠ handle)) := by
    rw [List.perm_ext_iff_of_nodup (s'.records_nodup.filter _) (s.records_nodup.filter _)]
    rintro ⟨other, record⟩
    simp only [List.mem_filter, mem_records, decide_eq_true_eq]
    refine and_congr_left fun different => ?_
    rw [differ.others other different]
  rw [total_split s handle, total_split s' handle, differ.before, differ.after, (rest.map _).sum_eq]
  ac_rfl

end Differ
end Total

theorem length_counted (s : Segment K V) : s.counted.length = s.total Entry.counts := by
  rw [counted, total, records, List.map_map]
  induction s.stored with
  | nil => rfl
  | cons first rest ih =>
      cases reserved : first.2.isReserved <;> simp_all [Entry.counts, Nat.add_comm]

theorem weight_counted (s : Segment K V) : (s.counted.map (·.weight)).sum = s.total Entry.weighs := by
  rw [counted, total, records, List.map_map]
  induction s.stored with
  | nil => rfl
  | cons first rest ih =>
      cases reserved : first.2.isReserved <;> simp_all [Entry.weighs]

end Segment
end SegmentedCache
