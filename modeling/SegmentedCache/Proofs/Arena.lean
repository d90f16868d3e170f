import Mathlib.Data.List.Nodup
import Mathlib.Data.List.Perm.Basic
import SegmentedCache.Arena

namespace SegmentedCache.Arena

/-!
An arena is a map from handles to occupants. What is stored is found under the new handle alone, and a vacated slot
is found by nobody until it is filled again under the next generation.
-/

variable {α : Type}

theorem get?_eq_some {arena : Arena α} {handle : Handle} {value : α} :
    arena.get? handle = some value ↔
      arena.slots[handle.index]? = some (.occupied value handle.generation) := by
  unfold get?
  constructor
  · intro found
    split at found
    · rename_i slot
      split at found
      · rename_i same
        cases found
        rw [slot, same]
      · cases found
    · cases found
  · intro slot
    simp [slot]

theorem contains_iff {arena : Arena α} {handle : Handle} :
    arena.contains handle = true ↔ ∃ value, arena.get? handle = some value := by
  simp [contains, Option.isSome_iff_exists]

@[simp] theorem get?_empty (handle : Handle) : (empty : Arena α).get? handle = none := by
  simp [get?, empty]

theorem mem_toList {arena : Arena α} {handle : Handle} {value : α} :
    (handle, value) ∈ arena.toList ↔ arena.get? handle = some value := by
  obtain ⟨index, generation⟩ := handle
  rw [get?_eq_some, toList, List.mem_filterMap]
  constructor
  · rintro ⟨⟨position, slot⟩, member, equal⟩
    obtain ⟨_, bound, located⟩ := List.mem_mapIdx.mp member
    obtain ⟨rfl, located⟩ := Prod.mk.inj located
    cases slot with
    | vacant next generation' => cases equal
    | occupied value' generation' =>
        cases equal
        exact Array.getElem?_eq_some_iff.mpr ⟨by simpa using bound, by simpa using located⟩
  · intro slot
    obtain ⟨bound, located⟩ := Array.getElem?_eq_some_iff.mp slot
    exact ⟨(index, .occupied value generation),
      List.mem_mapIdx.mpr ⟨index, by simpa using bound, by simp [located]⟩, rfl⟩

theorem mem_handles {arena : Arena α} {handle : Handle} :
    handle ∈ arena.handles ↔ ∃ value, arena.get? handle = some value := by
  simp only [handles, List.mem_map, Prod.exists, exists_and_right, exists_eq_right, mem_toList]

theorem indices_increasing (arena : Arena α) : (arena.handles.map (·.index)).Pairwise (· < ·) := by
  have numbers : (arena.slots.toList.mapIdx fun index slot => (index, slot)).map (·.1) =
      List.range arena.slots.size := by
    apply List.ext_getElem <;> simp
  have ordered : ((arena.slots.toList.mapIdx fun index slot => (index, slot)).map (·.1)).Pairwise (· < ·) :=
    numbers ▸ List.pairwise_lt_range
  refine ordered.sublist ?_
  unfold handles toList
  generalize (arena.slots.toList.mapIdx fun index slot => (index, slot)) = numbered
  induction numbered with
  | nil => simp
  | cons first rest ih =>
      obtain ⟨index, slot⟩ := first
      cases slot with
      | vacant next generation => exact ih.cons index
      | occupied value generation => exact ih.cons_cons index

theorem handles_nodup (arena : Arena α) : arena.handles.Nodup :=
  List.Nodup.of_map Handle.index ((indices_increasing arena).imp Nat.ne_of_lt)

theorem toList_nodup (arena : Arena α) : arena.toList.Nodup :=
  (handles_nodup arena).of_map _

theorem toList_perm {arena : Arena α} {occupants : List (Handle × α)} (distinct : occupants.Nodup)
    (same : ∀ handle value, (handle, value) ∈ occupants ↔ arena.get? handle = some value) :
    arena.toList.Perm occupants := by
  rw [List.perm_ext_iff_of_nodup (toList_nodup arena) distinct]
  rintro ⟨handle, value⟩
  rw [mem_toList, same]

theorem get?_modify (arena : Arena α) (handle : Handle) (f : α → α) (other : Handle) :
    (arena.modify handle f).get? other =
      if other = handle then (arena.get? handle).map f else arena.get? other := by
  unfold modify
  cases found : arena.get? handle with
  | none =>
      by_cases same : other = handle
      · simp [same, found]
      · simp [same]
  | some value =>
      obtain ⟨bound, occupant⟩ := Array.getElem?_eq_some_iff.mp (get?_eq_some.mp found)
      by_cases same : other = handle
      · rw [if_pos same, same, Option.map_some, get?_eq_some]
        simp [bound]
      · rw [if_neg same]
        by_cases here : other.index = handle.index
        · have generations : handle.generation ≠ other.generation := by
            intro equal
            exact same (by cases other; cases handle; simp_all)
          simp [get?, here, occupant, bound, generations]
        · simp [get?, Array.getElem?_setIfInBounds_ne (Ne.symm here)]

@[simp] theorem size_modify (arena : Arena α) (handle : Handle) (f : α → α) :
    (arena.modify handle f).size = arena.size := by
  unfold modify
  cases arena.get? handle <;> rfl

@[simp] theorem vacated_modify (arena : Arena α) (handle : Handle) (f : α → α) :
    (arena.modify handle f).vacated = arena.vacated := by
  unfold modify
  cases arena.get? handle <;> rfl

theorem modify_vacant (arena : Arena α) (handle : Handle) (f : α → α) (index : Nat) (next : Option Nat)
    (generation : UInt32) :
    (arena.modify handle f).slots[index]? = some (.vacant next generation) ↔
      arena.slots[index]? = some (.vacant next generation) := by
  unfold modify
  cases found : arena.get? handle with
  | none => rfl
  | some value =>
      obtain ⟨bound, occupant⟩ := Array.getElem?_eq_some_iff.mp (get?_eq_some.mp found)
      by_cases here : handle.index = index
      · subst here
        simp [occupant, bound]
      · simp [Array.getElem?_setIfInBounds_ne here]

def Vacancies (slots : Array (Slot α)) : Option Nat → List Nat → Prop
  | start, [] => start = none
  | start, index :: rest =>
      start = some index ∧
        ∃ next generation, slots[index]? = some (.vacant next generation) ∧ Vacancies slots next rest

theorem Vacancies.congr {slots slots' : Array (Slot α)} {start : Option Nat} {stack : List Nat}
    (vacancies : Vacancies slots start stack)
    (same : ∀ index ∈ stack, ∀ next generation, slots[index]? = some (.vacant next generation) →
      slots'[index]? = some (.vacant next generation)) :
    Vacancies slots' start stack := by
  induction stack generalizing start with
  | nil => exact vacancies
  | cons index rest ih =>
      obtain ⟨first, next, generation, slot, onward⟩ := vacancies
      exact ⟨first, next, generation, same index (by simp) next generation slot,
        ih onward fun index' member => same index' (by simp [member])⟩

/-- `indices` are the vacant slots, last vacated first: the list of vacancies runs through each of them once. -/
structure Stack (arena : Arena α) (indices : List Nat) : Prop where
  threaded : Vacancies arena.slots arena.vacated indices
  distinct : indices.Nodup
  vacant : ∀ index, index ∈ indices ↔ ∃ next generation, arena.slots[index]? = some (.vacant next generation)

structure WellFormed (arena : Arena α) : Prop where
  size_eq : arena.toList.length = arena.size
  vacancies : ∃ stack, Vacancies arena.slots arena.vacated stack ∧ stack.Nodup ∧
    ∀ index, index ∈ stack ↔ ∃ next generation, arena.slots[index]? = some (.vacant next generation)

theorem WellFormed.length_handles {arena : Arena α} (wellFormed : arena.WellFormed) :
    arena.handles.length = arena.size := by
  rw [handles, List.length_map, wellFormed.size_eq]

theorem Stack.exists_vacancies {arena : Arena α} {indices : List Nat} (stack : arena.Stack indices) :
    ∃ stack, Vacancies arena.slots arena.vacated stack ∧ stack.Nodup ∧
      ∀ index, index ∈ stack ↔ ∃ next generation, arena.slots[index]? = some (.vacant next generation) :=
  ⟨indices, stack.threaded, stack.distinct, stack.vacant⟩

theorem WellFormed.exists_stack {arena : Arena α} (wellFormed : arena.WellFormed) :
    ∃ indices, arena.Stack indices := by
  obtain ⟨indices, threaded, distinct, vacant⟩ := wellFormed.vacancies
  exact ⟨indices, threaded, distinct, vacant⟩

theorem empty_stack : (empty : Arena α).Stack [] :=
  ⟨rfl, List.nodup_nil, by simp [empty]⟩

theorem empty_wellFormed : (empty : Arena α).WellFormed :=
  ⟨rfl, empty_stack.exists_vacancies⟩

theorem Stack.modify {arena : Arena α} {indices : List Nat} (stack : arena.Stack indices) (handle : Handle)
    (f : α → α) : (arena.modify handle f).Stack indices where
  threaded := by
    rw [vacated_modify]
    exact stack.threaded.congr fun index _ next generation => (modify_vacant ..).mpr
  distinct := stack.distinct
  vacant index := by simp only [stack.vacant, modify_vacant]

theorem modify_wellFormed {arena : Arena α} (wellFormed : arena.WellFormed) (handle : Handle) (f : α → α) :
    (arena.modify handle f).WellFormed where
  size_eq := by
    have live (other : Handle) : other ∈ (arena.modify handle f).handles ↔ other ∈ arena.handles := by
      simp only [mem_handles, get?_modify]
      split
      · rename_i same
        simp [same]
      · rfl
    have perm := (List.perm_ext_iff_of_nodup (handles_nodup _) (handles_nodup arena)).mpr live
    rw [size_modify, ← wellFormed.length_handles, ← perm.length_eq, handles, List.length_map]
  vacancies := by
    obtain ⟨indices, stack⟩ := wellFormed.exists_stack
    exact (stack.modify handle f).exists_vacancies

theorem insert_of_stack {arena : Arena α} {indices : List Nat} (stack : arena.Stack indices) (value : α) :
    (indices = [] ∧ arena.vacated = none ∧ arena.insert value = arena.append value) ∨
    ∃ index rest next generation, indices = index :: rest ∧ arena.vacated = some index ∧
      arena.slots[index]? = some (.vacant next generation) ∧ Vacancies arena.slots next rest ∧
      arena.insert value =
        (⟨index, generation⟩,
          { slots := arena.slots.setIfInBounds index (.occupied value generation)
            vacated := next
            size := arena.size + 1 }) := by
  cases indices with
  | nil =>
      have none_vacated : arena.vacated = none := stack.threaded
      exact .inl ⟨rfl, none_vacated, by simp [insert, none_vacated]⟩
  | cons index rest =>
      obtain ⟨first, next, generation, slot, onward⟩ := stack.threaded
      exact .inr ⟨index, rest, next, generation, rfl, first, slot, onward, by simp [insert, first, slot]⟩

theorem insert_cases {arena : Arena α} (wellFormed : arena.WellFormed) (value : α) :
    (arena.vacated = none ∧
      (∀ (index : Nat) next generation, arena.slots[index]? ≠ some (.vacant next generation)) ∧
      arena.insert value = arena.append value) ∨
    ∃ index next generation, arena.vacated = some index ∧
      arena.slots[index]? = some (.vacant next generation) ∧
      arena.insert value =
        (⟨index, generation⟩,
          { slots := arena.slots.setIfInBounds index (.occupied value generation)
            vacated := next
            size := arena.size + 1 }) := by
  obtain ⟨indices, stack⟩ := wellFormed.exists_stack
  rcases insert_of_stack stack value with
    ⟨rfl, start, grown⟩ | ⟨index, rest, next, generation, rfl, start, slot, _, filled⟩
  · refine .inl ⟨start, ?_, grown⟩
    intro index next generation slot
    exact List.not_mem_nil ((stack.vacant index).mpr ⟨next, generation, slot⟩)
  · exact .inr ⟨index, next, generation, start, slot, filled⟩

theorem get?_insert_fresh {arena : Arena α} (wellFormed : arena.WellFormed) (value : α) :
    arena.get? (arena.insert value).1 = none := by
  rcases insert_cases wellFormed value with ⟨_, _, grown⟩ | ⟨index, next, generation, _, slot, filled⟩
  · simp [grown, append, get?]
  · simp [filled, get?, slot]

theorem get?_insert {arena : Arena α} (wellFormed : arena.WellFormed) (value : α) (other : Handle) :
    (arena.insert value).2.get? other =
      if other = (arena.insert value).1 then some value else arena.get? other := by
  rcases insert_cases wellFormed value with ⟨_, _, grown⟩ | ⟨index, next, generation, _, slot, filled⟩
  · rw [grown]
    obtain ⟨index, generation⟩ := other
    simp only [append, get?, Array.getElem?_push]
    by_cases last : index = arena.slots.size
    · by_cases zero : generation = 0
      · simp [last, zero]
      · simp [last, zero, Ne.symm zero]
    · simp [last]
  · rw [filled]
    obtain ⟨bound, occupant⟩ := Array.getElem?_eq_some_iff.mp slot
    obtain ⟨index', generation'⟩ := other
    by_cases here : index' = index
    · by_cases same : generation' = generation
      · simp [get?, here, same, bound]
      · simp [get?, here, same, Ne.symm same, bound, occupant]
    · simp [get?, here, Array.getElem?_setIfInBounds_ne (Ne.symm here)]

theorem toList_insert {arena : Arena α} (wellFormed : arena.WellFormed) (value : α) :
    (arena.insert value).2.toList.Perm (((arena.insert value).1, value) :: arena.toList) := by
  have fresh := get?_insert_fresh wellFormed value
  apply toList_perm
  · rw [List.nodup_cons, mem_toList, fresh]
    exact ⟨nofun, toList_nodup arena⟩
  · intro handle value'
    rw [get?_insert wellFormed, List.mem_cons, mem_toList]
    by_cases same : handle = (arena.insert value).1
    · simp [same, fresh, eq_comm]
    · simp [same]

@[simp] theorem size_insert (arena : Arena α) (value : α) : (arena.insert value).2.size = arena.size + 1 := by
  unfold insert append
  split
  · rfl
  · split <;> rfl

theorem Stack.insert {arena : Arena α} {indices : List Nat} (stack : arena.Stack indices) (value : α) :
    (arena.insert value).2.Stack indices.tail := by
  rcases insert_of_stack stack value with
    ⟨rfl, start, grown⟩ | ⟨index, rest, next, generation, rfl, start, slot, onward, filled⟩
  · rw [grown]
    refine ⟨start, List.nodup_nil, ?_⟩
    intro index
    have full := stack.vacant index
    simp only [List.not_mem_nil, false_iff, not_exists, List.tail_nil, append, Array.getElem?_push] at full ⊢
    intro next generation
    split
    · simp
    · exact full next generation
  · obtain ⟨outside, distinct⟩ := List.nodup_cons.mp stack.distinct
    obtain ⟨bound, _⟩ := Array.getElem?_eq_some_iff.mp slot
    rw [filled]
    refine ⟨onward.congr ?_, distinct, ?_⟩
    · intro other member next' generation' kept
      have different : index ≠ other := fun same => outside (same ▸ member)
      simpa [Array.getElem?_setIfInBounds_ne different] using kept
    · intro other
      by_cases same : other = index
      · simp [same, outside, bound]
      · have vacant := stack.vacant other
        simpa [same, Array.getElem?_setIfInBounds_ne (Ne.symm same)] using vacant

theorem insert_wellFormed {arena : Arena α} (wellFormed : arena.WellFormed) (value : α) :
    (arena.insert value).2.WellFormed where
  size_eq := by
    rw [(toList_insert wellFormed value).length_eq, List.length_cons, wellFormed.size_eq, size_insert]
  vacancies := by
    obtain ⟨indices, stack⟩ := wellFormed.exists_stack
    exact (stack.insert value).exists_vacancies

theorem get?_remove (arena : Arena α) (handle other : Handle) :
    (arena.remove handle).2.get? other = if other = handle then none else arena.get? other := by
  unfold remove
  cases found : arena.get? handle with
  | none =>
      by_cases same : other = handle
      · simp [same, found]
      · simp [same]
  | some value =>
      obtain ⟨bound, occupant⟩ := Array.getElem?_eq_some_iff.mp (get?_eq_some.mp found)
      by_cases same : other = handle
      · simp [same, get?, bound]
      · rw [if_neg same]
        by_cases here : other.index = handle.index
        · have generations : handle.generation ≠ other.generation := by
            intro equal
            exact same (by cases other; cases handle; simp_all)
          simp [get?, here, bound, occupant, generations]
        · simp [get?, Array.getElem?_setIfInBounds_ne (Ne.symm here)]

theorem toList_remove {arena : Arena α} {handle : Handle} {value : α} (found : arena.get? handle = some value) :
    arena.toList.Perm ((handle, value) :: (arena.remove handle).2.toList) := by
  apply toList_perm
  · rw [List.nodup_cons, mem_toList, get?_remove, if_pos rfl]
    exact ⟨nofun, toList_nodup _⟩
  · intro other value'
    rw [List.mem_cons, mem_toList, get?_remove]
    by_cases same : other = handle
    · simp [same, found, eq_comm]
    · simp [same]

theorem size_remove {arena : Arena α} {handle : Handle} {value : α} (found : arena.get? handle = some value) :
    (arena.remove handle).2.size = arena.size - 1 := by
  simp [remove, found]

theorem Stack.remove {arena : Arena α} {indices : List Nat} (stack : arena.Stack indices) {handle : Handle}
    {value : α} (found : arena.get? handle = some value) :
    (arena.remove handle).2.Stack (handle.index :: indices) := by
  have slot := get?_eq_some.mp found
  obtain ⟨bound, _⟩ := Array.getElem?_eq_some_iff.mp slot
  have occupied : handle.index ∉ indices := by
    rw [stack.vacant, slot]
    simp
  refine ⟨?_, List.nodup_cons.mpr ⟨occupied, stack.distinct⟩, ?_⟩
  · simp only [Arena.remove, found]
    refine ⟨rfl, arena.vacated, handle.generation + 1, by simp [bound], stack.threaded.congr ?_⟩
    intro index member next generation kept
    have other : handle.index ≠ index := fun same => occupied (same ▸ member)
    simpa [Array.getElem?_setIfInBounds_ne other] using kept
  · intro index
    simp only [Arena.remove, found]
    by_cases same : index = handle.index
    · simp [same, bound]
    · have vacant := stack.vacant index
      simpa [same, Array.getElem?_setIfInBounds_ne (Ne.symm same)] using vacant

theorem remove_stale {arena : Arena α} {handle : Handle} (stale : arena.get? handle = none) :
    arena.remove handle = (none, arena) := by
  simp [remove, stale]

theorem remove_wellFormed {arena : Arena α} (wellFormed : arena.WellFormed) (handle : Handle) :
    (arena.remove handle).2.WellFormed := by
  cases found : arena.get? handle with
  | none => rwa [remove_stale found]
  | some value =>
      constructor
      · have count := (toList_remove found).length_eq
        rw [wellFormed.size_eq, List.length_cons] at count
        rw [size_remove found]
        omega
      · obtain ⟨indices, stack⟩ := wellFormed.exists_stack
        exact (stack.remove found).exists_vacancies

end SegmentedCache.Arena
