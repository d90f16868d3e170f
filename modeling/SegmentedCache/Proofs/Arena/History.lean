import Mathlib.Algebra.Group.Nat.Defs
import SegmentedCache.Proofs.Arena

namespace SegmentedCache.Arena

/-!
What became of an arena is known from what was done with it. A handle finds the value that was stored under it until
it is removed, and never again, whoever moves into its slot; slots are filled again in the reverse order in which
they were vacated.
-/

variable {α : Type}

inductive Event (α : Type) where
  | inserted (handle : Handle) (value : α)
  | removed (handle : Handle) (answer : Option α)
  | got (handle : Handle) (answer : Option α)
  | modified (handle : Handle) (f : α → α)

/-- `arena` is what `history`, latest event first, made of an empty one. Any handle may be asked for at any time. -/
inductive Recorded : List (Event α) → Arena α → Prop where
  | empty : Recorded [] empty
  | insert {history : List (Event α)} {arena : Arena α} (recorded : Recorded history arena) (value : α) :
      Recorded (.inserted (arena.insert value).1 value :: history) (arena.insert value).2
  | remove {history : List (Event α)} {arena : Arena α} (recorded : Recorded history arena) (handle : Handle) :
      Recorded (.removed handle (arena.remove handle).1 :: history) (arena.remove handle).2
  | get {history : List (Event α)} {arena : Arena α} (recorded : Recorded history arena) (handle : Handle) :
      Recorded (.got handle (arena.get? handle) :: history) arena
  | modify {history : List (Event α)} {arena : Arena α} (recorded : Recorded history arena) (handle : Handle)
      (f : α → α) : Recorded (.modified handle f :: history) (arena.modify handle f)

def issued : List (Event α) → List Handle
  | [] => []
  | .inserted handle _ :: past => handle :: issued past
  | _ :: past => issued past

def removed : List (Event α) → List Handle
  | [] => []
  | .removed handle (some _) :: past => handle :: removed past
  | _ :: past => removed past

def written : List (Event α) → Handle → Option α
  | [], _ => none
  | .inserted handle value :: past, wanted => if wanted = handle then some value else written past wanted
  | .modified handle f :: past, wanted =>
      if wanted = handle then (written past wanted).map f else written past wanted
  | _ :: past, wanted => written past wanted

/-- What a handle finds: its value, if it was given out and not yet removed. -/
def recalled (history : List (Event α)) (handle : Handle) : Option α :=
  if handle ∈ issued history ∧ handle ∉ removed history then written history handle else none

def Answered : List (Event α) → Prop
  | [] => True
  | .removed handle answer :: past | .got handle answer :: past => answer = recalled past handle ∧ Answered past
  | _ :: past => Answered past

def vacancies : List (Event α) → List Nat
  | [] => []
  | .inserted _ _ :: past => (vacancies past).tail
  | .removed handle (some _) :: past => handle.index :: vacancies past
  | _ :: past => vacancies past

def Slot.generation : Slot α → UInt32
  | .vacant _ generation | .occupied _ generation => generation

/-- The generation of the occupant of a slot, or of the next one when the slot is vacant. -/
def generation? (arena : Arena α) (index : Nat) : Option UInt32 :=
  arena.slots[index]?.map Slot.generation

theorem generation?_of_get? {arena : Arena α} {handle : Handle} {value : α}
    (found : arena.get? handle = some value) : arena.generation? handle.index = some handle.generation := by
  rw [generation?, get?_eq_some.mp found]
  rfl

theorem generation?_eq_none {arena : Arena α} {index : Nat} :
    arena.generation? index = none ↔ arena.slots.size ≤ index := by
  simp [generation?]

theorem insert_slot {arena : Arena α} {indices : List Nat} (stack : arena.Stack indices) (value : α) :
    (arena.insert value).1.index = indices.head?.getD arena.slots.size ∧
      (arena.insert value).2.slots.size = (if indices = [] then arena.slots.size + 1 else arena.slots.size) ∧
      (arena.insert value).1.generation = (arena.generation? (arena.insert value).1.index).getD 0 ∧
      ∀ index, (arena.insert value).2.generation? index =
        if index = (arena.insert value).1.index then some (arena.insert value).1.generation
        else arena.generation? index := by
  rcases insert_of_stack stack value with
    ⟨rfl, start, grown⟩ | ⟨index, rest, next, generation, rfl, start, slot, onward, filled⟩
  · rw [grown]
    refine ⟨rfl, by simp [append], by simp [append, generation?], ?_⟩
    intro index
    by_cases last : index = arena.slots.size <;> simp [append, generation?, Array.getElem?_push, last, Slot.generation]
  · obtain ⟨bound, _⟩ := Array.getElem?_eq_some_iff.mp slot
    rw [filled]
    refine ⟨rfl, by simp, by simp [generation?, slot, Slot.generation], ?_⟩
    intro other
    by_cases same : other = index
    · simp [generation?, same, bound, Slot.generation]
    · simp [generation?, same, Array.getElem?_setIfInBounds_ne (Ne.symm same)]

theorem generation?_remove {arena : Arena α} {handle : Handle} {value : α} (found : arena.get? handle = some value)
    (index : Nat) : (arena.remove handle).2.generation? index =
      if index = handle.index then some (handle.generation + 1) else arena.generation? index := by
  obtain ⟨bound, _⟩ := Array.getElem?_eq_some_iff.mp (get?_eq_some.mp found)
  by_cases same : index = handle.index
  · simp [remove, found, generation?, same, bound, Slot.generation]
  · simp [remove, found, generation?, same, Array.getElem?_setIfInBounds_ne (Ne.symm same)]

theorem slots_size_remove (arena : Arena α) (handle : Handle) :
    (arena.remove handle).2.slots.size = arena.slots.size := by
  unfold remove
  cases arena.get? handle <;> simp

theorem generation?_modify (arena : Arena α) (handle : Handle) (f : α → α) (index : Nat) :
    (arena.modify handle f).generation? index = arena.generation? index := by
  unfold modify
  cases found : arena.get? handle with
  | none => rfl
  | some value =>
      obtain ⟨bound, occupant⟩ := Array.getElem?_eq_some_iff.mp (get?_eq_some.mp found)
      by_cases same : index = handle.index
      · simp [generation?, same, bound, occupant, Slot.generation]
      · simp [generation?, Array.getElem?_setIfInBounds_ne (Ne.symm same)]

theorem slots_size_modify (arena : Arena α) (handle : Handle) (f : α → α) :
    (arena.modify handle f).slots.size = arena.slots.size := by
  unfold modify
  cases arena.get? handle <;> simp

def turns (history : List (Event α)) (index : Nat) : Nat :=
  (removed history).countP (·.index = index)

/-- What ties an arena to its history. As long as generations do not start again, the generation of a slot is the
number of its turns, and whoever was removed belongs to an earlier one. -/
structure Tracked (history : List (Event α)) (arena : Arena α) : Prop where
  wellFormed : arena.WellFormed
  stack : arena.Stack (vacancies history)
  known : ∀ handle, handle ∈ issued history ↔
    (∃ value, arena.get? handle = some value) ∨ handle ∈ removed history
  generation : ∀ index generation, arena.generation? index = some generation →
    generation.toNat = turns history index
  past : ∀ handle ∈ removed history,
    handle.index < arena.slots.size ∧ handle.generation.toNat < turns history handle.index
  fresh : (issued history).Nodup
  once : (removed history).Nodup
  value : ∀ handle value, arena.get? handle = some value → written history handle = some value
  answered : Answered history

namespace Tracked

variable {history : List (Event α)} {arena : Arena α}

theorem empty : Tracked [] (empty : Arena α) where
  wellFormed := empty_wellFormed
  stack := empty_stack
  known := by simp [issued, removed]
  generation := by simp [generation?, Arena.empty]
  past := by simp [removed]
  fresh := List.nodup_nil
  once := List.nodup_nil
  value := by simp
  answered := trivial

theorem not_removed (tracked : Tracked history arena) {handle : Handle} {value : α}
    (found : arena.get? handle = some value) : handle ∉ removed history := by
  intro gone
  have reached := tracked.generation _ _ (generation?_of_get? found)
  have earlier := (tracked.past handle gone).2
  omega

theorem get?_eq_recalled (tracked : Tracked history arena) (handle : Handle) :
    arena.get? handle = recalled history handle := by
  unfold recalled
  cases found : arena.get? handle with
  | some value =>
      rw [if_pos ⟨(tracked.known handle).mpr (.inl ⟨value, found⟩), tracked.not_removed found⟩,
        tracked.value handle value found]
  | none =>
      rw [if_neg]
      rintro ⟨given, kept⟩
      rcases (tracked.known handle).mp given with ⟨value, found'⟩ | gone
      · rw [found] at found'
        cases found'
      · exact kept gone

theorem turns_eq_zero (tracked : Tracked history arena) {index : Nat} (outside : arena.slots.size ≤ index) :
    turns history index = 0 := by
  rw [turns, List.countP_eq_zero]
  intro handle gone
  have inside := (tracked.past handle gone).1
  simp only [decide_eq_true_eq]
  omega

theorem generation_insert (tracked : Tracked history arena) (value : α) :
    (arena.insert value).1.generation.toNat = turns history (arena.insert value).1.index := by
  obtain ⟨_, _, generation_eq, _⟩ := insert_slot tracked.stack value
  rw [generation_eq]
  cases reached : arena.generation? (arena.insert value).1.index with
  | none =>
      rw [tracked.turns_eq_zero (generation?_eq_none.mp reached)]
      rfl
  | some generation => exact tracked.generation _ _ reached

theorem not_issued_insert (tracked : Tracked history arena) (value : α) :
    (arena.insert value).1 ∉ issued history := by
  rw [tracked.known, get?_insert_fresh tracked.wellFormed value]
  rintro (⟨_, ⟨⟩⟩ | gone)
  have earlier := (tracked.past _ gone).2
  have now := tracked.generation_insert value
  omega

theorem insert (tracked : Tracked history arena) (value : α) :
    Tracked (.inserted (arena.insert value).1 value :: history) (arena.insert value).2 := by
  obtain ⟨_, size_eq, _, generations⟩ := insert_slot tracked.stack value
  have get := get?_insert tracked.wellFormed value
  constructor
  · exact insert_wellFormed tracked.wellFormed value
  · exact tracked.stack.insert value
  · intro handle
    change handle ∈ _ :: issued history ↔ _ ∨ handle ∈ removed history
    rw [List.mem_cons, tracked.known, get]
    by_cases same : handle = (arena.insert value).1
    · simp [same]
    · simp [same]
  · intro index generation reached
    rw [generations] at reached
    split at reached
    · rename_i same
      cases reached
      rw [same]
      exact tracked.generation_insert value
    · exact tracked.generation index generation reached
  · intro handle gone
    obtain ⟨inside, earlier⟩ := tracked.past handle gone
    refine ⟨?_, earlier⟩
    rw [size_eq]
    split <;> omega
  · exact List.nodup_cons.mpr ⟨tracked.not_issued_insert value, tracked.fresh⟩
  · exact tracked.once
  · intro handle value' found
    rw [get] at found
    rw [written]
    split at found
    · rename_i same
      rw [if_pos same, ← found]
    · rename_i different
      rw [if_neg different]
      exact tracked.value handle value' found
  · exact tracked.answered

theorem remove (tracked : Tracked history arena) {handle : Handle} {value : α}
    (found : arena.get? handle = some value) (few : (removed history).length + 1 < 2 ^ 32) :
    Tracked (.removed handle (some value) :: history) (arena.remove handle).2 := by
  have get := get?_remove arena handle
  have turn : turns (.removed handle (some value) :: history) = fun index =>
      turns history index + if handle.index = index then 1 else 0 := by
    funext index
    simp [turns, removed, List.countP_cons]
  have now := tracked.generation _ _ (generation?_of_get? found)
  -- This is where few removals are needed: the generation of the slot goes up with its turns and does not start again.
  have next : (handle.generation + 1).toNat = turns history handle.index + 1 := by
    have most : turns history handle.index ≤ (removed history).length := List.countP_le_length
    rw [UInt32.toNat_add, now]
    exact Nat.mod_eq_of_lt (by simpa using (by omega : turns history handle.index + 1 < 2 ^ 32))
  constructor
  · exact remove_wellFormed tracked.wellFormed handle
  · exact tracked.stack.remove found
  · intro other
    change other ∈ issued history ↔ _ ∨ other ∈ _ :: removed history
    rw [List.mem_cons, tracked.known, get]
    by_cases same : other = handle
    · simp [same, found]
    · simp [same]
  · intro index generation reached
    rw [generation?_remove found] at reached
    rw [turn]
    by_cases same : index = handle.index
    · rw [if_pos same] at reached
      cases reached
      simp [same, next]
    · rw [if_neg same] at reached
      simpa [Ne.symm same] using tracked.generation index generation reached
  · intro other gone
    rw [slots_size_remove, turn]
    rcases List.mem_cons.mp gone with rfl | gone
    · obtain ⟨inside, _⟩ := Array.getElem?_eq_some_iff.mp (get?_eq_some.mp found)
      exact ⟨inside, by simp [now]⟩
    · obtain ⟨inside, earlier⟩ := tracked.past other gone
      exact ⟨inside, by dsimp only; omega⟩
  · exact tracked.fresh
  · exact List.nodup_cons.mpr ⟨tracked.not_removed found, tracked.once⟩
  · intro other value' found'
    rw [get] at found'
    split at found'
    · cases found'
    · exact tracked.value other value' found'
  · exact ⟨by rw [← tracked.get?_eq_recalled, found], tracked.answered⟩

theorem query (tracked : Tracked history arena) (handle : Handle) :
    Tracked (.got handle (arena.get? handle) :: history) arena :=
  { tracked with answered := ⟨tracked.get?_eq_recalled handle, tracked.answered⟩ }

theorem removeStale (tracked : Tracked history arena) {handle : Handle} (stale : arena.get? handle = none) :
    Tracked (.removed handle none :: history) arena :=
  { tracked with answered := ⟨by rw [← tracked.get?_eq_recalled, stale], tracked.answered⟩ }

theorem modify (tracked : Tracked history arena) (handle : Handle) (f : α → α) :
    Tracked (.modified handle f :: history) (arena.modify handle f) := by
  have get := get?_modify arena handle f
  constructor
  · exact modify_wellFormed tracked.wellFormed handle f
  · exact tracked.stack.modify handle f
  · intro other
    change other ∈ issued history ↔ _ ∨ other ∈ removed history
    rw [tracked.known, get]
    by_cases same : other = handle
    · simp [same]
    · simp [same]
  · intro index generation reached
    rw [generation?_modify] at reached
    exact tracked.generation index generation reached
  · intro other gone
    rw [slots_size_modify]
    exact tracked.past other gone
  · exact tracked.fresh
  · exact tracked.once
  · intro other value found
    rw [get] at found
    rw [written]
    split at found
    · rename_i same
      obtain ⟨before, found', rfl⟩ := Option.map_eq_some_iff.mp found
      rw [if_pos same, same, tracked.value handle before found']
      rfl
    · rename_i different
      rw [if_neg different]
      exact tracked.value other value found
  · exact tracked.answered

end Tracked

theorem tracked_of_recorded {history : List (Event α)} {arena : Arena α} (recorded : Recorded history arena)
    (few : (removed history).length < 2 ^ 32) : Tracked history arena := by
  induction recorded with
  | empty => exact .empty
  | insert _ value ih => exact (ih few).insert value
  | @remove history arena _ handle ih =>
      cases found : arena.get? handle with
      | none =>
          -- Nobody leaves, so that no slot has another turn.
          rw [remove_stale found] at few ⊢
          exact (ih few).removeStale found
      | some value =>
          have answer : (arena.remove handle).1 = some value := by simp [Arena.remove, found]
          rw [answer] at few ⊢
          have fewer : (removed history).length + 1 < 2 ^ 32 := few
          exact (ih (by omega)).remove found fewer
  | get _ handle ih => exact (ih few).query handle
  | modify _ handle f ih => exact (ih few).modify handle f

structure Kept (history : List (Event α)) (arena : Arena α) : Prop where
  fresh : (issued history).Nodup
  found : ∀ handle value, arena.get? handle = some value ↔
    handle ∈ issued history ∧ handle ∉ removed history ∧ written history handle = some value
  held : ∀ handle, arena.contains handle = true ↔ handle ∈ issued history ∧ handle ∉ removed history
  answered : Answered history
  once : (removed history).Nodup
  stale : ∀ handle, arena.get? handle = none → arena.remove handle = (none, arena)
  size : arena.size = ((issued history).filter (· ∉ removed history)).length
  listed : ∀ handle value, (handle, value) ∈ arena.toList ↔ arena.get? handle = some value
  ordered : (arena.toList.map (·.1.index)).Pairwise (· < ·)
  stack : arena.Stack (vacancies history)
  reused : ∀ value, (arena.insert value).1.index = (vacancies history).head?.getD arena.slots.size ∧
    (arena.insert value).2.slots.size =
      if vacancies history = [] then arena.slots.size + 1 else arena.slots.size
  inside : ∀ handle ∈ issued history, handle.index < arena.slots.size

theorem kept_of_recorded {history : List (Event α)} {arena : Arena α} (recorded : Recorded history arena)
    (few : (removed history).length < 2 ^ 32) : Kept history arena := by
  have tracked := tracked_of_recorded recorded few
  have held (handle : Handle) :
      (∃ value, arena.get? handle = some value) ↔ handle ∈ issued history ∧ handle ∉ removed history := by
    rw [tracked.known]
    constructor
    · rintro ⟨value, found⟩
      exact ⟨.inl ⟨value, found⟩, tracked.not_removed found⟩
    · rintro ⟨there | gone, kept⟩
      · exact there
      · exact absurd gone kept
  constructor
  · exact tracked.fresh
  · intro handle value
    rw [tracked.get?_eq_recalled, recalled, ← and_assoc]
    split
    · rename_i there
      rw [and_iff_right there]
    · rename_i absent
      exact iff_of_false nofun fun there => absent there.1
  · intro handle
    rw [contains_iff, held]
  · exact tracked.answered
  · exact tracked.once
  · exact fun handle stale => remove_stale stale
  · have same : arena.handles.Perm ((issued history).filter (· ∉ removed history)) := by
      rw [List.perm_ext_iff_of_nodup (handles_nodup arena) (tracked.fresh.filter _)]
      intro handle
      simp [mem_handles, held]
    rw [← same.length_eq, tracked.wellFormed.length_handles]
  · exact fun handle value => mem_toList
  · simpa [handles, Function.comp_def] using indices_increasing arena
  · exact tracked.stack
  · intro value
    obtain ⟨index_eq, size_eq, _⟩ := insert_slot tracked.stack value
    exact ⟨index_eq, size_eq⟩
  · intro handle given
    rcases (tracked.known handle).mp given with ⟨value, found⟩ | gone
    · exact (Array.getElem?_eq_some_iff.mp (get?_eq_some.mp found)).1
    · exact (tracked.past handle gone).1

theorem kept_after_refilling :
    let history : List (Event Nat) :=
      [.removed ⟨0, 0⟩ none, .modified ⟨0, 1⟩ (· + 1), .inserted ⟨0, 1⟩ 7, .removed ⟨0, 0⟩ (some 5),
        .inserted ⟨1, 0⟩ 6, .inserted ⟨0, 0⟩ 5]
    let arena : Arena Nat := { slots := #[.occupied 8 1, .occupied 6 0], vacated := none, size := 2 }
    Recorded history arena ∧ (removed history).length < 2 ^ 32 ∧ Kept history arena := by
  intro history arena
  have recorded : Recorded history arena :=
    (((((Recorded.empty.insert 5).insert 6).remove ⟨0, 0⟩).insert 7).modify ⟨0, 1⟩ (· + 1)).remove ⟨0, 0⟩
  have few : (removed history).length < 2 ^ 32 := by decide
  exact ⟨recorded, few, kept_of_recorded recorded few⟩

end SegmentedCache.Arena
