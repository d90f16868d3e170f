namespace SegmentedCache

/-!
Storage addressed by handles. A handle names a slot and the generation of its occupant; when the occupant leaves,
the slot moves on to the next generation, so an old handle finds nothing. Vacant slots form a list that is
threaded through them and are filled again, last vacated first, before the storage grows.
-/

structure Handle where
  index : Nat
  generation : UInt32
deriving DecidableEq

namespace Arena

inductive Slot (α : Type) where
  | vacant (next : Option Nat) (generation : UInt32)
  | occupied (value : α) (generation : UInt32)

end Arena

structure Arena (α : Type) where
  slots : Array (Arena.Slot α) := #[]
  vacated : Option Nat := none
  size : Nat := 0

namespace Arena

variable {α : Type}

def empty : Arena α := {}

def isEmpty (arena : Arena α) : Bool :=
  arena.size == 0

def append (arena : Arena α) (value : α) : Handle × Arena α :=
  (⟨arena.slots.size, 0⟩,
    { arena with slots := arena.slots.push (.occupied value 0), size := arena.size + 1 })

def insert (arena : Arena α) (value : α) : Handle × Arena α :=
  match arena.vacated with
  | none => arena.append value
  | some index =>
      match arena.slots[index]? with
      | some (.vacant next generation) =>
          (⟨index, generation⟩,
            { slots := arena.slots.setIfInBounds index (.occupied value generation)
              vacated := next
              size := arena.size + 1 })
      | _ => arena.append value

def get? (arena : Arena α) (handle : Handle) : Option α :=
  match arena.slots[handle.index]? with
  | some (.occupied value generation) => if generation = handle.generation then some value else none
  | _ => none

def contains (arena : Arena α) (handle : Handle) : Bool :=
  (arena.get? handle).isSome

/-- Takes the occupant out and vacates its slot. An old handle takes nothing. -/
def remove (arena : Arena α) (handle : Handle) : Option α × Arena α :=
  match arena.get? handle with
  | none => (none, arena)
  | some value =>
      (some value,
        { slots := arena.slots.setIfInBounds handle.index (.vacant arena.vacated (handle.generation + 1))
          vacated := some handle.index
          size := arena.size - 1 })

def modify (arena : Arena α) (handle : Handle) (f : α → α) : Arena α :=
  match arena.get? handle with
  | none => arena
  | some value =>
      { arena with slots := arena.slots.setIfInBounds handle.index (.occupied (f value) handle.generation) }

def toList (arena : Arena α) : List (Handle × α) :=
  (arena.slots.toList.mapIdx fun index slot => (index, slot)).filterMap fun
    | (index, .occupied value generation) => some (⟨index, generation⟩, value)
    | (_, .vacant _ _) => none

def handles (arena : Arena α) : List Handle :=
  arena.toList.map (·.1)

end Arena
end SegmentedCache
