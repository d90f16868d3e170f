namespace SegmentedCache

/-!
Keys and values are objects with an identity, so that it can be told whether anybody outside the cache still
refers to one.
-/

abbrev ObjectId := Nat

/-- An object: what it holds, and which object it is. -/
structure Shared (α : Type) where
  id : ObjectId
  data : α
deriving DecidableEq

/-- The objects that somebody outside the cache refers to. -/
abbrev Reach := ObjectId → Bool

inductive Strength where
  | strong
  | weak
  /-- The reference keeps the object until all soft values are released. -/
  | soft
deriving DecidableEq

namespace Strength

def name : Strength → String
  | strong => "Strong"
  | weak => "Weak"
  | soft => "Soft"

def reaches {α : Type} (strength : Strength) (reach : Reach) (object : Shared α) : Bool :=
  match strength with
  | strong | soft => true
  | weak => reach object.id

end Strength
end SegmentedCache
