import Mathlib.Logic.Function.Basic
import SegmentedCache.Cache.Event
import SegmentedCache.Lifetime

namespace SegmentedCache

/-!
A map that forgets. Of each key it keeps the value, and when that was written and used last. Whether the value is still
there follows from these times alone.
-/

structure Dated (V : Type) where
  value : Shared V
  written : Nat
  accessed : Nat

def Dated.isPresent {V : Type} (limits : Lifetime) (now : Nat) (dated : Dated V) : Bool :=
  limits.afterWrite.all (now - dated.written < ·) && limits.afterAccess.all (now - dated.accessed < ·)

abbrev Reference (K V : Type) := K → Option (Dated V)

namespace Reference

variable {K V : Type}

def present? (limits : Lifetime) (now : Nat) (reference : Reference K V) (key : K) : Option (Dated V) :=
  (reference key).filter (·.isPresent limits now)

def find? (limits : Lifetime) (now : Nat) (reference : Reference K V) (key : K) : Option (Shared V) :=
  (reference.present? limits now key).map (·.value)

variable [DecidableEq K]

def store (key : K) (value : Shared V) (now : Nat) (reference : Reference K V) : Reference K V :=
  Function.update reference key (some { value, written := now, accessed := now })

def touch (limits : Lifetime) (now : Nat) (key : K) (reference : Reference K V) : Reference K V :=
  match reference.present? limits now key with
  | some dated => Function.update reference key (some { dated with accessed := now })
  | none => reference

def drop (key : K) (reference : Reference K V) : Reference K V :=
  Function.update reference key none

end Reference

/-- What one request led to: the first reading of the clock after it came, how the loaders that were run for it
ended, each with the next reading, and the reply. -/
structure Exchange (K V : Type) where
  now : Nat
  request : Request K V
  loads : List (LoaderEnd V × Nat) := []
  reply : Reply K V

def LoaderEnd.error? {V : Type} (hash : UInt64) : LoaderEnd V → Option CacheError
  | .nothing => some (CacheError.nothingLoaded.withContext "hash" (toString hash.toNat))
  | .failed failure => some ((CacheError.loadFailed failure).withContext "hash" (toString hash.toNat))
  | .value _ | .panicked _ => none

def Request.isKnown {K V : Type} : Request K V → Bool
  | .lookup _ | .get _ | .load _ | .insert .. | .insertIfNew .. | .remove _ | .clear | .cleanUp | .contains _
  | .entries => true
  | .loadAll _ | .refresh _ | .removeAll _ | .releaseSoft | .runReload | .dropReload => false

inductive Request.Gets {K V : Type} (key : Shared K) : Request K V → Prop where
  | get : Gets key (.get key)
  | load : Gets key (.load key)

namespace Reference

variable {K V : Type} [DecidableEq K]

/-- How the map answers requests, and what they make of it. -/
inductive Answers (hash : K → UInt64) (limits : Lifetime) (reference : Reference K V) :
    Exchange K V → Reference K V → Prop where
  | lookup (now : Nat) (key : K) :
      Answers hash limits reference ⟨now, .lookup key, [], .value (reference.find? limits now key)⟩
        (reference.touch limits now key)
  | contains (now : Nat) (key : K) :
      Answers hash limits reference
      ⟨now, .contains key, [], .flag (reference.find? limits now key).isSome⟩ reference
  | entries (now : Nat) {entries : List (Shared K × Shared V)}
      (same : ∀ key value, (∃ object, (object, value) ∈ entries ∧ object.data = key) ↔
        reference.find? limits now key = some value) :
      Answers hash limits reference ⟨now, .entries, [], .entries entries⟩ reference
  | hit {now : Nat} {key : Shared K} {value : Shared V} {request : Request K V} (gets : request.Gets key)
      (found : reference.find? limits now key.data = some value) :
      Answers hash limits reference ⟨now, request, [], .outcome (.ok value)⟩ (reference.touch limits now key.data)
  | loaded {now : Nat} {key : Shared K} {request : Request K V} (gets : request.Gets key)
      (missing : reference.find? limits now key.data = none) (value : Shared V) (later : Nat) :
      Answers hash limits reference ⟨now, request, [(.value value, later)], .outcome (.ok value)⟩
        (reference.store key.data value later)
  | failed {now : Nat} {key : Shared K} {request : Request K V} {ending : LoaderEnd V} {error : CacheError}
      (gets : request.Gets key) (missing : reference.find? limits now key.data = none)
      (failed : ending.error? (hash key.data) = some error) (later : Nat) :
      Answers hash limits reference ⟨now, request, [(ending, later)], .outcome (.error error)⟩ reference
  | insert (now : Nat) (key : Shared K) (value : Shared V) :
      Answers hash limits reference ⟨now, .insert key value, [], .value (reference.find? limits now key.data)⟩
        (reference.store key.data value now)
  | kept {now : Nat} {key : Shared K} {old : Shared V} (found : reference.find? limits now key.data = some old)
      (value : Shared V) :
      Answers hash limits reference ⟨now, .insertIfNew key value, [], .value (some old)⟩
        (reference.touch limits now key.data)
  | added {now : Nat} {key : Shared K} (missing : reference.find? limits now key.data = none) (value : Shared V) :
      Answers hash limits reference ⟨now, .insertIfNew key value, [], .value none⟩
        (reference.store key.data value now)
  | remove (now : Nat) (key : K) :
      Answers hash limits reference ⟨now, .remove key, [], .value (reference.find? limits now key)⟩
        (reference.drop key)
  | clear (now : Nat) : Answers hash limits reference ⟨now, .clear, [], .done⟩ fun _ => none
  | cleanUp (now : Nat) : Answers hash limits reference ⟨now, .cleanUp, [], .done⟩ reference

inductive Follows (hash : K → UInt64) (limits : Lifetime) : List (Exchange K V) → Reference K V → Prop where
  | start : Follows hash limits [] fun _ => none
  | answer {exchanges : List (Exchange K V)} {exchange : Exchange K V} {reference reference' : Reference K V}
      (follows : Follows hash limits exchanges reference)
      (answers : reference.Answers hash limits exchange reference') :
      Follows hash limits (exchanges ++ [exchange]) reference'

end Reference
end SegmentedCache
