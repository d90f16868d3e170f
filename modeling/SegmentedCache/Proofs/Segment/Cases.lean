import SegmentedCache.Proofs.Segment.Records
import SegmentedCache.Segment.Load
import SegmentedCache.Segment.Read
import SegmentedCache.Segment.Write

namespace SegmentedCache

/-!
What each operation on a segment may come to. What holds of all courses that an operation can take is shown by these
cases, and not by taking the operation apart again.
-/

variable {K V : Type}

theorem Policy.value?_of_stale? {policy : Policy K V} {reach : Reach} {now : Nat} {entry : Entry K V}
    (fresh : policy.stale? reach now entry = none) {value : Shared V} (counted : entry.visible? = some value) :
    policy.value? reach entry = some value := by
  have unreserved : entry.isReserved = false := Entry.isReserved_eq_false.mpr ⟨value, counted⟩
  simp only [stale?, unreserved, Bool.false_eq_true, ↓reduceIte] at fresh
  split at fresh
  · cases fresh
  · rename_i kept
    simp only [isLost, counted, Bool.not_eq_true, Bool.or_eq_false_iff, Bool.not_eq_false'] at kept
    simp [value?, counted, kept.2]

theorem Entry.exists_visible_of_ne {entry : Entry K V} (other : ∀ load, entry.content ≠ .loading load none) :
    ∃ value, entry.visible? = some value :=
  Entry.isReserved_eq_false.mp (Entry.isReserved_of_ne other)

namespace Segment

variable [DecidableEq K]

inductive Reading (reach : Reach) (now : Nat) (code : UInt64) (key : K) (s : Segment K V) :
    Finding V × Segment K V → Prop where
  | absent (missing : s.find? reach code key = none) : Reading reach now code key s (.nothing, s)
  | awaited {handle : Handle} {entry : Entry K V} {load : LoadId}
      (located : s.find? reach code key = some (handle, entry)) (reserved : entry.content = .loading load none) :
      Reading reach now code key s (.pending load, s)
  | stale {handle : Handle} {entry : Entry K V} {value : Shared V} {cause : Cause}
      (located : s.find? reach code key = some (handle, entry)) (counted : entry.visible? = some value)
      (stale : s.policy.stale? reach now entry = some cause) : Reading reach now code key s (.nothing, s)
  | live {handle : Handle} {entry : Entry K V} {value : Shared V}
      (located : s.find? reach code key = some (handle, entry)) (counted : entry.visible? = some value)
      (fresh : s.policy.stale? reach now entry = none) :
      Reading reach now code key s (.live value (s.policy.wantsRefresh now entry), s.noteRead handle now)

theorem reading (s : Segment K V) (reach : Reach) (now : Nat) (code : UInt64) (key : K) :
    Reading reach now code key s (s.read reach now code key) := by
  unfold read
  cases located : s.find? reach code key with
  | none => exact .absent located
  | some found =>
      obtain ⟨handle, entry⟩ := found
      dsimp only
      split
      · rename_i reserved
        exact .awaited located reserved
      · rename_i other
        obtain ⟨value, counted⟩ := Entry.exists_visible_of_ne fun load => other load
        cases stale : s.policy.stale? reach now entry with
        | none =>
            rw [Policy.value?_of_stale? stale counted]
            exact .live located counted stale
        | some cause => exact .stale located counted stale

/-- What a claim comes to, from the segment that was prepared for it. -/
inductive Claiming (reach : Reach) (now : Nat) (thread : ThreadId) (key : Shared K) (code : UInt64) (t : Segment K V) :
    Claim V × Segment K V → Prop where
  | absent (missing : t.find? reach code key.data = none) :
      Claiming reach now thread key code t (t.grant now thread key code)
  | awaited {handle : Handle} {entry : Entry K V} {load : LoadId}
      (located : t.find? reach code key.data = some (handle, entry)) (own : entry.load? = some load)
      (unread : entry.isReserved = true ∨ t.policy.stale? reach now entry ≠ none) :
      Claiming reach now thread key code t (.taken load, t)
  | live {handle : Handle} {entry : Entry K V} {value : Shared V}
      (located : t.find? reach code key.data = some (handle, entry)) (counted : entry.visible? = some value)
      (fresh : t.policy.stale? reach now entry = none) :
      Claiming reach now thread key code t (.needless value, t.use handle now)
  | stale {handle : Handle} {entry : Entry K V} {value : Shared V} {cause : Cause}
      (located : t.find? reach code key.data = some (handle, entry)) (ready : entry.content = .ready value)
      (stale : t.policy.stale? reach now entry = some cause) :
      Claiming reach now thread key code t ((t.discard reach handle cause).grant now thread key code)

theorem claiming (s : Segment K V) (reach : Reach) (now : Nat) (thread : ThreadId) (key : Shared K) (code : UInt64) :
    Claiming reach now thread key code (s.prepare reach now) (s.claim reach now thread key code) := by
  unfold claim
  generalize s.prepare reach now = t
  dsimp only
  cases located : t.find? reach code key.data with
  | none => exact .absent located
  | some found =>
      obtain ⟨handle, entry⟩ := found
      dsimp only
      split
      · rename_i content
        exact .awaited located (by rw [Entry.load?, content]) (.inl (by simp [Entry.isReserved, content]))
      · rename_i fresh other
        obtain ⟨value, counted⟩ := Entry.exists_visible_of_ne fun load => other load
        rw [Policy.value?_of_stale? fresh counted]
        exact .live located counted fresh
      · rename_i stale content
        exact .awaited located (by rw [Entry.load?, content]) (.inr (by simp [stale]))
      · rename_i stale ready
        exact .stale located ready stale

inductive Renewing (reach : Reach) (now : Nat) (thread : ThreadId) (key : Shared K) (code : UInt64) (force : Bool)
    (s : Segment K V) : Option (LoadId × Shared V) × Segment K V → Prop where
  | declined : Renewing reach now thread key code force s (none, s)
  | started {handle : Handle} {entry : Entry K V} {value : Shared V}
      (located : s.find? reach code key.data = some (handle, entry)) (ready : entry.content = .ready value)
      (wanted : force = true ∨ s.policy.wantsRefresh now entry = true) :
      Renewing reach now thread key code force s (some (s.loads.size, value),
        (s.issue thread key).2.modifyEntry handle (·.setContent (.loading s.loads.size (some value))))

theorem renewing (s : Segment K V) (reach : Reach) (now : Nat) (thread : ThreadId) (key : Shared K) (code : UInt64)
    (force : Bool) : Renewing reach now thread key code force s (s.claimRefresh reach now thread key code force) := by
  unfold claimRefresh
  cases located : s.find? reach code key.data with
  | none => exact .declined
  | some found =>
      obtain ⟨handle, entry⟩ := found
      dsimp only
      split
      · exact .declined
      · rename_i ready
        split
        · exact .declined
        · rename_i allowed
          refine .started located ready ?_
          simp only [Bool.or_eq_true, Bool.not_eq_true', not_or, Bool.not_eq_false] at allowed
          exact allowed.2

inductive Finishing (reach : Reach) (now : Nat) (key : Shared K) (code : UInt64) (load : LoadId) (t : Segment K V) :
    Option (Shared V) → Segment K V → Prop where
  | dropped (gone : ∀ handle entry, t.find? reach code key.data = some (handle, entry) →
      entry.load? ≠ some load) :
      Finishing reach now key code load t none t
  | reported {value : Shared V}
      (gone : ∀ handle entry, t.find? reach code key.data = some (handle, entry) → entry.load? ≠ some load) :
      Finishing reach now key code load t (some value) (t.report
        { key := ⟨key, true⟩, value := ⟨value, true⟩,
          cause := ((t.loads[load]?).bind (·.displaced)).getD .explicit })
  | forgone {handle : Handle} {entry : Entry K V} (located : t.find? reach code key.data = some (handle, entry))
      (own : entry.load? = some load) : Finishing reach now key code load t none (t.giveUp reach handle entry)
  | stored {handle : Handle} {entry : Entry K V} {value : Shared V}
      (located : t.find? reach code key.data = some (handle, entry)) (own : entry.load? = some load) :
      Finishing reach now key code load t (some value) (t.storeLoaded reach now key value handle entry)

theorem finishing (s : Segment K V) (reach : Reach) (now : Nat) (key : Shared K) (code : UInt64) (load : LoadId)
    (loaded : Option (Shared V)) : Finishing reach now key code load (s.prepare reach now) loaded
      (s.finishLoad reach now key code load loaded) := by
  unfold finishLoad
  generalize s.prepare reach now = t
  dsimp only
  cases located : (t.find? reach code key.data).filter (fun entry => entry.2.load? = some load) with
  | none =>
      have gone (handle : Handle) (entry : Entry K V) (found : t.find? reach code key.data = some (handle, entry)) :
          entry.load? ≠ some load := by
        rw [found, Option.filter_eq_none_iff] at located
        simpa using located (handle, entry) rfl
      cases loaded with
      | none => exact .dropped gone
      | some value => exact .reported gone
  | some found =>
      obtain ⟨handle, entry⟩ := found
      obtain ⟨located, own⟩ := Option.filter_eq_some_iff.mp located
      have own : entry.load? = some load := by simpa using own
      cases loaded with
      | none => exact .forgone located own
      | some value => exact .stored located own

theorem finishLoad_of_own {s : Segment K V} {reach : Reach} {now : Nat} {key : Shared K} {code : UInt64}
    {load : LoadId} {handle : Handle} {entry : Entry K V}
    (located : (s.prepare reach now).find? reach code key.data = some (handle, entry)) (own : entry.load? = some load)
    (value : Shared V) : s.finishLoad reach now key code load (some value) =
      (s.prepare reach now).storeLoaded reach now key value handle entry := by
  unfold finishLoad
  dsimp only
  rw [located, Option.filter_some, if_pos (decide_eq_true own)]

inductive Inserting (reach : Reach) (now : Nat) (key : Shared K) (code : UInt64) (value : Shared V) (t : Segment K V) :
    Bool → Option (Shared V) × Segment K V → Prop where
  | absent {onlyIfNew : Bool} (missing : t.find? reach code key.data = none) :
      Inserting reach now key code value t onlyIfNew
        (none, t.insertNew reach now key code value (t.policy.weigh key.data value.data))
  | stale {onlyIfNew : Bool} {handle : Handle} {entry : Entry K V} {cause : Cause}
      (located : t.find? reach code key.data = some (handle, entry))
      (stale : t.policy.stale? reach now entry = some cause) :
      Inserting reach now key code value t onlyIfNew (none,
        (t.discard reach handle cause).insertNew reach now key code value (t.policy.weigh key.data value.data))
  | reserved {onlyIfNew : Bool} {handle : Handle} {entry : Entry K V}
      (located : t.find? reach code key.data = some (handle, entry)) (reserved : entry.visible? = none) :
      Inserting reach now key code value t onlyIfNew
        (none, t.fillReserved reach now value (t.policy.weigh key.data value.data) handle entry)
  | turnedAway {handle : Handle} {entry : Entry K V} {old : Shared V}
      (located : t.find? reach code key.data = some (handle, entry)) (counted : entry.visible? = some old) :
      Inserting reach now key code value t true (some old, t.use handle now)
  | overwritten {handle : Handle} {entry : Entry K V} {old : Shared V}
      (located : t.find? reach code key.data = some (handle, entry)) (counted : entry.visible? = some old) :
      Inserting reach now key code value t false
        (some old, t.overwrite reach now key value (t.policy.weigh key.data value.data) handle entry old)

theorem inserting (s : Segment K V) (reach : Reach) (now : Nat) (key : Shared K) (code : UInt64) (value : Shared V)
    (onlyIfNew : Bool) : Inserting reach now key code value (s.prepare reach now) onlyIfNew
      (s.insert reach now key code value onlyIfNew) := by
  unfold insert
  generalize s.prepare reach now = t
  dsimp only
  cases located : t.find? reach code key.data with
  | none => exact .absent located
  | some found =>
      obtain ⟨handle, entry⟩ := found
      dsimp only
      cases stale : t.policy.stale? reach now entry with
      | some cause => exact .stale located stale
      | none =>
          cases counted : entry.visible? with
          | none => exact .reserved located counted
          | some old =>
              cases onlyIfNew with
              | true => exact .turnedAway located counted
              | false => exact .overwritten located counted

inductive Removing (reach : Reach) (code : UInt64) (key : K) (t : Segment K V) :
    Option (Shared V) × Segment K V → Prop where
  | absent (missing : t.find? reach code key = none) : Removing reach code key t (none, t)
  | lost {handle : Handle} {entry : Entry K V} (located : t.find? reach code key = some (handle, entry))
      (lost : t.policy.isLost reach entry = true) : Removing reach code key t (none, t.discard reach handle .collected)
  | found {handle : Handle} {entry : Entry K V} (located : t.find? reach code key = some (handle, entry))
      (kept : ¬ t.policy.isLost reach entry = true) :
      Removing reach code key t (t.policy.value? reach entry, t.discard reach handle .explicit)

theorem removing (s : Segment K V) (reach : Reach) (now : Nat) (code : UInt64) (key : K) :
    Removing reach code key (s.prepare reach now) (s.remove reach now code key) := by
  unfold remove
  generalize s.prepare reach now = t
  dsimp only
  cases located : t.find? reach code key with
  | none => exact .absent located
  | some found =>
      obtain ⟨handle, entry⟩ := found
      dsimp only
      split
      · rename_i lost
        exact .lost located lost
      · rename_i kept
        exact .found located kept

end Segment
end SegmentedCache
