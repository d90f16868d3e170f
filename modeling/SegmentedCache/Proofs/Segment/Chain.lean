import SegmentedCache.Proofs.LinkedQueue
import SegmentedCache.Segment.Basic

namespace SegmentedCache.Segment

/-!
Chains of entries. A chain that ends is a list without repetitions, and following it for as many steps as there are
entries finds all of it.
-/

variable {K V : Type} {arena arena' : Arena (Threaded (Entry K V))}

def next? (arena : Arena (Threaded (Entry K V))) (handle : Handle) : Option (Option Handle) :=
  (arena.get? handle).map (·.item.next)

/-- Following the chain from `start` on gives `list`, and then the chain ends. -/
def IsChain (arena : Arena (Threaded (Entry K V))) : Option Handle → List Handle → Prop
  | start, [] => start = none
  | start, handle :: rest => start = some handle ∧ ∃ next, next? arena handle = some next ∧
      IsChain arena next rest

namespace IsChain

variable {start : Option Handle} {list : List Handle}

theorem congr (chain : IsChain arena start list)
    (same : ∀ handle ∈ list, next? arena' handle = next? arena handle) : IsChain arena' start list := by
  induction list generalizing start with
  | nil => exact chain
  | cons handle rest ih =>
      obtain ⟨first, next, link, onward⟩ := chain
      exact ⟨first, next, (same handle (by simp)).trans link,
        ih onward fun other member => same other (by simp [member])⟩

theorem unique {list' : List Handle} (chain : IsChain arena start list) (chain' : IsChain arena start list') :
    list = list' := by
  induction list generalizing start list' with
  | nil =>
      cases list' with
      | nil => rfl
      | cons handle rest => cases chain.symm.trans chain'.1
  | cons handle rest ih =>
      obtain ⟨first, next, link, onward⟩ := chain
      cases list' with
      | nil => cases first.symm.trans chain'
      | cons handle' rest' =>
          obtain ⟨first', next', link', onward'⟩ := chain'
          cases first.symm.trans first'
          cases link.symm.trans link'
          rw [ih onward onward']

theorem suffix {front back : List Handle} {handle : Handle} (chain : IsChain arena start (front ++ handle :: back)) :
    IsChain arena (some handle) (handle :: back) := by
  induction front generalizing start with
  | nil =>
      obtain ⟨first, onward⟩ := chain
      exact ⟨rfl, onward⟩
  | cons _ _ ih =>
      obtain ⟨_, _, _, onward⟩ := chain
      exact ih onward

theorem nodup (chain : IsChain arena start list) : list.Nodup := by
  induction list generalizing start with
  | nil => exact List.nodup_nil
  | cons handle rest ih =>
      obtain ⟨_, next, link, onward⟩ := chain
      refine List.nodup_cons.mpr ⟨?_, ih onward⟩
      intro member
      obtain ⟨front, back, rfl⟩ := List.append_of_mem member
      have whole : IsChain arena (some handle) (handle :: (front ++ handle :: back)) := ⟨rfl, next, link, onward⟩
      have lengths := congrArg List.length (whole.unique onward.suffix)
      simp only [List.length_cons, List.length_append] at lengths
      omega

theorem live (chain : IsChain arena start list) {handle : Handle} (member : handle ∈ list) :
    ∃ threaded, arena.get? handle = some threaded := by
  obtain ⟨front, back, rfl⟩ := List.append_of_mem member
  obtain ⟨_, _, link, _⟩ := chain.suffix
  exact (Option.map_eq_some_iff.mp link).imp fun _ => And.left

theorem length_le_size (chain : IsChain arena start list) (wellFormed : arena.WellFormed) :
    list.length ≤ arena.size := by
  rw [← wellFormed.length_handles]
  refine (List.subperm_of_subset chain.nodup ?_).length_le
  intro handle member
  exact Arena.mem_handles.mpr (chain.live member)

theorem chainFrom_eq (chain : IsChain arena start list) {steps : Nat} (enough : list.length ≤ steps) :
    chainFrom arena steps start = list := by
  induction list generalizing start steps with
  | nil =>
      cases chain
      cases steps <;> rfl
  | cons handle rest ih =>
      obtain ⟨rfl, next, link, onward⟩ := chain
      obtain ⟨threaded, found, rfl⟩ := Option.map_eq_some_iff.mp link
      cases steps with
      | zero => simp at enough
      | succ steps =>
          simp only [chainFrom, found]
          rw [ih onward (by simpa using enough)]

theorem erase {front back : List Handle} {handle before : Handle} {next : Option Handle}
    (chain : IsChain arena start (front ++ before :: handle :: back)) (own : next? arena handle = some next)
    (skipped : next? arena' before = some next)
    (same : ∀ other ≠ before, next? arena' other = next? arena other) :
    IsChain arena' start (front ++ before :: back) := by
  have distinct := chain.nodup
  induction front generalizing start with
  | nil =>
      obtain ⟨first, _, _, _, next', link', onward⟩ := chain
      cases own.symm.trans link'
      refine ⟨first, next, skipped, onward.congr fun other member => same other ?_⟩
      rintro rfl
      simp_all
  | cons first front ih =>
      obtain ⟨located, after, link, onward⟩ := chain
      rw [List.cons_append, List.nodup_cons] at distinct
      have different : first ≠ before := fun same => distinct.1 (by simp [same])
      exact ⟨located, after, (same first different).trans link, ih onward distinct.2⟩

end IsChain
end SegmentedCache.Segment
