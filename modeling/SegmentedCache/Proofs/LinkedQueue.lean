import SegmentedCache.LinkedQueue
import SegmentedCache.Proofs.Arena

namespace SegmentedCache

/-!
A linked queue is a list. Its links run through the arena in both directions, and each operation changes the list,
the links of its own ranking and nothing else.
-/

variable {α : Type}

namespace Threaded

@[simp] theorem link_setLink (ranking : Ranking) (link : Link) (threaded : Threaded α) :
    (threaded.setLink ranking link).link ranking = link := by
  cases ranking <;> rfl

@[simp] theorem setLink_setLink (ranking : Ranking) (first second : Link) (threaded : Threaded α) :
    (threaded.setLink ranking first).setLink ranking second = threaded.setLink ranking second := by
  cases ranking <;> rfl

@[simp] theorem item_setLink (ranking : Ranking) (link : Link) (threaded : Threaded α) :
    (threaded.setLink ranking link).item = threaded.item := by
  cases ranking <;> rfl

theorem link_setLink_ne {ranking other : Ranking} (different : other ≠ ranking) (link : Link)
    (threaded : Threaded α) : (threaded.setLink ranking link).link other = threaded.link other := by
  cases ranking <;> cases other <;> first | rfl | exact absurd rfl different

@[simp] theorem link_setBefore (ranking : Ranking) (before : Option Handle) (threaded : Threaded α) :
    (threaded.setBefore ranking before).link ranking = { threaded.link ranking with before } :=
  link_setLink ..

@[simp] theorem link_setAfter (ranking : Ranking) (after : Option Handle) (threaded : Threaded α) :
    (threaded.setAfter ranking after).link ranking = { threaded.link ranking with after } :=
  link_setLink ..

end Threaded

namespace LinkedQueue

def link? (ranking : Ranking) (arena : Arena (Threaded α)) (handle : Handle) : Option Link :=
  (arena.get? handle).map (·.link ranking)

def Relinked (ranking : Ranking) (arena arena' : Arena (Threaded α)) : Prop :=
  ∀ handle, (arena'.get? handle).map (·.setLink ranking {}) = (arena.get? handle).map (·.setLink ranking {})

namespace Relinked

variable {ranking : Ranking} {arena arena' arena'' : Arena (Threaded α)}

theorem refl : Relinked ranking arena arena := fun _ => rfl

theorem trans (first : Relinked ranking arena arena') (second : Relinked ranking arena' arena'') :
    Relinked ranking arena arena'' :=
  fun handle => (second handle).trans (first handle)

theorem modify {f : Threaded α → Threaded α} (own : ∀ threaded, (f threaded).setLink ranking {} =
    threaded.setLink ranking {}) (handle : Handle) : Relinked ranking arena (arena.modify handle f) := by
  intro other
  rw [Arena.get?_modify]
  split
  · rename_i same
    rw [same, Option.map_map]
    exact Option.map_congr fun threaded _ => own threaded
  · rfl

theorem get?_item (relinked : Relinked ranking arena arena') (handle : Handle) :
    (arena'.get? handle).map (·.item) = (arena.get? handle).map (·.item) := by
  have items := congrArg (Option.map (·.item)) (relinked handle)
  simpa [Function.comp_def] using items

theorem link?_ne (relinked : Relinked ranking arena arena') {other : Ranking} (different : other ≠ ranking)
    (handle : Handle) : link? other arena' handle = link? other arena handle := by
  have links := congrArg (Option.map (·.link other)) (relinked handle)
  simpa [link?, Function.comp_def, Threaded.link_setLink_ne different] using links

end Relinked

/-- `list` is threaded through the arena in both directions, between the neighbours `before` and `after`. -/
def Threads (ranking : Ranking) (arena : Arena (Threaded α)) : Option Handle → List Handle → Option Handle → Prop
  | _, [], _ => True
  | before, handle :: rest, after =>
      link? ranking arena handle = some ⟨before, rest.head?.or after, true⟩ ∧
        Threads ranking arena (some handle) rest after

namespace Threads

variable {ranking : Ranking} {arena arena' : Arena (Threaded α)} {before after : Option Handle}
  {list : List Handle}

theorem congr (threads : Threads ranking arena before list after)
    (same : ∀ handle ∈ list, link? ranking arena' handle = link? ranking arena handle) :
    Threads ranking arena' before list after := by
  induction list generalizing before with
  | nil => trivial
  | cons handle rest ih =>
      exact ⟨(same handle (by simp)).trans threads.1,
        ih threads.2 fun other member => same other (by simp [member])⟩

theorem append {front back : List Handle} :
    Threads ranking arena before (front ++ back) after ↔
      Threads ranking arena before front (back.head?.or after) ∧
        Threads ranking arena (front.getLast?.or before) back after := by
  induction front generalizing before with
  | nil => simp [Threads]
  | cons handle rest ih =>
      simp only [List.cons_append, Threads, ih, List.head?_append, Option.or_assoc, List.getLast?_cons]
      cases rest.getLast? <;> simp [and_assoc]

theorem live (threads : Threads ranking arena before list after) {handle : Handle} (member : handle ∈ list) :
    ∃ threaded, arena.get? handle = some threaded ∧ (threaded.link ranking).member = true := by
  induction list generalizing before with
  | nil => cases member
  | cons first rest ih =>
      rcases List.mem_cons.mp member with rfl | member
      · obtain ⟨threaded, found, link⟩ := Option.map_eq_some_iff.mp threads.1
        exact ⟨threaded, found, by rw [link]⟩
      · exact ih threads.2 member

theorem walk_eq (threads : Threads ranking arena before list none) {steps : Nat} (enough : list.length ≤ steps) :
    walk ranking arena steps list.head? = list := by
  induction list generalizing before steps with
  | nil => cases steps <;> rfl
  | cons handle rest ih =>
      cases steps with
      | zero => simp at enough
      | succ steps =>
          obtain ⟨threaded, found, link⟩ := Option.map_eq_some_iff.mp threads.1
          simp only [List.head?_cons, walk, found, link, Option.or_none]
          rw [ih threads.2 (by simpa using enough)]

end Threads

/-- The queue, threaded through the arena, stands for `list`. Occupants outside have no link. -/
structure Holds (queue : LinkedQueue) (arena : Arena (Threaded α)) (list : List Handle) : Prop where
  head : queue.head = list.head?
  tail : queue.tail = list.getLast?
  length : queue.length = list.length
  nodup : list.Nodup
  threads : Threads queue.ranking arena none list none
  outside : ∀ handle threaded, arena.get? handle = some threaded → handle ∉ list →
    threaded.link queue.ranking = {}

namespace Holds

variable {queue : LinkedQueue} {arena arena' : Arena (Threaded α)} {list : List Handle}

theorem live (holds : Holds queue arena list) {handle : Handle} (member : handle ∈ list) :
    ∃ threaded, arena.get? handle = some threaded :=
  (holds.threads.live member).imp fun _ => And.left

theorem member_iff (holds : Holds queue arena list) {handle : Handle} {threaded : Threaded α}
    (found : arena.get? handle = some threaded) :
    (threaded.link queue.ranking).member = true ↔ handle ∈ list := by
  constructor
  · intro linked
    by_contra outside
    rw [holds.outside handle threaded found outside] at linked
    cases linked
  · intro member
    obtain ⟨threaded', found', linked⟩ := holds.threads.live member
    cases found.symm.trans found'
    exact linked

theorem length_le_size (holds : Holds queue arena list) (wellFormed : arena.WellFormed) :
    list.length ≤ arena.size := by
  rw [← wellFormed.length_handles]
  refine (List.subperm_of_subset holds.nodup ?_).length_le
  intro handle member
  exact Arena.mem_handles.mpr (holds.live member)

theorem toList_eq (holds : Holds queue arena list) (wellFormed : arena.WellFormed) :
    queue.toList arena = list := by
  rw [toList, holds.head]
  exact holds.threads.walk_eq (holds.length_le_size wellFormed)

theorem congr (holds : Holds queue arena list)
    (same : ∀ handle, link? queue.ranking arena' handle = link? queue.ranking arena handle) :
    Holds queue arena' list where
  head := holds.head
  tail := holds.tail
  length := holds.length
  nodup := holds.nodup
  threads := holds.threads.congr fun handle _ => same handle
  outside := by
    intro handle threaded found outside
    have link := same handle
    rw [link?, found, Option.map_some, eq_comm, link?, Option.map_eq_some_iff] at link
    obtain ⟨threaded', found', equal⟩ := link
    rw [← equal]
    exact holds.outside handle threaded' found' outside

theorem insert (holds : Holds queue arena list) {handle : Handle} {threaded : Threaded α}
    (fresh : arena.get? handle = none)
    (get : ∀ other, arena'.get? other = if other = handle then some threaded else arena.get? other)
    (unlinked : threaded.link queue.ranking = {}) : Holds queue arena' list where
  head := holds.head
  tail := holds.tail
  length := holds.length
  nodup := holds.nodup
  threads := by
    apply holds.threads.congr
    intro other member
    obtain ⟨threaded', found⟩ := holds.live member
    have different : other ≠ handle := by
      rintro rfl
      cases fresh.symm.trans found
    rw [link?, get, if_neg different, link?]
  outside := by
    intro other threaded' found outside
    rw [get] at found
    split at found
    · cases found
      exact unlinked
    · exact holds.outside other threaded' found outside

theorem remove (holds : Holds queue arena list) {handle : Handle} (outside : handle ∉ list)
    (get : ∀ other, arena'.get? other = if other = handle then none else arena.get? other) :
    Holds queue arena' list where
  head := holds.head
  tail := holds.tail
  length := holds.length
  nodup := holds.nodup
  threads := by
    apply holds.threads.congr
    intro other member
    have different : other ≠ handle := fun same => outside (same ▸ member)
    rw [link?, get, if_neg different, link?]
  outside := by
    intro other threaded found absent
    rw [get] at found
    split at found
    · cases found
    · exact holds.outside other threaded found absent

end Holds

structure Rearranged (queue : LinkedQueue) (arena : Arena (Threaded α)) (list : List Handle)
    (result : LinkedQueue × Arena (Threaded α)) : Prop where
  holds : Holds result.1 result.2 list
  ranking : result.1.ranking = queue.ranking
  wellFormed : result.2.WellFormed
  relinked : Relinked queue.ranking arena result.2

variable {queue : LinkedQueue} {arena : Arena (Threaded α)} {list : List Handle} {handle : Handle}

theorem relink_eq_some (wellFormed : arena.WellFormed) {neighbour : Option Handle}
    (live : ∀ other, neighbour = some other → ∃ threaded, arena.get? other = some threaded)
    (f : Threaded α → Threaded α) :
    ∃ arena', relink arena neighbour f = some arena' ∧ arena'.WellFormed ∧
      ∀ other, arena'.get? other =
        if neighbour = some other then (arena.get? other).map f else arena.get? other := by
  cases neighbour with
  | none => exact ⟨arena, rfl, wellFormed, by simp⟩
  | some other =>
      refine ⟨arena.modify other f, ?_, Arena.modify_wellFormed wellFormed other f, ?_⟩
      · simp [relink, Arena.contains_iff.mpr (live other rfl)]
      · intro other'
        rw [Arena.get?_modify]
        by_cases same : other' = other
        · simp [same]
        · simp [same, Ne.symm same]

theorem Relinked.of_get? {ranking : Ranking} {arena' : Arena (Threaded α)} {p : Handle → Prop} [DecidablePred p]
    {f : Threaded α → Threaded α}
    (own : ∀ threaded, (f threaded).setLink ranking {} = threaded.setLink ranking {})
    (get : ∀ other, arena'.get? other = if p other then (arena.get? other).map f else arena.get? other) :
    Relinked ranking arena arena' := by
  intro other
  rw [get]
  split
  · rw [Option.map_map]
    exact Option.map_congr fun threaded _ => own threaded
  · rfl

theorem Threads.setAfter {ranking : Ranking} {arena arena' : Arena (Threaded α)} {before after after' : Option Handle}
    (threads : Threads ranking arena before list after) (distinct : list.Nodup)
    (get : ∀ other, arena'.get? other =
      if list.getLast? = some other then (arena.get? other).map (·.setAfter ranking after')
      else arena.get? other) :
    Threads ranking arena' before list after' := by
  induction list generalizing before with
  | nil => trivial
  | cons first rest ih =>
      rw [List.nodup_cons] at distinct
      cases rest with
      | nil =>
          obtain ⟨threaded, found, link⟩ := Option.map_eq_some_iff.mp threads.1
          exact ⟨by simp [link?, get, found, link], trivial⟩
      | cons second rest =>
          rw [List.getLast?_cons_cons] at get
          refine ⟨?_, ih threads.2 distinct.2 get⟩
          have other : (second :: rest).getLast? ≠ some first :=
            fun last => distinct.1 (List.mem_of_getLast? last)
          simpa [link?, get, other] using threads.1

theorem Threads.setBefore {ranking : Ranking} {arena arena' : Arena (Threaded α)}
    {before before' after : Option Handle}
    (threads : Threads ranking arena before list after) (distinct : list.Nodup)
    (get : ∀ other, arena'.get? other =
      if list.head? = some other then (arena.get? other).map (·.setBefore ranking before')
      else arena.get? other) :
    Threads ranking arena' before' list after := by
  cases list with
  | nil => trivial
  | cons first rest =>
      rw [List.nodup_cons] at distinct
      obtain ⟨threaded, found, link⟩ := Option.map_eq_some_iff.mp threads.1
      refine ⟨by simp [link?, get, found, link], threads.2.congr ?_⟩
      intro other member
      have different : first ≠ other := fun same => distinct.1 (same ▸ member)
      simp [link?, get, different]

theorem push_eq_some (wellFormed : arena.WellFormed) (holds : Holds queue arena list) {threaded : Threaded α}
    (found : arena.get? handle = some threaded) (outside : handle ∉ list) :
    ∃ result, queue.push arena handle = some result ∧ Rearranged queue arena (list ++ [handle]) result := by
  have stranger : (threaded.link queue.ranking).member = false := by
    rw [holds.outside handle threaded found outside]
  let entered := arena.modify handle (·.setLink queue.ranking ⟨queue.tail, none, true⟩)
  have get_entered (other : Handle) : entered.get? other =
      if other = handle then (arena.get? handle).map (·.setLink queue.ranking ⟨queue.tail, none, true⟩)
      else arena.get? other := Arena.get?_modify ..
  have in_list {other : Handle} (last : queue.tail = some other) : other ∈ list :=
    List.mem_of_getLast? (holds.tail ▸ last)
  have tail_live : ∀ other, queue.tail = some other → ∃ threaded, entered.get? other = some threaded := by
    intro other last
    have member := in_list last
    have different : other ≠ handle := fun same => outside (same ▸ member)
    simpa [get_entered, different] using holds.live member
  have wellFormed_entered : entered.WellFormed := Arena.modify_wellFormed wellFormed ..
  obtain ⟨arena', relinked, wellFormed', get⟩ :=
    relink_eq_some wellFormed_entered tail_live (·.setAfter queue.ranking (some handle))
  have not_tail : queue.tail ≠ some handle := fun last => outside (in_list last)
  refine ⟨_, by simp [push, found, stranger, entered, relinked]; rfl, ⟨?_, rfl, wellFormed', ?_⟩⟩
  · constructor
    · cases list <;> simp [holds.tail, holds.head]
    · simp
    · simp [holds.length]
    · simpa [List.nodup_append, holds.nodup] using fun other member (same : other = handle) =>
        outside (same ▸ member)
    · apply Threads.append.mpr
      constructor
      · have unmoved : Threads queue.ranking entered none list none := by
          apply holds.threads.congr
          intro other member
          have different : other ≠ handle := fun same => outside (same ▸ member)
          simp [link?, get_entered, different]
        apply unmoved.setAfter holds.nodup
        simpa [holds.tail] using get
      · rw [Threads, link?, get, if_neg not_tail, get_entered, if_pos rfl, found]
        simp [Threads, holds.tail]
    · intro other threaded' found' absent
      simp only [List.mem_append, List.mem_singleton, not_or] at absent
      rw [get, if_neg (fun last => absent.1 (in_list last)), get_entered, if_neg absent.2] at found'
      exact holds.outside other threaded' found' absent.1
  · exact (Relinked.modify (by simp) handle).trans (Relinked.of_get? (by simp [Threaded.setAfter]) get)

theorem Threads.bridge {ranking : Ranking} {arena arena' arena'' : Arena (Threaded α)} {front back : List Handle}
    (threads : Threads ranking arena none (front ++ handle :: back) none) (distinct : (front ++ handle :: back).Nodup)
    (get : ∀ other, arena'.get? other =
      if front.getLast? = some other then (arena.get? other).map (·.setAfter ranking back.head?) else arena.get? other)
    (get' : ∀ other, arena''.get? other =
      if back.head? = some other then (arena'.get? other).map (·.setBefore ranking front.getLast?)
      else arena'.get? other) :
    Threads ranking arena'' none (front ++ back) none := by
  obtain ⟨distinct_front, distinct_rest, across⟩ := List.nodup_append.mp distinct
  obtain ⟨before_handle, _, after_handle⟩ := Threads.append.mp threads
  apply Threads.append.mpr
  constructor
  · rw [Option.or_none]
    apply (before_handle.setAfter distinct_front get).congr
    intro other member
    have not_head : back.head? ≠ some other := fun head =>
      across other member other (by simp [List.mem_of_mem_head? head]) rfl
    rw [link?, get', if_neg not_head, link?]
  · rw [Option.or_none]
    have unmoved : Threads ranking arena' (some handle) back none := by
      apply after_handle.congr
      intro other member
      have not_last : front.getLast? ≠ some other := fun last =>
        across other (List.mem_of_getLast? last) other (by simp [member]) rfl
      rw [link?, get, if_neg not_last, link?]
    exact unmoved.setBefore (List.nodup_cons.mp distinct_rest).2 get'

theorem erase_eq_some (wellFormed : arena.WellFormed) (holds : Holds queue arena list) {threaded : Threaded α}
    (found : arena.get? handle = some threaded) :
    ∃ result, queue.erase arena handle = some (decide (handle ∈ list), result) ∧
      Rearranged queue arena (list.erase handle) result := by
  by_cases member : handle ∈ list
  · obtain ⟨front, back, rfl⟩ := List.append_of_mem member
    have linked : (threaded.link queue.ranking).member = true := (holds.member_iff found).mpr member
    obtain ⟨_, distinct_rest, across⟩ := List.nodup_append.mp holds.nodup
    have not_back : handle ∉ back := (List.nodup_cons.mp distinct_rest).1
    have not_front : handle ∉ front := fun inside => across handle inside handle (by simp) rfl
    obtain ⟨_, here, _⟩ := Threads.append.mp holds.threads
    have link : threaded.link queue.ranking = ⟨front.getLast?, back.head?, true⟩ := by
      simpa [link?, found] using here
    have in_front {other : Handle} (last : front.getLast? = some other) : other ∈ front :=
      List.mem_of_getLast? last
    have in_back {other : Handle} (head : back.head? = some other) : other ∈ back :=
      List.mem_of_mem_head? head
    have front_live : ∀ other, front.getLast? = some other → ∃ threaded, arena.get? other = some threaded :=
      fun other last => holds.live (by simp [in_front last])
    obtain ⟨first, relinked_first, wellFormed_first, get_first⟩ :=
      relink_eq_some wellFormed front_live (·.setAfter queue.ranking back.head?)
    have back_live : ∀ other, back.head? = some other → ∃ threaded, first.get? other = some threaded := by
      intro other head
      have member : other ∈ front ++ handle :: back := by simp [in_back head]
      obtain ⟨threaded', found'⟩ := holds.live member
      rw [get_first, found']
      split <;> simp
    obtain ⟨second, relinked_second, wellFormed_second, get_second⟩ :=
      relink_eq_some wellFormed_first back_live (·.setBefore queue.ranking front.getLast?)
    -- The last change is to the link of the handle itself, which is in the list no more.
    have get_third {other : Handle} (different : other ≠ handle) :
        (second.modify handle (·.setLink queue.ranking {})).get? other = second.get? other := by
      rw [Arena.get?_modify, if_neg different]
    have erased : (front ++ handle :: back).erase handle = front ++ back := by
      rw [List.erase_append_right _ not_front, List.erase_cons_head]
    rw [erased]
    refine ⟨_, by simp [erase, found, link, relinked_first, relinked_second]; rfl,
      ⟨⟨?_, ?_, ?_, ?_, ?_, ?_⟩, rfl, ?_, ?_⟩⟩
    · cases front <;> simp [holds.head]
    · cases back <;> simp [holds.tail]
    · simp [holds.length]
    · exact holds.nodup.sublist (by simp)
    · apply (holds.threads.bridge holds.nodup get_first get_second).congr
      intro other member
      have different : other ≠ handle := fun same =>
        (List.mem_append.mp member).elim (fun inside => not_front (same ▸ inside))
          (fun inside => not_back (same ▸ inside))
      rw [link?, get_third different, link?]
    · intro other threaded' found' absent
      rw [List.mem_append, not_or] at absent
      by_cases same : other = handle
      · rw [same, Arena.get?_modify, if_pos rfl, Option.map_eq_some_iff] at found'
        obtain ⟨_, _, rfl⟩ := found'
        exact Threaded.link_setLink ..
      · rw [get_third same, get_second, if_neg (fun head => absent.2 (in_back head)), get_first,
          if_neg (fun last => absent.1 (in_front last))] at found'
        exact holds.outside other threaded' found' (by simp [absent, same])
    · exact Arena.modify_wellFormed wellFormed_second ..
    · exact (Relinked.of_get? (by simp [Threaded.setAfter]) get_first).trans
        ((Relinked.of_get? (by simp [Threaded.setBefore]) get_second).trans (Relinked.modify (by simp) handle))
  · have stranger : (threaded.link queue.ranking).member = false := by
      rw [holds.outside handle threaded found member]
    exact ⟨(queue, arena), by simp [erase, found, stranger, member], by rwa [List.erase_of_not_mem member], rfl,
      wellFormed, .refl⟩

def movedToEnd (list : List Handle) (handle : Handle) : List Handle :=
  if handle ∈ list then list.erase handle ++ [handle] else list

theorem moveToEnd_eq_some (wellFormed : arena.WellFormed) (holds : Holds queue arena list) {threaded : Threaded α}
    (found : arena.get? handle = some threaded) :
    ∃ result, queue.moveToEnd arena handle = some result ∧
      Rearranged queue arena (movedToEnd list handle) result := by
  by_cases last : queue.tail = some handle
  · refine ⟨(queue, arena), by simp [moveToEnd, last], ?_, rfl, wellFormed, .refl⟩
    obtain ⟨front, rfl⟩ := List.getLast?_eq_some_iff.mp (holds.tail ▸ last)
    have not_front : handle ∉ front := fun inside =>
      (List.nodup_append.mp holds.nodup).2.2 handle inside handle (by simp) rfl
    have unmoved : movedToEnd (front ++ [handle]) handle = front ++ [handle] := by
      rw [movedToEnd, if_pos (by simp), List.erase_append_right _ not_front, List.erase_cons_head,
        List.append_nil]
    rwa [unmoved]
  · obtain ⟨⟨queue', arena'⟩, erased, rearranged⟩ := erase_eq_some wellFormed holds found
    by_cases member : handle ∈ list
    · obtain ⟨threaded', found', _⟩ := Option.map_eq_some_iff.mp
        ((rearranged.relinked.get?_item handle).trans (by rw [found]; rfl))
      obtain ⟨result, pushed, again⟩ :=
        push_eq_some rearranged.wellFormed rearranged.holds found' holds.nodup.not_mem_erase
      refine ⟨result, by simp [moveToEnd, last, erased, member, pushed], ?_⟩
      rw [movedToEnd, if_pos member]
      have relinked := again.relinked
      rw [rearranged.ranking] at relinked
      exact ⟨again.holds, again.ranking.trans rearranged.ranking, again.wellFormed,
        rearranged.relinked.trans relinked⟩
    · refine ⟨_, by simp [moveToEnd, last, erased, member]; rfl, ?_⟩
      simpa [movedToEnd, member, List.erase_of_not_mem] using rearranged

end LinkedQueue
end SegmentedCache
