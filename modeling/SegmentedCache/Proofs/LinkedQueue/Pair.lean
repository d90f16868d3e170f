import Mathlib.Data.List.Induction
import Mathlib.Logic.Function.Basic
import SegmentedCache.Proofs.LinkedQueue

namespace SegmentedCache

/-!
Two queues that run through one arena. Each is a list that its own operations change as their names say, and neither
takes notice of the other, nor of who comes and goes without standing in it.
-/

variable {α : Type}

structure QueuePair (α : Type) where
  arena : Arena (Threaded α)
  access : LinkedQueue := { ranking := .access }
  write : LinkedQueue := { ranking := .write }

namespace QueuePair

open LinkedQueue

def queue (pair : QueuePair α) : Ranking → LinkedQueue
  | .access => pair.access
  | .write => pair.write

def setQueue (pair : QueuePair α) (ranking : Ranking) (queue : LinkedQueue) (arena : Arena (Threaded α)) :
    QueuePair α :=
  match ranking with
  | .access => { pair with arena, access := queue }
  | .write => { pair with arena, write := queue }

def list (pair : QueuePair α) (ranking : Ranking) : List Handle :=
  (pair.queue ranking).toList pair.arena

def push (pair : QueuePair α) (ranking : Ranking) (handle : Handle) : Option (QueuePair α) := do
  let (queue, arena) ← (pair.queue ranking).push pair.arena handle
  return pair.setQueue ranking queue arena

def erase (pair : QueuePair α) (ranking : Ranking) (handle : Handle) : Option (Bool × QueuePair α) := do
  let (found, queue, arena) ← (pair.queue ranking).erase pair.arena handle
  return (found, pair.setQueue ranking queue arena)

def moveToEnd (pair : QueuePair α) (ranking : Ranking) (handle : Handle) : Option (QueuePair α) := do
  let (queue, arena) ← (pair.queue ranking).moveToEnd pair.arena handle
  return pair.setQueue ranking queue arena

def insert (pair : QueuePair α) (item : α) : QueuePair α :=
  { pair with arena := (pair.arena.insert { item }).2 }

def remove (pair : QueuePair α) (handle : Handle) : QueuePair α :=
  { pair with arena := (pair.arena.remove handle).2 }

def IsUnlinked (pair : QueuePair α) (handle : Handle) : Prop :=
  ∀ threaded, pair.arena.get? handle = some threaded → ∀ ranking, (threaded.link ranking).member = false

/-- What comes of an arena in which nobody queues: occupants enter a queue in which they do not stand, and leave the
arena when they stand in none. -/
inductive Reached : QueuePair α → Prop where
  | start {arena : Arena (Threaded α)} (wellFormed : arena.WellFormed)
      (unlinked : ∀ handle threaded, arena.get? handle = some threaded → ∀ ranking, threaded.link ranking = {}) :
      Reached { arena }
  | push {pair next : QueuePair α} (reached : Reached pair) (ranking : Ranking) (handle : Handle)
      {threaded : Threaded α} (live : pair.arena.get? handle = some threaded)
      (unlinked : (threaded.link ranking).member = false) (pushed : pair.push ranking handle = some next) :
      Reached next
  | erase {pair next : QueuePair α} (reached : Reached pair) (ranking : Ranking) (handle : Handle)
      {threaded : Threaded α} (live : pair.arena.get? handle = some threaded) {found : Bool}
      (erased : pair.erase ranking handle = some (found, next)) : Reached next
  | moveToEnd {pair next : QueuePair α} (reached : Reached pair) (ranking : Ranking) (handle : Handle)
      {threaded : Threaded α} (live : pair.arena.get? handle = some threaded)
      (moved : pair.moveToEnd ranking handle = some next) : Reached next
  | insert {pair : QueuePair α} (reached : Reached pair) (item : α) : Reached (pair.insert item)
  | remove {pair : QueuePair α} (reached : Reached pair) {handle : Handle} (unlinked : pair.IsUnlinked handle) :
      Reached (pair.remove handle)

@[simp] theorem arena_setQueue (pair : QueuePair α) (ranking : Ranking) (queue : LinkedQueue)
    (arena : Arena (Threaded α)) : (pair.setQueue ranking queue arena).arena = arena := by
  cases ranking <;> rfl

@[simp] theorem queue_setQueue (pair : QueuePair α) (ranking : Ranking) (queue : LinkedQueue)
    (arena : Arena (Threaded α)) : (pair.setQueue ranking queue arena).queue ranking = queue := by
  cases ranking <;> rfl

theorem queue_setQueue_ne (pair : QueuePair α) {ranking other : Ranking} (different : other ≠ ranking)
    (queue : LinkedQueue) (arena : Arena (Threaded α)) :
    (pair.setQueue ranking queue arena).queue other = pair.queue other := by
  cases ranking <;> cases other <;> first | rfl | exact absurd rfl different

/-- From `start` on, one link after the other, one comes through exactly `list`. -/
def Follows (onward : Link → Option Handle) (ranking : Ranking) (arena : Arena (Threaded α)) :
    Option Handle → List Handle → Prop
  | start, [] => start = none
  | start, handle :: rest => start = some handle ∧
      ∃ link, link? ranking arena handle = some link ∧ Follows onward ranking arena (onward link) rest

end QueuePair

namespace LinkedQueue.Threads

open QueuePair (Follows)

variable {ranking : Ranking} {arena : Arena (Threaded α)} {before after : Option Handle} {list : List Handle}

theorem forward (threads : Threads ranking arena before list none) :
    Follows Link.after ranking arena list.head? list := by
  induction list generalizing before with
  | nil => rfl
  | cons handle rest ih =>
      refine ⟨rfl, _, threads.1, ?_⟩
      simpa using ih threads.2

theorem backward (threads : Threads ranking arena none list after) :
    Follows Link.before ranking arena list.getLast? list.reverse := by
  induction list using List.reverseRecOn generalizing after with
  | nil => rfl
  | append_singleton front handle ih =>
      obtain ⟨before, here⟩ := append.mp threads
      rw [List.reverse_append, List.getLast?_append]
      refine ⟨rfl, _, here.1, ?_⟩
      simpa using ih before

end LinkedQueue.Threads

namespace QueuePair

open LinkedQueue

structure Stands (pair : QueuePair α) (lists : Ranking → List Handle) : Prop where
  wellFormed : pair.arena.WellFormed
  ranking : ∀ ranking, (pair.queue ranking).ranking = ranking
  holds : ∀ ranking, Holds (pair.queue ranking) pair.arena (lists ranking)

structure Relisted (pair : QueuePair α) (ranking : Ranking) (list : List Handle) (next : QueuePair α) : Prop where
  list_eq : next.list ranking = list
  others : ∀ other, other ≠ ranking → next.queue other = pair.queue other ∧ next.list other = pair.list other
  relinked : Relinked ranking pair.arena next.arena

namespace Stands

variable {pair : QueuePair α} {lists : Ranking → List Handle} {handle : Handle}

theorem list_eq (stands : Stands pair lists) (ranking : Ranking) : pair.list ranking = lists ranking :=
  (stands.holds ranking).toList_eq stands.wellFormed

theorem congr (stands : Stands pair lists) {arena : Arena (Threaded α)} (wellFormed : arena.WellFormed)
    (holds : ∀ ranking, Holds (pair.queue ranking) arena (lists ranking)) :
    Stands { pair with arena } lists where
  wellFormed := wellFormed
  ranking := stands.ranking
  holds := holds

theorem insert (stands : Stands pair lists) (item : α) : Stands (pair.insert item) lists := by
  refine stands.congr (Arena.insert_wellFormed stands.wellFormed _) fun ranking => ?_
  exact (stands.holds ranking).insert (Arena.get?_insert_fresh stands.wellFormed _)
    (Arena.get?_insert stands.wellFormed _) (by cases (pair.queue ranking).ranking <;> rfl)

theorem remove (stands : Stands pair lists) (unlinked : pair.IsUnlinked handle) :
    Stands (pair.remove handle) lists := by
  refine stands.congr (Arena.remove_wellFormed stands.wellFormed _) fun ranking => ?_
  refine (stands.holds ranking).remove ?_ (Arena.get?_remove pair.arena handle)
  intro member
  obtain ⟨threaded, found⟩ := (stands.holds ranking).live member
  have linked := ((stands.holds ranking).member_iff found).mpr member
  rw [unlinked threaded found] at linked
  cases linked

theorem rearranged (stands : Stands pair lists) {ranking : Ranking} {list : List Handle} {queue : LinkedQueue}
    {arena : Arena (Threaded α)}
    (rearranged : Rearranged (pair.queue ranking) pair.arena list (queue, arena)) :
    Stands (pair.setQueue ranking queue arena) (Function.update lists ranking list) ∧
      Relisted pair ranking list (pair.setQueue ranking queue arena) := by
  have relinked : Relinked ranking pair.arena arena := stands.ranking ranking ▸ rearranged.relinked
  have after : Stands (pair.setQueue ranking queue arena) (Function.update lists ranking list) := by
    constructor
    · simpa using rearranged.wellFormed
    · intro other
      by_cases same : other = ranking
      · subst same
        simpa using rearranged.ranking.trans (stands.ranking other)
      · rw [queue_setQueue_ne _ same, stands.ranking]
    · intro other
      by_cases same : other = ranking
      · subst same
        simpa using rearranged.holds
      · -- The other queue follows links that the change has left alone.
        rw [queue_setQueue_ne _ same, Function.update_of_ne same, arena_setQueue]
        refine (stands.holds other).congr fun handle => relinked.link?_ne ?_ handle
        rwa [stands.ranking]
  refine ⟨after, ?_, ?_, by simpa using relinked⟩
  · rw [after.list_eq, Function.update_self]
  · intro other different
    exact ⟨queue_setQueue_ne _ different .., by rw [after.list_eq, Function.update_of_ne different, stands.list_eq]⟩

theorem push (stands : Stands pair lists) (ranking : Ranking) {threaded : Threaded α}
    (live : pair.arena.get? handle = some threaded)
    (unlinked : (threaded.link ranking).member = false) :
    ∃ next, pair.push ranking handle = some next ∧
      Stands next (Function.update lists ranking (lists ranking ++ [handle])) ∧
      Relisted pair ranking (lists ranking ++ [handle]) next := by
  have outside : handle ∉ lists ranking := by
    rw [← (stands.holds ranking).member_iff live, stands.ranking, unlinked]
    simp
  obtain ⟨⟨queue, arena⟩, pushed, rearranged⟩ :=
    push_eq_some stands.wellFormed (stands.holds ranking) live outside
  exact ⟨pair.setQueue ranking queue arena, by simp [QueuePair.push, pushed], stands.rearranged rearranged⟩

theorem erase (stands : Stands pair lists) (ranking : Ranking) {threaded : Threaded α}
    (live : pair.arena.get? handle = some threaded) :
    ∃ next, pair.erase ranking handle = some (decide (handle ∈ lists ranking), next) ∧
      Stands next (Function.update lists ranking ((lists ranking).erase handle)) ∧
      Relisted pair ranking ((lists ranking).erase handle) next := by
  obtain ⟨⟨queue, arena⟩, erased, rearranged⟩ := erase_eq_some stands.wellFormed (stands.holds ranking) live
  exact ⟨pair.setQueue ranking queue arena, by simp [QueuePair.erase, erased], stands.rearranged rearranged⟩

theorem moveToEnd (stands : Stands pair lists) (ranking : Ranking) {threaded : Threaded α}
    (live : pair.arena.get? handle = some threaded) :
    ∃ next, pair.moveToEnd ranking handle = some next ∧
      Stands next (Function.update lists ranking (movedToEnd (lists ranking) handle)) ∧
      Relisted pair ranking (movedToEnd (lists ranking) handle) next := by
  obtain ⟨⟨queue, arena⟩, moved, rearranged⟩ := moveToEnd_eq_some stands.wellFormed (stands.holds ranking) live
  exact ⟨pair.setQueue ranking queue arena, by simp [QueuePair.moveToEnd, moved], stands.rearranged rearranged⟩

end Stands

theorem stands_of_reached {pair : QueuePair α} (reached : Reached pair) : ∃ lists, Stands pair lists := by
  induction reached with
  | @start arena wellFormed unlinked =>
      refine ⟨fun _ => [], wellFormed, fun ranking => by cases ranking <;> rfl, fun ranking => ?_⟩
      cases ranking <;>
        exact ⟨rfl, rfl, rfl, List.nodup_nil, trivial,
          fun handle threaded found _ => unlinked handle threaded found _⟩
  | push _ ranking handle live unlinked pushed ih =>
      obtain ⟨lists, stands⟩ := ih
      obtain ⟨next, pushed', after, _⟩ := stands.push ranking live unlinked
      cases pushed.symm.trans pushed'
      exact ⟨_, after⟩
  | erase _ ranking handle live erased ih =>
      obtain ⟨lists, stands⟩ := ih
      obtain ⟨next, erased', after, _⟩ := stands.erase ranking live
      cases erased.symm.trans erased'
      exact ⟨_, after⟩
  | moveToEnd _ ranking handle live moved ih =>
      obtain ⟨lists, stands⟩ := ih
      obtain ⟨next, moved', after, _⟩ := stands.moveToEnd ranking live
      cases moved.symm.trans moved'
      exact ⟨_, after⟩
  | insert _ item ih =>
      obtain ⟨lists, stands⟩ := ih
      exact ⟨lists, stands.insert item⟩
  | remove _ unlinked ih =>
      obtain ⟨lists, stands⟩ := ih
      exact ⟨lists, stands.remove unlinked⟩

structure Listed (pair : QueuePair α) : Prop where
  forward : ∀ ranking, Follows Link.after ranking pair.arena (pair.queue ranking).head (pair.list ranking)
  backward : ∀ ranking,
    Follows Link.before ranking pair.arena (pair.queue ranking).tail (pair.list ranking).reverse
  distinct : ∀ ranking, (pair.list ranking).Nodup
  length : ∀ ranking, (pair.queue ranking).length = (pair.list ranking).length
  front : ∀ ranking, (pair.queue ranking).head = (pair.list ranking).head?
  member : ∀ ranking handle, handle ∈ pair.list ranking ↔
    ∃ threaded, pair.arena.get? handle = some threaded ∧ (threaded.link ranking).member = true
  push : ∀ ranking handle threaded, pair.arena.get? handle = some threaded →
    (threaded.link ranking).member = false →
    ∃ next, pair.push ranking handle = some next ∧ Relisted pair ranking (pair.list ranking ++ [handle]) next
  erase : ∀ ranking handle threaded, pair.arena.get? handle = some threaded →
    ∃ next, pair.erase ranking handle = some (decide (handle ∈ pair.list ranking), next) ∧
      Relisted pair ranking ((pair.list ranking).erase handle) next
  moveToEnd : ∀ ranking handle threaded, pair.arena.get? handle = some threaded →
    ∃ next, pair.moveToEnd ranking handle = some next ∧
      Relisted pair ranking (movedToEnd (pair.list ranking) handle) next
  insert : ∀ item ranking, (pair.insert item).list ranking = pair.list ranking
  remove : ∀ handle, pair.IsUnlinked handle →
    ∀ ranking, (pair.remove handle).list ranking = pair.list ranking

theorem listed_of_reached {pair : QueuePair α} (reached : Reached pair) : Listed pair := by
  obtain ⟨lists, stands⟩ := stands_of_reached reached
  have list_eq := stands.list_eq
  constructor
  · intro ranking
    have holds := stands.holds ranking
    rw [list_eq, holds.head]
    simpa [stands.ranking] using holds.threads.forward
  · intro ranking
    have holds := stands.holds ranking
    rw [list_eq, holds.tail]
    simpa [stands.ranking] using holds.threads.backward
  · exact fun ranking => list_eq ranking ▸ (stands.holds ranking).nodup
  · exact fun ranking => list_eq ranking ▸ (stands.holds ranking).length
  · exact fun ranking => list_eq ranking ▸ (stands.holds ranking).head
  · intro ranking handle
    rw [list_eq]
    constructor
    · intro member
      obtain ⟨threaded, found⟩ := (stands.holds ranking).live member
      have linked := ((stands.holds ranking).member_iff found).mpr member
      exact ⟨threaded, found, by rwa [stands.ranking] at linked⟩
    · rintro ⟨threaded, found, linked⟩
      apply ((stands.holds ranking).member_iff found).mp
      rwa [stands.ranking]
  · intro ranking handle threaded live unlinked
    obtain ⟨next, pushed, _, relisted⟩ := stands.push ranking live unlinked
    exact ⟨next, pushed, list_eq ranking ▸ relisted⟩
  · intro ranking handle threaded live
    obtain ⟨next, erased, _, relisted⟩ := stands.erase ranking live
    rw [list_eq]
    exact ⟨next, erased, relisted⟩
  · intro ranking handle threaded live
    obtain ⟨next, moved, _, relisted⟩ := stands.moveToEnd ranking live
    exact ⟨next, moved, list_eq ranking ▸ relisted⟩
  · intro item ranking
    rw [(stands.insert item).list_eq, list_eq]
  · intro handle unlinked ranking
    rw [(stands.remove unlinked).list_eq, list_eq]

theorem listed_after_moving :
    let first : Handle := ⟨0, 0⟩
    let second : Handle := ⟨1, 0⟩
    let arena (front back other : Link) : Arena (Threaded Nat) :=
      { slots := #[.occupied ⟨5, front, other⟩ 0, .occupied ⟨6, back, {}⟩ 0], vacated := none, size := 2 }
    let pair : QueuePair Nat :=
      { arena := arena ⟨some second, none, true⟩ ⟨none, some first, true⟩ ⟨none, none, true⟩
        access := { ranking := .access, head := some second, tail := some first, length := 2 }
        write := { ranking := .write, head := some first, tail := some first, length := 1 } }
    Reached pair ∧ pair.list .access = [second, first] ∧ pair.list .write = [first] ∧ Listed pair := by
  intro first second arena pair
  have start : Reached ({ arena := Arena.empty } : QueuePair Nat) :=
    .start Arena.empty_wellFormed fun handle threaded found => by cases Arena.get?_empty handle ▸ found
  have waiting : Reached { arena := arena {} {} {} } := (start.insert 5).insert 6
  have written : Reached
      { arena := arena {} {} ⟨none, none, true⟩
        write := { ranking := .write, head := some first, tail := some first, length := 1 } } :=
    waiting.push .write first rfl rfl rfl
  have ranked : Reached
      { arena := arena ⟨none, none, true⟩ {} ⟨none, none, true⟩
        access := { ranking := .access, head := some first, tail := some first, length := 1 }
        write := { ranking := .write, head := some first, tail := some first, length := 1 } } :=
    written.push .access first rfl rfl rfl
  have both : Reached
      { arena := arena ⟨none, some second, true⟩ ⟨some first, none, true⟩ ⟨none, none, true⟩
        access := { ranking := .access, head := some first, tail := some second, length := 2 }
        write := { ranking := .write, head := some first, tail := some first, length := 1 } } :=
    ranked.push .access second rfl rfl rfl
  have reached : Reached pair := both.moveToEnd .access first rfl rfl
  exact ⟨reached, rfl, rfl, listed_of_reached reached⟩

end QueuePair
end SegmentedCache
