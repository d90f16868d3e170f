import Mathlib.Algebra.Order.Group.Multiset
import Mathlib.Logic.Function.Basic
import SegmentedCache.Cache.Basic

namespace SegmentedCache

/-!
The life of loads, apart from all else. Each load that was issued is a task that one party has at hand, until it ends.
Its outcome is then a verdict that is to be announced, until it is settled.
-/

variable {K V : Type}

structure Task (K : Type) where
  flight : Flight
  key : Shared K
  keeper : Option ThreadId

def Task.load (task : Task K) : Load K V :=
  { key := task.key, owner := task.keeper }

structure Verdict (V : Type) where
  flight : Flight
  outcome : LoadOutcome V

structure Ending (K V : Type) where
  task : Task K
  outcome : LoadOutcome V

def Ending.verdict (ending : Ending K V) : Verdict V :=
  ⟨ending.task.flight, ending.outcome⟩

/-- The loads issued so far, those at hand, and the verdicts that are to be announced. -/
structure Docket (K V : Type) where
  loads : Flight → Option (Load K V)
  tasks : Multiset (Task K)
  verdicts : Multiset (Verdict V)

namespace Docket

/-- What can be done with loads, one thing at a time. -/
inductive Handles : Docket K V → List (Ending K V) → List (Verdict V) → Docket K V → Prop where
  | stay (docket : Docket K V) : Handles docket [] [] docket
  | start {loads : Flight → Option (Load K V)} {tasks : Multiset (Task K)} {verdicts : Multiset (Verdict V)}
      {flight : Flight} {key : Shared K} {thread : ThreadId} (new : loads flight = none) :
      Handles ⟨loads, tasks, verdicts⟩ [] []
        ⟨Function.update loads flight (some { key, owner := some thread }),
          ⟨flight, key, some thread⟩ ::ₘ tasks, verdicts⟩
  | pass {loads : Flight → Option (Load K V)} {tasks : Multiset (Task K)} {verdicts : Multiset (Verdict V)}
      {flight : Flight} {key : Shared K} {keeper keeper' : Option ThreadId} :
      Handles ⟨loads, ⟨flight, key, keeper⟩ ::ₘ tasks, verdicts⟩ [] []
        ⟨Function.update loads flight ((loads flight).map (·.setOwner keeper')),
          ⟨flight, key, keeper'⟩ ::ₘ tasks, verdicts⟩
  | finish {loads : Flight → Option (Load K V)} {tasks : Multiset (Task K)} {verdicts : Multiset (Verdict V)}
      (ending : Ending K V) :
      Handles ⟨loads, ending.task ::ₘ tasks, verdicts⟩ [ending] []
        ⟨loads, tasks, ending.verdict ::ₘ verdicts⟩
  | settle {loads : Flight → Option (Load K V)} {tasks : Multiset (Task K)} {verdicts : Multiset (Verdict V)}
      (verdict : Verdict V) :
      Handles ⟨loads, tasks, verdict ::ₘ verdicts⟩ [] [verdict]
        ⟨Function.update loads verdict.flight ((loads verdict.flight).map (·.settle verdict.outcome)),
          tasks, verdicts⟩

theorem Handles.beside {docket docket' : Docket K V} {ended : List (Ending K V)} {settled : List (Verdict V)}
    (handles : Handles docket ended settled docket') (tasks : Multiset (Task K)) (verdicts : Multiset (Verdict V)) :
    Handles ⟨docket.loads, docket.tasks + tasks, docket.verdicts + verdicts⟩ ended settled
      ⟨docket'.loads, docket'.tasks + tasks, docket'.verdicts + verdicts⟩ := by
  cases handles with
  | stay => exact .stay _
  | start new => simpa only [Multiset.cons_add] using .start new
  | pass => simpa only [Multiset.cons_add] using .pass
  | finish ending => simpa only [Multiset.cons_add] using .finish ending
  | settle verdict => simpa only [Multiset.cons_add] using .settle verdict

theorem Handles.issued {docket docket' : Docket K V} {ended : List (Ending K V)} {settled : List (Verdict V)}
    (handles : Handles docket ended settled docket') {flight : Flight} (issued : (docket.loads flight).isSome = true) :
    (docket'.loads flight).isSome = true := by
  cases handles with
  | stay | finish => exact issued
  | start | pass | settle =>
      simp only [Function.update_apply]
      split
      · simp_all
      · exact issued

structure Sound (docket : Docket K V) (ended : List (Ending K V)) (settled : List (Verdict V)) : Prop where
  at_hand : ∀ task ∈ docket.tasks, docket.loads task.flight = some task.load
  custody : ∀ flight, (docket.tasks.map Task.flight).count flight + (ended.map (·.task.flight)).count flight =
    (docket.loads flight).elim 0 fun _ => 1
  announced : (ended.map Ending.verdict : Multiset (Verdict V)) = settled + docket.verdicts
  outcomes : ∀ flight load, docket.loads flight = some load → ∀ outcome,
    load.outcome = some outcome ↔ ⟨flight, outcome⟩ ∈ settled
  owners : ∀ flight load thread, docket.loads flight = some load → load.owner = some thread →
    (∃ task ∈ docket.tasks, task.flight = flight ∧ task.keeper = some thread) ∨
      ∃ ending ∈ ended, ending.task.flight = flight ∧ ending.task.keeper = some thread

namespace Sound

variable {docket docket' : Docket K V} {ended new_ended : List (Ending K V)} {settled new_settled : List (Verdict V)}

theorem custody_le (sound : docket.Sound ended settled) (flight : Flight) :
    (docket.tasks.map Task.flight).count flight + (ended.map (·.task.flight)).count flight ≤ 1 := by
  rw [sound.custody]
  cases docket.loads flight <;> simp

theorem count_verdicts (sound : docket.Sound ended settled) (flight : Flight) :
    (settled.map Verdict.flight).count flight + (docket.verdicts.map Verdict.flight).count flight =
      (ended.map (·.task.flight)).count flight := by
  have flights := congrArg (fun verdicts => (verdicts.map Verdict.flight).count flight) sound.announced
  simp only [Multiset.map_add, Multiset.map_coe, Multiset.count_add, Multiset.coe_count, List.map_map] at flights
  exact flights.symm

theorem not_settled (sound : docket.Sound ended settled) {verdict : Verdict V} (waiting : verdict ∈ docket.verdicts)
    (outcome : LoadOutcome V) : ⟨verdict.flight, outcome⟩ ∉ settled := by
  intro member
  have once := sound.count_verdicts verdict.flight
  have custody := sound.custody_le verdict.flight
  have here : 0 < (docket.verdicts.map Verdict.flight).count verdict.flight :=
    Multiset.count_pos.mpr (Multiset.mem_map_of_mem _ waiting)
  have there : 0 < (settled.map Verdict.flight).count verdict.flight :=
    List.count_pos_iff.mpr (List.mem_map.mpr ⟨_, member, rfl⟩)
  omega

theorem not_at_hand (sound : docket.Sound ended settled) {flight : Flight}
    (spent : 0 < (ended.map (·.task.flight)).count flight) (task : Task K) (member : task ∈ docket.tasks) :
    task.flight ≠ flight := by
  rintro rfl
  have custody := sound.custody_le task.flight
  have here : 0 < (docket.tasks.map Task.flight).count task.flight :=
    Multiset.count_pos.mpr (Multiset.mem_map_of_mem _ member)
  omega

theorem ended_of_waiting (sound : docket.Sound ended settled) {verdict : Verdict V}
    (waiting : verdict ∈ docket.verdicts) : 0 < (ended.map (·.task.flight)).count verdict.flight := by
  have once := sound.count_verdicts verdict.flight
  have here : 0 < (docket.verdicts.map Verdict.flight).count verdict.flight :=
    Multiset.count_pos.mpr (Multiset.mem_map_of_mem _ waiting)
  omega

theorem start {loads : Flight → Option (Load K V)} {tasks : Multiset (Task K)} {verdicts : Multiset (Verdict V)}
    {flight : Flight} {key : Shared K} {thread : ThreadId} (sound : Sound ⟨loads, tasks, verdicts⟩ ended settled)
    (new : loads flight = none) :
    Sound ⟨Function.update loads flight (some { key, owner := some thread }),
      ⟨flight, key, some thread⟩ ::ₘ tasks, verdicts⟩ ended settled := by
  have nothing := sound.custody flight
  simp only [new, Option.elim_none, Nat.add_eq_zero_iff] at nothing
  refine ⟨?_, ?_, sound.announced, ?_, ?_⟩
  · intro task member
    rcases Multiset.mem_cons.mp member with rfl | earlier
    · exact Function.update_self ..
    · have issued := sound.at_hand task earlier
      have different : task.flight ≠ flight := fun same => by cases issued.symm.trans (same ▸ new)
      exact (Function.update_of_ne different ..).trans issued
  · intro other
    dsimp only
    rw [Multiset.map_cons, Multiset.count_cons]
    by_cases same : other = flight
    · subst same
      rw [Function.update_self, nothing.1, nothing.2, if_pos rfl]
      rfl
    · rw [Function.update_of_ne same, if_neg same]
      exact sound.custody other
  · intro other load issued outcome
    by_cases same : other = flight
    · subst same
      cases (Function.update_self ..).symm.trans issued
      refine ⟨nofun, fun member => ?_⟩
      have there : 0 < (settled.map Verdict.flight).count other :=
        List.count_pos_iff.mpr (List.mem_map.mpr ⟨_, member, rfl⟩)
      have once := sound.count_verdicts other
      omega
    · exact sound.outcomes other load ((Function.update_of_ne same ..).symm.trans issued) outcome
  · intro other load thread' issued owned
    by_cases same : other = flight
    · subst same
      cases (Function.update_self ..).symm.trans issued
      exact .inl ⟨_, Multiset.mem_cons_self .., rfl, owned⟩
    · refine (sound.owners other load thread' ((Function.update_of_ne same ..).symm.trans issued) owned).imp_left ?_
      rintro ⟨task, member, rest⟩
      exact ⟨task, Multiset.mem_cons_of_mem member, rest⟩

theorem pass {loads : Flight → Option (Load K V)} {tasks : Multiset (Task K)} {verdicts : Multiset (Verdict V)}
    {flight : Flight} {key : Shared K} {keeper keeper' : Option ThreadId}
    (sound : Sound ⟨loads, ⟨flight, key, keeper⟩ ::ₘ tasks, verdicts⟩ ended settled) :
    Sound ⟨Function.update loads flight ((loads flight).map (·.setOwner keeper')),
      ⟨flight, key, keeper'⟩ ::ₘ tasks, verdicts⟩ ended settled := by
  have issued : loads flight = some { key, owner := keeper } := sound.at_hand _ (Multiset.mem_cons_self ..)
  have custody := sound.custody
  dsimp only at custody
  simp only [Multiset.map_cons, Multiset.count_cons] at custody
  have alone (task : Task K) (member : task ∈ tasks) : task.flight ≠ flight := by
    rintro rfl
    have once := custody task.flight
    have here : 0 < (tasks.map Task.flight).count task.flight :=
      Multiset.count_pos.mpr (Multiset.mem_map_of_mem _ member)
    simp only [issued, Option.elim_some, ↓reduceIte] at once
    omega
  rw [issued, Option.map_some]
  refine ⟨?_, ?_, sound.announced, ?_, ?_⟩
  · intro task member
    rcases Multiset.mem_cons.mp member with rfl | other
    · exact Function.update_self ..
    · exact (Function.update_of_ne (alone task other) ..).trans (sound.at_hand task (Multiset.mem_cons_of_mem other))
  · intro other
    dsimp only
    rw [Multiset.map_cons, Multiset.count_cons, custody other]
    by_cases same : other = flight
    · rw [same, Function.update_self, issued]
      rfl
    · rw [Function.update_of_ne same]
  · intro other load issued' outcome
    by_cases same : other = flight
    · subst same
      cases (Function.update_self ..).symm.trans issued'
      exact sound.outcomes other _ issued outcome
    · exact sound.outcomes other load ((Function.update_of_ne same ..).symm.trans issued') outcome
  · intro other load thread issued' owned
    by_cases same : other = flight
    · subst same
      cases (Function.update_self ..).symm.trans issued'
      exact .inl ⟨_, Multiset.mem_cons_self .., rfl, owned⟩
    · refine (sound.owners other load thread ((Function.update_of_ne same ..).symm.trans issued') owned).imp_left ?_
      rintro ⟨task, member, flight_eq, kept⟩
      rcases Multiset.mem_cons.mp member with rfl | there
      · exact absurd flight_eq.symm same
      · exact ⟨task, Multiset.mem_cons_of_mem there, flight_eq, kept⟩

theorem finish {loads : Flight → Option (Load K V)} {tasks : Multiset (Task K)} {verdicts : Multiset (Verdict V)}
    {ending : Ending K V} (sound : Sound ⟨loads, ending.task ::ₘ tasks, verdicts⟩ ended settled) :
    Sound ⟨loads, tasks, ending.verdict ::ₘ verdicts⟩ (ended ++ [ending]) settled := by
  refine ⟨fun task member => sound.at_hand task (Multiset.mem_cons_of_mem member), ?_, ?_, sound.outcomes, ?_⟩
  · intro flight
    have custody := sound.custody flight
    dsimp only at custody ⊢
    rw [Multiset.map_cons, Multiset.count_cons] at custody
    rw [List.map_append, List.count_append, List.map_singleton, List.count_singleton, ← custody]
    by_cases same : flight = ending.task.flight
    · simp [same]
      omega
    · simp [same, Ne.symm same]
  · rw [List.map_append, ← Multiset.coe_add, sound.announced, Multiset.add_cons, List.map_singleton,
      Multiset.coe_singleton, Multiset.add_comm, Multiset.singleton_add]
  · intro flight load thread issued owned
    rcases sound.owners flight load thread issued owned
      with ⟨task, member, flight_eq, kept⟩ | ⟨earlier, member, rest⟩
    · rcases Multiset.mem_cons.mp member with rfl | there
      · exact .inr ⟨ending, by simp, flight_eq, kept⟩
      · exact .inl ⟨task, there, flight_eq, kept⟩
    · exact .inr ⟨earlier, List.mem_append_left _ member, rest⟩

theorem settle {loads : Flight → Option (Load K V)} {tasks : Multiset (Task K)} {verdicts : Multiset (Verdict V)}
    {verdict : Verdict V} (sound : Sound ⟨loads, tasks, verdict ::ₘ verdicts⟩ ended settled) :
    Sound ⟨Function.update loads verdict.flight ((loads verdict.flight).map (·.settle verdict.outcome)), tasks,
      verdicts⟩ ended (settled ++ [verdict]) := by
  have waiting : verdict ∈ verdict ::ₘ verdicts := Multiset.mem_cons_self ..
  have spent := sound.ended_of_waiting waiting
  refine ⟨?_, ?_, ?_, ?_, ?_⟩
  · intro task member
    exact (Function.update_of_ne (sound.not_at_hand spent task member) ..).trans (sound.at_hand task member)
  · intro flight
    have custody := sound.custody flight
    dsimp only at custody ⊢
    rw [custody]
    by_cases same : flight = verdict.flight
    · rw [same, Function.update_self]
      cases loads verdict.flight <;> rfl
    · rw [Function.update_of_ne same]
  · rw [sound.announced, ← Multiset.coe_add, Multiset.coe_singleton, Multiset.add_assoc, Multiset.singleton_add]
  · intro flight load issued outcome
    rw [List.mem_append, List.mem_singleton]
    by_cases same : flight = verdict.flight
    · subst same
      dsimp only at issued
      rw [Function.update_self] at issued
      obtain ⟨before, issued', rfl⟩ := Option.map_eq_some_iff.mp issued
      have undecided : before.outcome = none := by
        by_contra decided
        obtain ⟨earlier, known⟩ := Option.ne_none_iff_exists'.mp decided
        exact sound.not_settled waiting earlier ((sound.outcomes _ before issued' earlier).mp known)
      have unsettled := sound.not_settled waiting outcome
      obtain ⟨flight, announced⟩ := verdict
      simp only [Load.settle, undecided, Option.none_or, Option.some_inj, unsettled, false_or, Verdict.mk.injEq,
        true_and]
      exact eq_comm
    · rw [sound.outcomes flight load ((Function.update_of_ne same ..).symm.trans issued) outcome]
      refine ⟨.inl, fun settled' => settled'.resolve_right fun equal => ?_⟩
      exact same (congrArg Verdict.flight equal)
  · intro flight load thread issued owned
    by_cases same : flight = verdict.flight
    · subst same
      dsimp only at issued
      rw [Function.update_self] at issued
      obtain ⟨before, issued', rfl⟩ := Option.map_eq_some_iff.mp issued
      exact sound.owners _ before thread issued' owned
    · exact sound.owners flight load thread ((Function.update_of_ne same ..).symm.trans issued) owned

theorem blank : Sound (⟨fun _ => none, 0, 0⟩ : Docket K V) [] [] where
  at_hand := by simp
  custody := by simp
  announced := rfl
  outcomes := nofun
  owners := nofun

theorem handles (sound : docket.Sound ended settled) (handles : Handles docket new_ended new_settled docket') :
    docket'.Sound (ended ++ new_ended) (settled ++ new_settled) := by
  cases handles with
  | stay => simpa using sound
  | start new => simpa using sound.start new
  | pass => simpa using sound.pass
  | finish ending => simpa using sound.finish
  | settle verdict => simpa using sound.settle

end Sound

end Docket
end SegmentedCache
