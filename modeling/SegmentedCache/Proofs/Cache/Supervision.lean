import Mathlib.Algebra.BigOperators.Group.Finset.Basic
import SegmentedCache.Proofs.Cache.Handling
import SegmentedCache.Proofs.Cache.History

namespace SegmentedCache

open Docket (Handles)

/-!
Runs of a cache as what they do about loads. Every step does one thing about one load at most, and whatever is to be
done about a load, exactly one frame or queue has it at hand.
-/

variable {K V τ : Type}

namespace Cache

section Across

variable {M : Type} [AddCommMonoid M]

def across (f : ThreadId → List (Call K V) → M) (cache : Cache K V τ) : M :=
  ∑ thread ∈ Finset.range cache.calls.size, f thread (cache.callsOf thread)

theorem across_eq {f : ThreadId → List (Call K V) → M} (idle : ∀ thread, f thread [] = 0) (cache : Cache K V τ)
    {limit : Nat} (enough : cache.calls.size ≤ limit) :
    cache.across f = ∑ thread ∈ Finset.range limit, f thread (cache.callsOf thread) := by
  apply Finset.sum_subset (Finset.range_subset_range.mpr enough)
  intro thread _ outside
  rw [Finset.mem_range, Nat.not_lt] at outside
  rw [callsOf, Array.getElem?_eq_none outside]
  exact idle thread

theorem across_setCalls {f : ThreadId → List (Call K V) → M} (idle : ∀ thread, f thread [] = 0)
    (cache : Cache K V τ) (thread : ThreadId) :
    ∃ others, cache.across f = f thread (cache.callsOf thread) + others ∧
      ∀ (cache' : Cache K V τ) (calls : List (Call K V)), cache'.calls = cache.calls →
        (cache'.setCalls thread calls).across f = f thread calls + others := by
  have inside : thread ∈ Finset.range (max cache.calls.size (thread + 1)) := by simp
  refine ⟨∑ other ∈ (Finset.range (max cache.calls.size (thread + 1))).erase thread,
    f other (cache.callsOf other), ?_, ?_⟩
  · rw [across_eq idle cache (Nat.le_max_left _ (thread + 1))]
    exact (Finset.add_sum_erase _ (fun thread => f thread (cache.callsOf thread)) inside).symm
  · intro cache' calls same
    have size : (cache'.setCalls thread calls).calls.size ≤ max cache.calls.size (thread + 1) := by
      simp [Cache.setCalls, same]
      omega
    rw [across_eq idle _ size, ← Finset.add_sum_erase _ _ inside, callsOf_setCalls, if_pos rfl]
    refine congrArg _ (Finset.sum_congr rfl fun other member => ?_)
    rw [callsOf_setCalls, if_neg (Finset.ne_of_mem_erase member), callsOf, callsOf, same]

end Across

def tasksOfCalls (thread : ThreadId) (calls : List (Call K V)) : Multiset (Task K) :=
  tasksOf thread (calls.flatMap (·.frames))

def verdictsOfCalls (_ : ThreadId) (calls : List (Call K V)) : Multiset (Verdict V) :=
  verdictsOf (calls.flatMap (·.frames))

def docket (cache : Cache K V τ) : Docket K V where
  loads := cache.standing?
  tasks := cache.across tasksOfCalls + cache.background.tasks
  verdicts := cache.across verdictsOfCalls

/-- Loads are where they belong. `ended` are the loads that ended so far, and `settled` the verdicts that were
announced. -/
structure Supervised (cache : Cache K V τ) (ended : List (Ending K V)) (settled : List (Verdict V)) : Prop where
  tended : cache.Tended (fun _ => true) fun flight => flight ∈ ended.map (·.task.flight)
  sound : cache.docket.Sound ended settled
  minded : ∀ thread, ∀ call ∈ cache.callsOf thread, Minded cache call.frames
  begun : ∀ thread, ∀ call ∈ cache.callsOf thread, ∀ request, .start request ∈ call.frames →
    call.arguments = request.objects

variable {cache cache' : Cache K V τ} {ended new_ended : List (Ending K V)} {settled new_settled : List (Verdict V)}
  {thread : ThreadId}

theorem Supervised.change (supervised : cache.Supervised ended settled) (same : cache'.calls = cache.calls)
    {calls : List (Call K V)}
    (handles : Handles
      ⟨cache.standing?, tasksOfCalls thread (cache.callsOf thread) + cache.background.tasks,
        verdictsOfCalls thread (cache.callsOf thread)⟩ new_ended new_settled
      ⟨cache'.standing?, tasksOfCalls thread calls + cache'.background.tasks, verdictsOfCalls thread calls⟩)
    (tended : cache'.Tended (fun _ => true) fun flight => flight ∈ (ended ++ new_ended).map (·.task.flight))
    (minded : ∀ call ∈ calls, call ∈ cache.callsOf thread ∨ Minded cache' call.frames)
    (begun : ∀ call ∈ calls, call ∈ cache.callsOf thread ∨
      ∀ request, .start request ∈ call.frames → call.arguments = request.objects) :
    (cache'.setCalls thread calls).Supervised (ended ++ new_ended) (settled ++ new_settled) := by
  obtain ⟨tasks, tasks_eq, tasks_eq'⟩ := across_setCalls (f := tasksOfCalls) (fun _ => rfl) cache thread
  obtain ⟨verdicts, verdicts_eq, verdicts_eq'⟩ := across_setCalls (f := verdictsOfCalls) (fun _ => rfl) cache thread
  have handles' : Handles cache.docket new_ended new_settled (cache'.setCalls thread calls).docket := by
    have beside := handles.beside tasks verdicts
    simp only [add_right_comm _ (Background.tasks _) tasks] at beside
    rw [docket, docket, tasks_eq, verdicts_eq, tasks_eq' cache' calls same, verdicts_eq' cache' calls same]
    exact beside
  refine ⟨tended, supervised.sound.handles handles', ?_, ?_⟩
  · intro other call member
    rw [callsOf_setCalls] at member
    have earlier (before : call ∈ cache.callsOf other) : Minded (cache'.setCalls thread calls) call.frames := by
      have kept := supervised.minded other call before
      exact ⟨kept.secure, kept.backed, fun frame inside flight awaited =>
        handles'.issued (kept.issued frame inside flight awaited)⟩
    split at member
    · rename_i here
      rcases minded call member with before | now
      · exact earlier (here ▸ before)
      · exact ⟨now.secure, now.backed, now.issued⟩
    · rw [callsOf_congr same] at member
      exact earlier member
  · intro other call member
    rw [callsOf_setCalls] at member
    split at member
    · rename_i here
      exact (begun call member).elim (fun before => supervised.begun other call (here ▸ before)) id
    · rw [callsOf_congr same] at member
      exact supervised.begun other call member

theorem mem_callsOf {call : Call K V} :
    call ∈ cache.callsOf thread ↔ ∃ calls, cache.calls[thread]? = some calls ∧ call ∈ calls := by
  rw [callsOf]
  cases cache.calls[thread]? <;> simp

theorem mem_objects_iff {object : ObjectId} :
    object ∈ cache.objects ↔ object ∈ cache.undelivered.flatMap Removal.objects ∨
      object ∈ backgroundObjects cache.background ∨
        ∃ thread, ∃ call ∈ cache.callsOf thread, object ∈ cache.callObjects call := by
  rw [objects, List.mem_append, List.mem_append, or_assoc]
  refine or_congr_right (or_congr_right ⟨fun kept => ?_, ?_⟩)
  · obtain ⟨calls, member, kept⟩ := List.mem_flatMap.mp kept
    obtain ⟨thread, found⟩ := Array.mem_iff_getElem?.mp (Array.mem_toList_iff.mp member)
    obtain ⟨call, inside, needs⟩ := List.mem_flatMap.mp kept
    exact ⟨thread, call, mem_callsOf.mpr ⟨calls, found, inside⟩, needs⟩
  · rintro ⟨thread, call, member, needs⟩
    obtain ⟨calls, found, inside⟩ := mem_callsOf.mp member
    exact List.mem_flatMap.mpr ⟨calls, List.mem_of_getElem? (Array.getElem?_toList.trans found),
      List.mem_flatMap.mpr ⟨call, inside, needs⟩⟩

theorem mem_objects {call : Call K V} (member : call ∈ cache.callsOf thread) {object : ObjectId}
    (kept : object ∈ call.arguments ∨ ∃ frame ∈ call.frames, object ∈ frame.objects) :
    object ∈ cache.objects := by
  refine mem_objects_iff.mpr (.inr (.inr ⟨thread, call, member, ?_⟩))
  rcases kept with argument | ⟨frame, there, holds⟩
  · exact List.mem_append_left _ argument
  · exact List.mem_append_right _ (List.mem_flatMap.mpr ⟨frame, there, List.mem_append_left _ holds⟩)

theorem spared_of_mem_objects (held : Reach) {object : ObjectId} (member : object ∈ cache.objects) :
    cache.policy.spared (cache.reach held) object = true := by
  cases reclaims : cache.policy.reclaims with
  | false => simp [Policy.spared, reclaims]
  | true => simp [Policy.spared, reach, reclaims, member]

theorem Minded.mem_objects {frames : List (Frame K V)} (minded : Minded cache frames) {frame : Frame K V}
    (member : frame ∈ frames) {task : Task K} (at_hand : frame.task? thread = some task) :
    ∃ frame' ∈ frames, task.key.id ∈ frame'.objects := by
  have backed : ∀ {frames : List (Frame K V)} {key flight started source} {purpose : Purpose V}, Backed frames →
      .loading key flight started source purpose ∈ frames → ∃ objects, .holding objects ∈ frames ∧
      key.id ∈ objects := by
    intro frames key flight started source purpose backed member
    induction frames with
    | nil => cases member
    | cons frame rest ih =>
        rcases List.mem_cons.mp member with rfl | later
        · obtain ⟨⟨objects, there, holds⟩, _⟩ := backed
          exact ⟨objects, List.mem_cons_of_mem _ there, holds⟩
        · have rest_backed : Backed rest := by
            cases frame with
            | loading => exact backed.2
            | _ => exact backed
          obtain ⟨objects, there, holds⟩ := ih rest_backed later
          exact ⟨objects, List.mem_cons_of_mem _ there, holds⟩
  cases frame with
  | loading key =>
      cases at_hand
      obtain ⟨objects, there, holds⟩ := backed minded.backed member
      exact ⟨_, there, holds⟩
  | found _ _ _ renewal | answer _ _ _ renewal | renewed _ renewal =>
      obtain ⟨_, rfl, rfl⟩ := Option.map_eq_some_iff.mp at_hand
      exact ⟨_, member, List.mem_cons_self⟩
  | claimed _ _ _ claim =>
      cases claim with
      | granted =>
          cases at_hand
          exact ⟨_, member, List.mem_cons_self⟩
      | taken | needless => cases at_hand
  | cancel =>
      cases at_hand
      exact ⟨_, member, List.mem_cons_self⟩
  | _ => cases at_hand

theorem mem_tasksOfCalls {calls : List (Call K V)} {task : Task K} :
    task ∈ tasksOfCalls thread calls ↔ ∃ call ∈ calls, ∃ frame ∈ call.frames, frame.task? thread =
      some task := by
  simp only [tasksOfCalls, tasksOf, Multiset.mem_coe, List.mem_filterMap, List.mem_flatMap]
  constructor
  · rintro ⟨frame, ⟨call, member, inside⟩, at_hand⟩
    exact ⟨call, member, frame, inside, at_hand⟩
  · rintro ⟨call, member, frame, inside, at_hand⟩
    exact ⟨frame, ⟨call, member, inside⟩, at_hand⟩

theorem mem_across {f : ThreadId → List (Call K V) → Multiset (Task K)} (idle : ∀ thread, f thread [] = 0)
    {task : Task K} : task ∈ cache.across f ↔ ∃ thread, task ∈ f thread (cache.callsOf thread) := by
  rw [across, Multiset.mem_sum]
  constructor
  · rintro ⟨thread, _, member⟩
    exact ⟨thread, member⟩
  · rintro ⟨thread, member⟩
    refine ⟨thread, ?_, member⟩
    by_contra outside
    rw [Finset.mem_range, Nat.not_lt] at outside
    rw [callsOf, Array.getElem?_eq_none outside] at member
    rw [show f thread (none.getD []) = 0 from idle thread] at member
    cases Multiset.notMem_zero _ member

namespace Supervised

variable (supervised : cache.Supervised ended settled)

include supervised

theorem spared (held : Reach) {task : Task K} (member : task ∈ cache.docket.tasks) :
    cache.policy.spared (cache.reach held) task.key.id = true := by
  apply spared_of_mem_objects
  rcases Multiset.mem_add.mp member with in_call | queued
  · obtain ⟨thread, in_call⟩ := (mem_across fun _ => rfl).mp in_call
    obtain ⟨call, inside, frame, there, at_hand⟩ := mem_tasksOfCalls.mp in_call
    obtain ⟨frame', there', holds⟩ := (supervised.minded thread call inside).mem_objects there at_hand
    exact Cache.mem_objects inside (.inr ⟨frame', there', holds⟩)
  · cases waiting : cache.background with
    | none | closed =>
        rw [waiting] at queued
        cases Multiset.notMem_zero _ queued
    | queue reloads =>
        rw [waiting] at queued
        obtain ⟨reload, there, rfl⟩ := List.mem_map.mp (Multiset.mem_coe.mp queued)
        refine List.mem_append_left _ (List.mem_append_right _ ?_)
        rw [waiting]
        exact List.mem_flatMap.mpr ⟨reload, there, List.mem_cons_self⟩

theorem at_hand {flight : Flight} {load : Load K V} (issued : cache.standing? flight = some load)
    (running : flight ∉ ended.map (·.task.flight)) :
    ∃ task ∈ cache.docket.tasks, task.flight = flight ∧ load = task.load := by
  have custody := supervised.sound.custody flight
  rw [show cache.docket.loads flight = some load from issued, Option.elim_some, List.count_eq_zero_of_not_mem running,
    Nat.add_zero] at custody
  obtain ⟨task, member, rfl⟩ := Multiset.mem_map.mp (Multiset.count_pos.mp (custody ▸ Nat.one_pos))
  exact ⟨task, member, rfl, Option.some.inj (issued.symm.trans (supervised.sound.at_hand task member))⟩

theorem running {task : Task K} (member : task ∈ cache.docket.tasks) :
    task.flight ∉ ended.map (·.task.flight) := by
  intro spent
  exact supervised.sound.not_at_hand (List.count_pos_iff.mpr spent) task member rfl

theorem tended_spared (held : Reach) :
    cache.Tended (cache.policy.spared (cache.reach held)) fun flight => flight ∈ ended.map (·.task.flight) := by
  apply supervised.tended.hold
  intro flight load issued running
  obtain ⟨task, member, rfl, rfl⟩ := supervised.at_hand issued running
  exact supervised.spared held member

theorem resume {held : Reach} {frame : Frame K V} {arguments : List ObjectId} {rest more : List (Frame K V)}
    {outer : List (Call K V)} {result : Cache K V τ × List (Frame K V)}
    (here : cache.callsOf thread = ⟨arguments, frame :: rest⟩ :: outer) (quiet : frame.delivers = false)
    (dropped : ∀ frame ∈ more, frame ∈ rest) (same : result.1.calls = cache.calls)
    (tends : Tends held (fun flight => flight ∈ ended.map (·.task.flight)) thread cache frame new_ended new_settled
      result) :
    (result.1.setCalls thread (⟨arguments, result.2 ++ more⟩ :: outer)).Supervised (ended ++ new_ended)
      (settled ++ new_settled) := by
  have before := supervised.minded thread _ (here ▸ List.mem_cons_self)
  have plain : rest.all (·.isPlain) = true := by
    rw [List.all_eq_true]
    intro later member
    exact ((List.pairwise_cons.mp before.secure).1 later member).resolve_left (by simp [quiet])
  have plain' : more.all (·.isPlain) = true := by
    rw [List.all_eq_true] at plain ⊢
    exact fun frame member => plain frame (dropped frame member)
  refine supervised.change same ?_ ?_ ?_ ?_
  · have beside := tends.handles.beside (tasksOfCalls thread outer) (verdictsOfCalls thread outer)
    have tasks : tasksOfCalls thread (⟨arguments, frame :: rest⟩ :: outer) =
        tasksOf thread [frame] + tasksOfCalls thread outer := by
      rw [tasksOfCalls, List.flatMap_cons, tasksOf_append, tasksOf_cons, tasksOf_of_plain plain, tasksOf_cons]
      rfl
    have tasks' : tasksOfCalls thread (⟨arguments, result.2 ++ more⟩ :: outer) =
        tasksOf thread result.2 + tasksOfCalls thread outer := by
      rw [tasksOfCalls, List.flatMap_cons, tasksOf_append, tasksOf_append, tasksOf_of_plain plain', add_zero]
      rfl
    have verdicts : verdictsOfCalls thread (⟨arguments, frame :: rest⟩ :: outer) =
        verdictsOf [frame] + verdictsOfCalls thread outer := by
      rw [verdictsOfCalls, List.flatMap_cons, verdictsOf_append, verdictsOf_cons, verdictsOf_of_plain plain,
        verdictsOf_cons]
      rfl
    have verdicts' : verdictsOfCalls thread (⟨arguments, result.2 ++ more⟩ :: outer) =
        verdictsOf result.2 + verdictsOfCalls thread outer := by
      rw [verdictsOfCalls, List.flatMap_cons, verdictsOf_append, verdictsOf_append,
        verdictsOf_of_plain plain', add_zero]
      rfl
    rw [here, tasks, tasks', verdicts, verdicts', add_right_comm, add_right_comm _ (tasksOfCalls thread outer)]
    exact beside
  · have tended : result.1.Tended held fun flight => flight ∈ (ended ++ new_ended).map (·.task.flight) := by
      simpa using tends.tended
    exact tended.hold fun _ _ _ _ => rfl
  · intro call member
    rcases List.mem_cons.mp member with rfl | further
    · right
      refine ⟨List.pairwise_append.mpr ⟨tends.minded.secure, secure_of_plain plain', ?_⟩,
        tends.minded.backed.append (backed_of_plain plain'), ?_⟩
      · exact fun _ _ later there => .inr (List.all_eq_true.mp plain' later there)
      · intro frame there flight awaited
        rcases List.mem_append.mp there with new | old
        · exact tends.minded.issued frame new flight awaited
        · cases (awaited?_of_all_plain plain' frame old).symm.trans awaited
    · exact .inl (here ▸ List.mem_cons_of_mem _ further)
  · intro call member
    rcases List.mem_cons.mp member with rfl | further
    · right
      intro request there
      rcases List.mem_append.mp there with new | old
      · exact absurd new (tends.begun request)
      · exact absurd old (start_of_all_plain plain' request)
    · exact .inl (here ▸ List.mem_cons_of_mem _ further)

theorem shuffle (thread : ThreadId) (undelivered : List (Removal K V)) (delivering : Bool) (log : List LogEvent)
    {calls : List (Call K V)} (tasks : tasksOfCalls thread calls = tasksOfCalls thread (cache.callsOf thread))
    (verdicts : verdictsOfCalls thread calls = verdictsOfCalls thread (cache.callsOf thread))
    (minded : ∀ call ∈ calls, call ∈ cache.callsOf thread ∨ Minded cache call.frames)
    (begun : ∀ call ∈ calls, call ∈ cache.callsOf thread ∨
      ∀ request, .start request ∈ call.frames → call.arguments = request.objects) :
    ({ cache with undelivered, delivering, log }.setCalls thread calls).Supervised ended settled := by
  have stay : Handles
      ⟨cache.standing?, tasksOfCalls thread (cache.callsOf thread) + cache.background.tasks,
        verdictsOfCalls thread (cache.callsOf thread)⟩ [] []
      ⟨cache.standing?, tasksOfCalls thread calls + cache.background.tasks, verdictsOfCalls thread calls⟩ := by
    rw [tasks, verdicts]
    exact .stay _
  have minded' (call : Call K V) (member : call ∈ calls) :
      call ∈ cache.callsOf thread ∨ Minded { cache with undelivered, delivering, log } call.frames :=
    (minded call member).imp_right fun new => ⟨new.secure, new.backed, new.issued⟩
  have tended : cache.Tended (fun _ => true)
      fun flight => flight ∈ (ended ++ ([] : List (Ending K V))).map (·.task.flight) := by
    simpa using supervised.tended
  have same : { cache with undelivered, delivering, log }.calls = cache.calls := rfl
  simpa using supervised.change same stay tended minded' begun

theorem rearrange {frame : Frame K V} {arguments : List ObjectId} {rest : List (Frame K V)} {outer : List (Call K V)}
    (here : cache.callsOf thread = ⟨arguments, frame :: rest⟩ :: outer) (delivers : frame.delivers = true)
    (new : List (Frame K V)) (deliveries : ∀ frame ∈ new, frame.delivers = true)
    (undelivered : List (Removal K V)) (delivering : Bool) (log : List LogEvent) :
    ({ cache with undelivered, delivering, log }.setCalls thread
        (⟨arguments, new ++ rest⟩ :: outer)).Supervised ended
      settled := by
  have plain : new.all (·.isPlain) = true :=
    List.all_eq_true.mpr fun frame member => Frame.isPlain_of_delivers (deliveries frame member)
  have before := supervised.minded thread _ (here ▸ List.mem_cons_self)
  have plain' : [frame].all (·.isPlain) = true := List.all_eq_true.mpr fun other member =>
    List.mem_singleton.mp member ▸ Frame.isPlain_of_delivers delivers
  have tasks : tasksOfCalls thread (⟨arguments, new ++ rest⟩ :: outer) =
      tasksOfCalls thread (⟨arguments, [frame] ++ rest⟩ :: outer) := by
    simp only [tasksOfCalls, List.flatMap_cons, tasksOf_append, tasksOf_of_plain plain, tasksOf_of_plain plain']
  have verdicts : verdictsOfCalls thread (⟨arguments, new ++ rest⟩ :: outer) =
      verdictsOfCalls thread (⟨arguments, [frame] ++ rest⟩ :: outer) := by
    simp only [verdictsOfCalls, List.flatMap_cons, verdictsOf_append, verdictsOf_of_plain plain,
      verdictsOf_of_plain plain']
  have backed : Backed rest := by
    have whole := before.backed
    cases frame with
    | loading => cases delivers
    | _ => exact whole
  refine supervised.shuffle thread undelivered delivering log (here ▸ tasks) (here ▸ verdicts) ?_ ?_
  · intro call member
    rcases List.mem_cons.mp member with rfl | further
    · right
      refine ⟨List.pairwise_append.mpr ⟨secure_of_plain plain, before.secure.of_cons, ?_⟩,
        (backed_of_plain plain).append backed, ?_⟩
      · exact fun earlier there _ _ => .inl (deliveries earlier there)
      · intro frame there flight awaited
        rcases List.mem_append.mp there with now | old
        · cases (awaited?_of_all_plain plain frame now).symm.trans awaited
        · exact before.issued frame (List.mem_cons_of_mem _ old) flight awaited
    · exact .inl (here ▸ List.mem_cons_of_mem _ further)
  · intro call member
    rcases List.mem_cons.mp member with rfl | further
    · right
      intro request there
      rcases List.mem_append.mp there with now | old
      · exact absurd now (start_of_all_plain plain request)
      · have known : (⟨arguments, frame :: rest⟩ : Call K V) ∈ cache.callsOf thread :=
          here ▸ List.mem_cons_self
        exact supervised.begun thread _ known request (List.mem_cons_of_mem _ old)
    · exact .inl (here ▸ List.mem_cons_of_mem _ further)

theorem leave {call : Call K V} {outer : List (Call K V)} (here : cache.callsOf thread = call :: outer)
    (plain : call.frames.all (·.isPlain) = true) : (cache.setCalls thread outer).Supervised ended settled := by
  refine supervised.shuffle thread cache.undelivered cache.delivering cache.log ?_ ?_ ?_ ?_
  · rw [here, tasksOfCalls, tasksOfCalls, List.flatMap_cons, tasksOf_append, tasksOf_of_plain plain, zero_add]
  · rw [here, verdictsOfCalls, verdictsOfCalls, List.flatMap_cons, verdictsOf_append,
      verdictsOf_of_plain plain, zero_add]
  · exact fun call member => .inl (here ▸ List.mem_cons_of_mem _ member)
  · exact fun call member => .inl (here ▸ List.mem_cons_of_mem _ member)

theorem enter (thread : ThreadId) (request : Request K V) :
    (cache.setCalls thread (⟨request.objects, [.start request]⟩ :: cache.callsOf thread)).Supervised ended
      settled := by
  refine supervised.shuffle thread cache.undelivered cache.delivering cache.log rfl rfl ?_ ?_
  · intro call member
    rcases List.mem_cons.mp member with rfl | earlier
    · exact .inr ⟨List.pairwise_singleton .., trivial, fun frame there flight awaited => by
        cases List.mem_singleton.mp there
        cases awaited⟩
    · exact .inl earlier
  · intro call member
    rcases List.mem_cons.mp member with rfl | earlier
    · refine .inr fun other there => ?_
      cases List.mem_singleton.mp there
      rfl
    · exact .inl earlier

end Supervised

end Cache
end SegmentedCache
