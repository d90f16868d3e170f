import SegmentedCache.Proofs.Cache.Tending
import SegmentedCache.Proofs.Cache.Work

namespace SegmentedCache

open Docket (Handles)

/-!
Who has which load at hand. A load is in the frame that will run its loader or give it up, or in the queue of the
background, and the outcome of one that ended is in the frame that will announce it.
-/

variable {K V τ : Type}

namespace Frame

def starts : Frame K V → List (Shared K)
  | .start (.refresh key) | .claim key _ _ | .renew key _ _ _ => [key]
  | _ => []

def task? (thread : ThreadId) : Frame K V → Option (Task K)
  | .found key _ _ renewal | .answer key _ _ renewal | .renewed key renewal =>
      renewal.map fun renewal => ⟨renewal.1, key, some thread⟩
  | .claimed key _ segment (.granted load) => some ⟨⟨segment, load⟩, key, some thread⟩
  | .loading key flight _ _ _ => some ⟨flight, key, some thread⟩
  | .cancel key flight => some ⟨flight, key, none⟩
  | _ => none

def verdict? : Frame K V → Option (Verdict V)
  | .settle flight outcome => some ⟨flight, outcome⟩
  | _ => none

def isPlain : Frame K V → Bool
  | .found _ _ _ renewal | .answer _ _ _ renewal | .renewed _ renewal => renewal.isNone
  | .start _ | .claimed .. | .await .. | .loading .. | .settle .. | .cancel .. => false
  | _ => true

theorem task?_of_plain {frame : Frame K V} (plain : frame.isPlain = true) (thread : ThreadId) :
    frame.task? thread = none := by
  cases frame with
  | found _ _ _ renewal | answer _ _ _ renewal | renewed _ renewal =>
      rw [Frame.task?, Option.isNone_iff_eq_none.mp plain]
      rfl
  | claimed | loading | cancel => cases plain
  | _ => rfl

theorem verdict?_of_plain {frame : Frame K V} (plain : frame.isPlain = true) : frame.verdict? = none := by
  cases frame with
  | settle => cases plain
  | _ => rfl

theorem awaited?_of_plain {frame : Frame K V} (plain : frame.isPlain = true) : frame.awaited? = none := by
  cases frame with
  | claimed | await => cases plain
  | _ => rfl

theorem keeper_of_task {frame : Frame K V} {thread other : ThreadId} {task : Task K}
    (at_hand : frame.task? thread = some task) (kept : task.keeper = some other) : thread = other := by
  cases frame with
  | found | answer | renewed =>
      obtain ⟨_, _, rfl⟩ := Option.map_eq_some_iff.mp at_hand
      exact Option.some.inj kept
  | claimed _ _ _ claim =>
      cases claim with
      | granted =>
          cases at_hand
          exact Option.some.inj kept
      | taken | needless => cases at_hand
  | loading =>
      cases at_hand
      exact Option.some.inj kept
  | cancel =>
      cases at_hand
      cases kept
  | _ => cases at_hand

theorem isPlain_of_delivers {frame : Frame K V} (delivers : frame.delivers = true) : frame.isPlain = true := by
  cases frame with
  | deliver | delivering | listening => rfl
  | _ => cases delivers

theorem of_task {frame : Frame K V} {thread : ThreadId} {task : Task K} (at_hand : frame.task? thread = some task) :
    frame.verdict? = none ∧ frame.awaited? = none ∧ ∀ request, frame ≠ .start request := by
  cases frame with
  | found | answer | renewed | loading | cancel => exact ⟨rfl, rfl, nofun⟩
  | claimed _ _ _ claim =>
      cases claim with
      | granted => exact ⟨rfl, rfl, nofun⟩
      | taken | needless => cases at_hand
  | _ => cases at_hand

end Frame

def LoaderEnd.outcome (hash : UInt64) : LoaderEnd V → LoadOutcome V
  | .value loaded => .ok loaded
  | .nothing => .error (CacheError.nothingLoaded.withContext "hash" (toString hash.toNat))
  | .failed failure => .error ((CacheError.loadFailed failure).withContext "hash" (toString hash.toNat))
  | .panicked _ => .error (.loadDropped hash)

def Background.tasks : Background K V → Multiset (Task K)
  | .queue reloads => (reloads.map fun reload => ⟨reload.flight, reload.key, Option.none⟩ : List (Task K))
  | _ => 0

theorem Background.keeper_of_task {background : Background K V} {task : Task K} (queued : task ∈ background.tasks) :
    task.keeper = Option.none := by
  cases background with
  | queue reloads =>
      obtain ⟨reload, _, rfl⟩ := List.mem_map.mp (Multiset.mem_coe.mp queued)
      rfl
  | none | closed => cases Multiset.notMem_zero _ queued

namespace Cache

def tasksOf (thread : ThreadId) (frames : List (Frame K V)) : Multiset (Task K) :=
  (frames.filterMap (·.task? thread) : List (Task K))

def verdictsOf (frames : List (Frame K V)) : Multiset (Verdict V) :=
  (frames.filterMap (·.verdict?) : List (Verdict V))

def Backed : List (Frame K V) → Prop
  | [] => True
  | .loading key _ _ _ _ :: rest => (∃ objects, .holding objects ∈ rest ∧ key.id ∈ objects) ∧ Backed rest
  | _ :: rest => Backed rest

/-- Frames in which one thing at most is to be done about loads, before anything else but deliveries. -/
structure Minded (cache : Cache K V τ) (frames : List (Frame K V)) : Prop where
  secure : frames.Pairwise fun first later => first.delivers = true ∨ later.isPlain = true
  backed : Backed frames
  issued : ∀ frame ∈ frames, ∀ flight, frame.awaited? = some flight → (cache.standing? flight).isSome = true

structure Tends (held : Reach) (spent : Flight → Prop) (thread : ThreadId) (cache : Cache K V τ) (frame : Frame K V)
    (ended : List (Ending K V)) (settled : List (Verdict V)) (result : Cache K V τ × List (Frame K V)) : Prop where
  tended : result.1.Tended held fun flight => spent flight ∨ flight ∈ ended.map (·.task.flight)
  handles : Handles
    ⟨cache.standing?, tasksOf thread [frame] + cache.background.tasks, verdictsOf [frame]⟩ ended settled
    ⟨result.1.standing?, tasksOf thread result.2 + result.1.background.tasks, verdictsOf result.2⟩
  minded : Minded result.1 result.2
  begun : ∀ request, .start request ∉ result.2

variable {cache t : Cache K V τ} {held reach : Reach} {spent : Flight → Prop} {flight : Flight} {key : Shared K}
  {thread : ThreadId} {frame : Frame K V} {frames : List (Frame K V)} {ended : List (Ending K V)}
  {settled : List (Verdict V)}

@[simp] theorem tasksOf_nil (thread : ThreadId) : tasksOf thread ([] : List (Frame K V)) = 0 :=
  rfl

@[simp] theorem tasksOf_cons (thread : ThreadId) (frame : Frame K V) (frames : List (Frame K V)) :
    tasksOf thread (frame :: frames) = (frame.task? thread).elim 0 ({·}) + tasksOf thread frames := by
  cases found : frame.task? thread with
  | none =>
      rw [tasksOf, List.filterMap_cons_none found]
      exact (zero_add _).symm
  | some task =>
      rw [tasksOf, List.filterMap_cons_some found, ← Multiset.cons_coe, Option.elim_some, Multiset.singleton_add]
      rfl

@[simp] theorem verdictsOf_nil : verdictsOf ([] : List (Frame K V)) = 0 :=
  rfl

@[simp] theorem verdictsOf_cons (frame : Frame K V) (frames : List (Frame K V)) :
    verdictsOf (frame :: frames) = frame.verdict?.elim 0 ({·}) + verdictsOf frames := by
  cases found : frame.verdict? with
  | none =>
      rw [verdictsOf, List.filterMap_cons_none found]
      exact (zero_add _).symm
  | some verdict =>
      rw [verdictsOf, List.filterMap_cons_some found, ← Multiset.cons_coe, Option.elim_some, Multiset.singleton_add]
      rfl

theorem tasksOf_append (thread : ThreadId) (first second : List (Frame K V)) :
    tasksOf thread (first ++ second) = tasksOf thread first + tasksOf thread second := by
  simp only [tasksOf, List.filterMap_append, ← Multiset.coe_add]

theorem verdictsOf_append (first second : List (Frame K V)) :
    verdictsOf (first ++ second) = verdictsOf first + verdictsOf second := by
  simp only [verdictsOf, List.filterMap_append, ← Multiset.coe_add]

theorem tasksOf_of_task {task : Task K} (at_hand : frame.task? thread = some task) :
    tasksOf thread [frame] = {task} := by
  rw [tasksOf_cons, at_hand]
  rfl

theorem verdictsOf_of_none (verdict : frame.verdict? = none) : verdictsOf [frame] = 0 := by
  rw [verdictsOf_cons, verdict]
  rfl

theorem Backed.append {more : List (Frame K V)} (first : Backed frames) (second : Backed more) :
    Backed (frames ++ more) := by
  induction frames with
  | nil => exact second
  | cons frame rest ih =>
      cases frame with
      | loading =>
          obtain ⟨⟨objects, member, holds⟩, backed⟩ := first
          exact ⟨⟨objects, List.mem_append_left _ member, holds⟩, ih backed⟩
      | _ => exact ih first

theorem Tends.running (tended : t.Tended held spent)
    (handles : Handles ⟨cache.standing?, tasksOf thread [frame] + cache.background.tasks, verdictsOf [frame]⟩
      [] settled ⟨t.standing?, tasksOf thread frames + t.background.tasks, verdictsOf frames⟩)
    (minded : Minded t frames) (begun : ∀ request, .start request ∉ frames) :
    Tends held spent thread cache frame [] settled (t, frames) :=
  ⟨by simpa using tended, handles, minded, begun⟩

theorem Tends.of_drifts (drifts : Drifts held spent cache t) (tasks : tasksOf thread frames = tasksOf thread [frame])
    (verdicts : verdictsOf frames = verdictsOf [frame]) (minded : Minded t frames)
    (begun : ∀ request, .start request ∉ frames) : Tends held spent thread cache frame [] [] (t, frames) := by
  apply Tends.running drifts.tended _ minded begun
  rw [drifts.standing, drifts.background, tasks, verdicts]
  exact .stay _

theorem secure_of_plain (plain : frames.all (·.isPlain) = true) :
    frames.Pairwise fun first later => first.delivers = true ∨ later.isPlain = true :=
  List.pairwise_of_forall_mem_list fun _ _ later member => .inr (List.all_eq_true.mp plain later member)

theorem backed_of_plain (plain : frames.all (·.isPlain) = true) : Backed frames := by
  induction frames with
  | nil => trivial
  | cons frame rest ih =>
      rw [List.all_cons, Bool.and_eq_true] at plain
      cases frame with
      | loading => cases plain.1
      | _ => exact ih plain.2

theorem plain_of_deliveries (deliveries : ∀ frame ∈ frames, frame = .deliver) : frames.all (·.isPlain) = true := by
  rw [List.all_eq_true]
  intro frame member
  rw [deliveries frame member]
  rfl

theorem awaited?_of_all_plain (plain : frames.all (·.isPlain) = true) (frame : Frame K V) (member : frame ∈ frames) :
    frame.awaited? = none :=
  Frame.awaited?_of_plain (List.all_eq_true.mp plain frame member)

theorem start_of_all_plain (plain : frames.all (·.isPlain) = true) (request : Request K V) :
    .start request ∉ frames :=
  fun member => nomatch List.all_eq_true.mp plain _ member

theorem Minded.of_plain (plain : frames.all (·.isPlain) = true) : Minded cache frames :=
  ⟨secure_of_plain plain, backed_of_plain plain, fun frame member flight awaited => by
    cases (awaited?_of_all_plain plain frame member).symm.trans awaited⟩

theorem tasksOf_of_plain (plain : frames.all (·.isPlain) = true) (thread : ThreadId) :
    tasksOf thread frames = 0 := by
  rw [List.all_eq_true] at plain
  rw [tasksOf, List.filterMap_eq_nil_iff.mpr fun frame member => Frame.task?_of_plain (plain frame member) thread]
  rfl

theorem verdictsOf_of_plain (plain : frames.all (·.isPlain) = true) : verdictsOf frames = 0 := by
  rw [List.all_eq_true] at plain
  rw [verdictsOf, List.filterMap_eq_nil_iff.mpr fun frame member => Frame.verdict?_of_plain (plain frame member)]
  rfl

theorem Tends.plain (drifts : Drifts held spent cache t) (task : frame.task? thread = none)
    (verdict : frame.verdict? = none) (plain : frames.all (·.isPlain) = true) :
    Tends held spent thread cache frame [] [] (t, frames) := by
  apply Tends.of_drifts drifts
  · rw [tasksOf_of_plain plain, tasksOf_cons, task]
    rfl
  · rw [verdictsOf_of_plain plain, verdictsOf_of_none verdict]
  · exact .of_plain plain
  · exact start_of_all_plain plain

theorem tasks_of_next {reload : Reload K V} (next : cache.nextReload? = some (reload, t)) :
    ∃ background, t = { cache with background } ∧
      cache.background.tasks = ⟨reload.flight, reload.key, none⟩ ::ₘ background.tasks := by
  unfold nextReload? at next
  split at next
  · rename_i first reloads queued
    cases next
    refine ⟨_, rfl, ?_⟩
    rw [queued]
    rfl
  · cases next

theorem Tends.start (starts : Starts held spent flight key thread cache t) (task : frame.task? thread = none)
    (verdict : frame.verdict? = none) {next : Frame K V}
    (at_hand : next.task? thread = some ⟨flight, key, some thread⟩) (backed : Backed [next]) :
    Tends held spent thread cache frame [] [] (t, [.deliver, next]) := by
  obtain ⟨verdict', quiet, begun⟩ := Frame.of_task at_hand
  have before : tasksOf thread [frame] = 0 := by
    rw [tasksOf_cons, task]
    rfl
  have after : tasksOf thread [.deliver, next] = {⟨flight, key, some thread⟩} := by
    rw [tasksOf_cons, tasksOf_of_task at_hand]
    exact zero_add _
  have verdicts : verdictsOf [.deliver, next] = 0 := by
    rw [verdictsOf_cons, verdictsOf_of_none verdict']
    exact zero_add _
  refine .running starts.tended ?_ ⟨?_, backed, ?_⟩ ?_
  · rw [before, after, verdicts, verdictsOf_of_none verdict, starts.standing, starts.background, zero_add,
      Multiset.singleton_add]
    exact .start starts.new
  · simp [Frame.delivers]
  · intro frame member flight awaited
    rcases List.mem_cons.mp member with rfl | member
    · cases awaited
    · rw [List.mem_singleton.mp member, quiet] at awaited
      cases awaited
  · intro request member
    simp only [List.mem_cons, reduceCtorEq, List.not_mem_nil, or_false, false_or] at member
    exact begun request member.symm

theorem Tends.carry (drifts : Drifts held spent cache t) (first : List (Frame K V)) (next : Frame K V)
    (rest : List (Frame K V)) (verdict : frame.verdict? = none) (task : next.task? thread = frame.task? thread)
    (verdict' : next.verdict? = none) (quiet : next.awaited? = none) (backed : Backed [next])
    (begun : ∀ request, next ≠ .start request) (deliveries : ∀ frame ∈ first, frame = .deliver)
    (plain : rest.all (·.isPlain) = true) :
    Tends held spent thread cache frame [] [] (t, first ++ next :: rest) := by
  have plain_first := plain_of_deliveries deliveries
  refine .of_drifts drifts ?_ ?_ ⟨?_, ?_, ?_⟩ ?_
  · rw [tasksOf_append, tasksOf_of_plain plain_first, tasksOf_cons, tasksOf_of_plain plain, task, tasksOf_cons]
    exact zero_add _
  · rw [verdictsOf_append, verdictsOf_of_plain plain_first, verdictsOf_cons, verdictsOf_of_plain plain, verdict',
      verdictsOf_of_none verdict]
    rfl
  · refine List.pairwise_append.mpr ⟨secure_of_plain plain_first, ?_, ?_⟩
    · exact .cons (fun later member => .inr (List.all_eq_true.mp plain later member)) (secure_of_plain plain)
    · intro earlier member _ _
      rw [deliveries earlier member]
      exact .inl rfl
  · exact (backed_of_plain plain_first).append (backed.append (backed_of_plain plain))
  · simp only [List.mem_append, List.mem_cons]
    rintro frame (member | rfl | member) flight awaited
    · cases (awaited?_of_all_plain plain_first frame member).symm.trans awaited
    · cases quiet.symm.trans awaited
    · cases (awaited?_of_all_plain plain frame member).symm.trans awaited
  · simp only [List.mem_append, List.mem_cons]
    rintro request (member | same | member)
    · exact start_of_all_plain plain_first request member
    · exact begun request same.symm
    · exact start_of_all_plain plain request member

theorem Tends.await (drifts : Drifts held spent cache t) (task : frame.task? thread = none)
    (verdict : frame.verdict? = none) (key : Shared K) (issued : (cache.standing? flight).isSome = true) :
    Tends held spent thread cache frame [] [] (t, [.await key flight]) := by
  refine .of_drifts drifts ?_ ?_ ⟨?_, ?_, ?_⟩ (by simp)
  · rw [tasksOf_cons, tasksOf_cons, task]
    rfl
  · rw [verdictsOf_of_none verdict]
    rfl
  · simp
  · simp [Backed]
  · rw [drifts.standing]
    simpa [Frame.awaited?] using issued

end Cache
end SegmentedCache
