import SegmentedCache.Proofs.Cache.Delivery
import SegmentedCache.Proofs.Cache.Serving
import SegmentedCache.Proofs.Cache.Settlement
import SegmentedCache.Proofs.Segment.Losses

namespace SegmentedCache

open Docket (Handles)

/-!
Calls that loaders and the listener make on the thread that they run on. Without a background, the thread itself runs
each load that it could be told to wait for, so it is refused at once and nobody is ever blocked.
-/

variable {K V τ : Type}

inductive Frame.AwaitsValue : List (Frame K V) → Prop where
  | caller : AwaitsValue []
  | gather (key : Shared K) (keys : List (Shared K)) (gathered : List (Shared K × Shared V)) :
      AwaitsValue [.gather key keys gathered]
  | refresh : AwaitsValue [.fetching]

def Frame.Precedes : Frame K V → List (Frame K V) → Prop
  | .start _, rest | .renewed .., rest | .gather .., rest => rest = []
  | .find .., rest | .claim .., rest | .claimed .., rest | .await .., rest => AwaitsValue rest
  | .cancel .., _ => False
  | _, _ => True

def Regular : List (Frame K V) → Prop
  | [] => True
  | frame :: rest => frame.Precedes rest ∧ Regular rest

namespace Segment

variable [DecidableEq K] {s s' : Segment K V} {reach : Reach} {now : Nat} {thread : ThreadId} {key : Shared K}
  {code : UInt64} {id : LoadId}

/-- A load on its way to an entry was found. Only entries that can not be read any more were taken away. -/
structure Spares (reach : Reach) (now : Nat) (id : LoadId) (s s' : Segment K V) : Prop where
  entries : ∀ handle, s'.bare? handle = s.bare? handle ∨ s'.bare? handle = none ∧
    ∃ record cause, s.bare? handle = some record ∧ s.policy.stale? reach now record = some cause
  standings : s'.standings = s.standings
  carried : ∃ handle record, s'.bare? handle = some record ∧ record.load? = some id

theorem claim_of_taken (taken : (s.claim reach now thread key code).1 = .taken id) :
    (s.claim reach now thread key code).2 = s.prepare reach now := by
  have claiming := s.claiming reach now thread key code
  generalize s.claim reach now thread key code = result at claiming taken ⊢
  cases claiming with
  | awaited => rfl
  | absent | live | stale => cases taken

theorem Consistent.claim_spares (consistent : s.Consistent)
    (taken : (s.claim reach now thread key code).1 = .taken id) :
    Spares reach now id s (s.claim reach now thread key code).2 := by
  have answers := consistent.claim_answers reach now thread key code
  rw [taken] at answers
  obtain ⟨losses, thinned⟩ := consistent.prepare_thinned reach now
  refine ⟨fun handle => ?_, answers.1, answers.2⟩
  rw [claim_of_taken taken, thinned.bare?]
  split
  · rename_i lost
    obtain ⟨loss, member, rfl⟩ := List.mem_map.mp lost
    exact .inr ⟨rfl, loss.record, loss.cause, thinned.held loss member, thinned.permitted loss member⟩
  · exact .inl rfl

theorem spares_of_pending (pending : (s.read reach now code key.data).1 = .pending id) : Spares reach now id s s :=
  ⟨fun _ => .inl rfl, rfl, pending_of_read pending⟩

end Segment

namespace Cache

theorem background_count (cache : Cache K V τ) (f : Stats → Stats) :
    (cache.count f).background = cache.background := by
  obtain ⟨stats, counted⟩ := cache.count_eq f
  rw [counted]

theorem background_onSegment {α : Type} (cache : Cache K V τ) (index : Nat) (otherwise : α)
    (f : Segment K V → α × Segment K V) : (cache.onSegment index otherwise f).2.background = cache.background := by
  rw [onSegment_snd, background_changeSegment]

variable [DecidableEq K] [Clock τ] {cache cache' : Cache K V τ} {reach held : Reach} {thread : ThreadId}
  {rest : List (Frame K V)}

omit [DecidableEq K] in
theorem countRead_regular (cache : Cache K V τ) (reach : Reach) (regular : Regular rest) (segment : Nat) :
    (cache.countRead reach segment).1.background = cache.background ∧
      Regular ((cache.countRead reach segment).2 ++ rest) := by
  have counting := cache.counting reach segment
  generalize cache.countRead reach segment = result at counting ⊢
  cases counting with
  | due => exact ⟨background_changeSegment .., trivial, regular⟩
  | busy => exact ⟨rfl, trivial, regular⟩
  | waiting => exact ⟨rfl, regular⟩

theorem startRequest_regular (free : cache.background = .none) (request : Request K V) :
    (cache.startRequest reach thread request).1.background = .none ∧
      Regular (cache.startRequest reach thread request).2 := by
  cases request with
  | lookup key =>
      have counted (f : Stats → Stats) (value : Option (Shared V)) :=
        countRead_regular ((cache.looked reach key).count f) reach
          (show Regular [.give (.value value)] from ⟨trivial, trivial⟩) (cache.segmentOf key)
      simp only [background_count, show (cache.looked reach key).background = .none from
        (background_changeSegment ..).trans free] at counted
      have looking := cache.looking reach key
      dsimp only [startRequest]
      generalize cache.lookup reach key = result at looking ⊢
      cases looking with
      | served | missed => exact counted _ _
  | loadAll keys => cases keys <;> simp [startRequest, Regular, Frame.Precedes, free, Frame.AwaitsValue.gather]
  | get | load =>  simp [startRequest, Regular, Frame.Precedes, free, Frame.AwaitsValue.caller]
  | refresh | insert | insertIfNew | remove =>
      simp [startRequest, put, Cache.remove, Regular, Frame.Precedes, background_onSegment, readClock, free]
  | runReload | dropReload => simp [startRequest, nextReload?, Regular, Frame.Precedes, free]
  | _ => simp [startRequest, Regular, Frame.Precedes, free, readClock]

theorem find_regular (free : cache.background = .none) (awaits : Frame.AwaitsValue rest) (regular : Regular rest)
    (key : Shared K) (source : Source) :
    (cache.find reach key source).1.background = .none ∧ Regular ((cache.find reach key source).2 ++ rest) := by
  have same : (cache.looked reach key.data).background = .none := (background_changeSegment ..).trans free
  have seeking := cache.seeking reach key source
  generalize cache.find reach key source = result at seeking ⊢
  cases seeking with
  | served | overdue => exact ⟨(background_count ..).trans same, trivial, regular⟩
  | joined => exact ⟨(background_count ..).trans same, awaits, regular⟩
  | missed => exact ⟨same, awaits, regular⟩

omit [Clock τ] in
theorem claim_regular (free : cache.background = .none) (awaits : Frame.AwaitsValue rest) (regular : Regular rest)
    (key : Shared K) (source : Source) (now : Nat) :
    (cache.claim reach thread key source now).1.background = .none ∧
      Regular ((cache.claim reach thread key source now).2 ++ rest) := by
  rw [claim_eq]
  refine ⟨(background_changeSegment ..).trans free, ?_⟩
  cases cache.shards[cache.segmentOf key.data]? with
  | none => exact regular
  | some shard => exact ⟨trivial, awaits, regular⟩

theorem work_regular (reach : Reach) (thread : ThreadId) (free : cache.background = .none) {frame : Frame K V}
    (regular : Regular (frame :: rest)) :
    (cache.work reach thread frame).1.background = .none ∧ Regular ((cache.work reach thread frame).2 ++ rest) := by
  obtain ⟨precedes, regular⟩ := regular
  cases frame with
  | start request =>
      cases precedes
      rw [List.append_nil]
      exact startRequest_regular free request
  | find key source => exact find_regular free precedes regular key source
  | claim key source now => exact claim_regular free precedes regular key source now
  | renew key source now value =>
      dsimp only [work]
      rw [renew_eq]
      exact ⟨(background_changeSegment ..).trans free, trivial, trivial, regular⟩
  | found key source value renewal =>
      have answered : Regular (.answer key source value renewal :: rest) := ⟨trivial, regular⟩
      have counted := countRead_regular cache reach answered (cache.segmentOf key.data)
      simpa [work, free] using counted
  | answer key source value renewal =>
      rcases renewal with _ | ⟨flight, old⟩
      · exact ⟨free, trivial, regular⟩
      · cases source <;> simp [work, answer, reload, runLoader, readClock, free, Regular, Frame.Precedes, regular]
  | claimed key source segment claim =>
      have awaits : Frame.AwaitsValue rest := precedes
      cases claim <;>
        simp [work, takeClaim, runLoader, readClock, background_count, free, Regular, Frame.Precedes, regular, awaits]
  | await key flight =>
      dsimp only [work]
      split
      · exact ⟨free, precedes, regular⟩
      · split
        · exact ⟨free, trivial, regular⟩
        · split
          · exact ⟨free, precedes, regular⟩
          · exact ⟨free, trivial, regular⟩
  | conclude source purpose outcome =>
      cases purpose <;> cases outcome <;> exact ⟨free, trivial, regular⟩
  | cancel => cases precedes
  | renewed key renewal =>
      cases precedes
      cases renewal with
      | none => exact ⟨free, .refresh, trivial, trivial⟩
      | some renewal => exact ⟨free, trivial, trivial, trivial⟩
  | removing keys =>
      cases keys <;>
        simp [work, Cache.remove, background_onSegment, readClock, free, Regular, Frame.Precedes, regular]
  | deliver | delivering | clearing | sweeping | releasing =>
      dsimp only [work]
      split <;>
        simp [background_changeSegment, Cache.logged, readClock, free, Regular, Frame.Precedes, regular]
  | settle | listening | loading | holding | unwind | give | gather => exact ⟨free, regular⟩
  | renewing | fetching => exact ⟨free, trivial, regular⟩

omit [DecidableEq K] [Clock τ] in
theorem passOn_regular (free : cache.background = .none) (reply : Reply K V) {frame : Frame K V}
    (regular : Regular (frame :: rest)) :
    (cache.passOn reply frame).1.background = .none ∧ Regular ((cache.passOn reply frame).2 ++ rest) := by
  obtain ⟨precedes, regular⟩ := regular
  cases frame with
  | gather key keys gathered =>
      cases precedes
      dsimp only [passOn]
      split <;> simp [free, Regular, Frame.Precedes, Frame.AwaitsValue.gather]
  | fetching =>
      dsimp only [passOn]
      split <;> simp [Cache.logged, free, Regular, Frame.Precedes, regular]
  | _ => exact ⟨free, trivial, regular⟩

theorem endLoader_regular (reach : Reach) (free : cache.background = .none) (regular : Regular rest) (key : Shared K)
    (flight : Flight) (started : Nat) (source : Source) (purpose : Purpose V) (ending : LoaderEnd V) :
    (cache.endLoader reach key flight started source purpose ending).1.background = .none ∧
      Regular ((cache.endLoader reach key flight started source purpose ending).2 ++ rest) := by
  cases ending <;>
    simp [endLoader, giveUp, Cache.finishLoad, background_changeSegment, background_count, readClock, free, Regular,
      Frame.Precedes, regular]

omit [DecidableEq K] [Clock τ] in
theorem Handles.owned {docket docket' : Docket K V} {ended : List (Ending K V)} {settled : List (Verdict V)}
    (handles : Handles docket ended settled docket') (kept : ∀ task ∈ docket'.tasks, task.keeper = some thread)
    (owned : ∀ flight load, docket.loads flight = some load → load.owner = some thread) :
    ∀ flight load, docket'.loads flight = some load → load.owner = some thread := by
  intro flight load issued
  cases handles with
  | stay | finish => exact owned flight load issued
  | start =>
      simp only [Function.update_apply] at issued
      split at issued
      · cases issued
        exact kept _ (Multiset.mem_cons_self ..)
      · exact owned flight load issued
  | pass =>
      simp only [Function.update_apply] at issued
      split at issued
      · obtain ⟨before, _, rfl⟩ := Option.map_eq_some_iff.mp issued
        exact kept _ (Multiset.mem_cons_self ..)
      · exact owned flight load issued
  | settle verdict =>
      simp only [Function.update_apply] at issued
      split at issued
      · obtain ⟨before, issued', rfl⟩ := Option.map_eq_some_iff.mp issued
        exact owned _ before issued'
      · exact owned flight load issued

omit [DecidableEq K] [Clock τ] in
theorem keeper_of_regular {frames : List (Frame K V)} (regular : Regular frames) {frame : Frame K V}
    (member : frame ∈ frames) {task : Task K} (at_hand : frame.task? thread = some task) :
    task.keeper = some thread := by
  induction frames with
  | nil => cases member
  | cons first rest ih =>
      rcases List.mem_cons.mp member with rfl | later
      · cases frame with
        | found | answer | renewed =>
            obtain ⟨_, _, rfl⟩ := Option.map_eq_some_iff.mp at_hand
            rfl
        | claimed _ _ _ claim =>
            cases claim with
            | granted =>
                cases at_hand
                rfl
            | taken | needless => cases at_hand
        | loading =>
            cases at_hand
            rfl
        | cancel => cases regular.1
        | _ => cases at_hand
      · exact ih regular.2 later

omit [DecidableEq K] [Clock τ] in
theorem Tends.owned {spent : Flight → Prop} {frame : Frame K V} {ended : List (Ending K V)}
    {settled : List (Verdict V)} {result : Cache K V τ × List (Frame K V)}
    (tends : Tends held spent thread cache frame ended settled result) (free : result.1.background = .none)
    (regular : Regular (result.2 ++ rest))
    (owned : ∀ flight load, cache.standing? flight = some load → load.owner = some thread) :
    ∀ flight load, result.1.standing? flight = some load → load.owner = some thread := by
  refine Handles.owned tends.handles (fun task member => ?_) owned
  rcases Multiset.mem_add.mp member with in_frame | queued
  · obtain ⟨next, inside, at_hand⟩ := List.mem_filterMap.mp (Multiset.mem_coe.mp in_frame)
    exact keeper_of_regular regular (List.mem_append_left _ inside) at_hand
  · rw [free] at queued
    cases Multiset.notMem_zero _ queued

structure Solitary (thread : ThreadId) (cache : Cache K V τ) : Prop where
  free : cache.background = .none
  alone : ∀ other, other ≠ thread → cache.callsOf other = []
  regular : ∀ call ∈ cache.callsOf thread, Regular call.frames
  owned : ∀ flight load, cache.standing? flight = some load → load.owner = some thread

namespace Solitary

variable (solitary : cache.Solitary thread) {outer : List (Call K V)}

include solitary

omit [DecidableEq K] [Clock τ] in
theorem setCalls {calls : List (Call K V)} (same : cache'.calls = cache.calls) (free : cache'.background = .none)
    (regular : ∀ call ∈ calls, call ∈ cache.callsOf thread ∨ Regular call.frames)
    (owned : ∀ flight load, cache'.standing? flight = some load → load.owner = some thread) :
    (cache'.setCalls thread calls).Solitary thread := by
  refine ⟨free, ?_, ?_, owned⟩
  · intro other different
    rw [callsOf_setCalls, if_neg different, callsOf_congr same]
    exact solitary.alone other different
  · rw [callsOf_setCalls, if_pos rfl]
    exact fun call member => (regular call member).elim (solitary.regular call) id

omit [DecidableEq K] [Clock τ] in
theorem goOn {call : Call K V} (here : cache.callsOf thread = call :: outer) (same : cache'.calls = cache.calls)
    (free : cache'.background = .none) (arguments : List ObjectId) {frames : List (Frame K V)}
    (regular : Regular frames)
    (owned : ∀ flight load, cache'.standing? flight = some load → load.owner = some thread) :
    (cache'.setCalls thread (⟨arguments, frames⟩ :: outer)).Solitary thread := by
  refine solitary.setCalls same free (fun call' member => ?_) owned
  rcases List.mem_cons.mp member with rfl | further
  · exact .inr regular
  · exact .inl (here ▸ List.mem_cons_of_mem _ further)

omit [DecidableEq K] [Clock τ] in
theorem rearrange {call : Call K V} (here : cache.callsOf thread = call :: outer) (arguments : List ObjectId)
    (frames : List (Frame K V)) (regular : Regular frames) (undelivered : List (Removal K V)) (delivering : Bool)
    (log : List LogEvent) :
    ({ cache with undelivered, delivering, log }.setCalls thread (⟨arguments, frames⟩ :: outer)).Solitary thread :=
  have same : { cache with undelivered, delivering, log }.calls = cache.calls := rfl
  solitary.goOn here same solitary.free arguments regular solitary.owned

omit [DecidableEq K] [Clock τ] in
theorem leave {call : Call K V} (here : cache.callsOf thread = call :: outer) :
    (cache.setCalls thread outer).Solitary thread :=
  solitary.setCalls rfl solitary.free (fun _ member => .inl (here ▸ List.mem_cons_of_mem _ member)) solitary.owned

theorem step {ended : List (Ending K V)} {settled : List (Verdict V)} (supervised : cache.Supervised ended settled)
    (composed : cache.Composed) (held : Reach) (event : Event K V τ)
    (sequential : (⟨cache, held, event⟩ : Moment K V τ).IsSequential thread)
    (opened : event ≠ .closeBackground) :
    (cache.step held event).1.Solitary thread := by
  have happens := cache.step_happens held event
  have regular {arguments : List ObjectId} {frames : List (Frame K V)} {outer : List (Call K V)}
      (here : cache.callsOf thread = ⟨arguments, frames⟩ :: outer) : Regular frames :=
    solitary.regular ⟨arguments, frames⟩ (here ▸ List.mem_cons_self)
  have fits {arguments : List ObjectId} {frame : Frame K V} {rest : List (Frame K V)} {outer : List (Call K V)}
      (here : cache.callsOf thread = ⟨arguments, frame :: rest⟩ :: outer) (quiet : frame.delivers = false) :=
    (composed.arranged thread _ (here ▸ List.mem_cons_self)).fits quiet frame List.mem_cons_self
  generalize cache.step held event = result at happens ⊢
  cases happens with
  | entered other request =>
      obtain ⟨rfl, _⟩ := sequential
      refine solitary.setCalls rfl solitary.free (fun call member => ?_) solitary.owned
      rcases List.mem_cons.mp member with rfl | earlier
      · exact .inr ⟨rfl, trivial⟩
      · exact .inl earlier
  | timed | contended => exact ⟨solitary.free, solitary.alone, solitary.regular, solitary.owned⟩
  | closed => exact absurd rfl opened
  | idle | loading | listening | blocked | notLoading | notListening => exact solitary
  | ended here | returned here | unwound here =>
      cases sequential
      exact solitary.leave here
  | @passed _ arguments reply frame rest outer here =>
      cases sequential
      obtain ⟨free, left⟩ := passOn_regular solitary.free reply (regular here).2
      have tends : Tends _ _ thread cache (.give reply) [] [] (cache.passOn reply frame) :=
        passOn_tends (supervised.tended_spared held) reply frame rfl rfl
      exact solitary.goOn here (cache.passOn_works reply frame).moves.steady.calls free arguments left
        (tends.owned free left solitary.owned)
  | @worked _ arguments frame rest outer here busy =>
      cases sequential
      obtain ⟨free, left⟩ := work_regular (cache.reach held) thread solitary.free (regular here)
      have works := work_works composed.orderly (cache.reach held) thread (fits here (Frame.quiet_of_isWork busy))
      exact solitary.goOn here works.moves.steady.calls free arguments left
        ((supervised.tends_work held here busy).owned free left solitary.owned)
  | @loaded _ arguments key flight started source purpose rest outer here ending =>
      cases sequential
      obtain ⟨free, left⟩ := endLoader_regular (cache.reach held) solitary.free (regular here).2 key flight
        started source purpose ending
      have works := endLoader_works composed.orderly (cache.reach held) ((fits here rfl).2 _ rfl) started source purpose
        ending
      exact solitary.goOn here works.moves.steady.calls free arguments left
        ((supervised.tends_endLoader held here ending).owned free left solitary.owned)
  | @begun _ arguments rest outer here =>
      cases sequential
      exact solitary.rearrange here arguments (.delivering :: rest)
        ⟨trivial, (regular here).2⟩ cache.undelivered true cache.log
  | @skipped _ arguments rest outer here =>
      cases sequential
      exact solitary.rearrange here arguments rest (regular here).2 cache.undelivered cache.delivering cache.log
  | @told _ arguments rest outer removal later here =>
      cases sequential
      exact solitary.rearrange here arguments (.listening removal :: .delivering :: rest)
        ⟨trivial, trivial, (regular here).2⟩ later cache.delivering cache.log
  | @allTold _ arguments rest outer here =>
      cases sequential
      exact solitary.rearrange here arguments rest (regular here).2 cache.undelivered false cache.log
  | @heard _ arguments removal rest outer here ending log =>
      cases sequential
      exact solitary.rearrange here arguments rest (regular here).2 cache.undelivered cache.delivering log

end Solitary

section Runs

variable {config : Config K V} {hash : K → UInt64} {clock : τ} {past : List (Moment K V τ)}

omit [DecidableEq K] [Clock τ] in
theorem solitary_create (single : config.background = false) (hash : K → UInt64) (clock : τ) (thread : ThreadId) :
    (create config hash clock).Solitary thread where
  free := by simp [create, single]
  alone _ _ := rfl
  regular := nofun
  owned flight load issued := by
    rw [standing?_create] at issued
    cases issued

theorem History.solitary (history : History config hash clock past cache) (single : config.background = false)
    (sequential : ∀ moment ∈ past, moment.IsSequential thread)
    (opened : ∀ moment ∈ past, moment.event ≠ .closeBackground) : cache.Solitary thread := by
  induction history with
  | create => exact solitary_create single hash clock thread
  | @step past cache history held event ih =>
      have before := List.forall_mem_append.mp sequential
      have before' := List.forall_mem_append.mp opened
      have supervised := history.supervised fun moment member closing => absurd closing (before'.1 moment member)
      exact (ih before.1 before'.1).step supervised history.recorded.composed held event
        (before.2 _ List.mem_cons_self) (before'.2 _ List.mem_cons_self)

end Runs

/-- What the caller gets for an error in place of a value, and what is logged of it. -/
def told (error : CacheError) : List (Frame K V) → Reply K V × List LogEvent
  | [.gather ..] => (.gathered (.error error), [])
  | [.fetching] => (.done, [.absentRefreshFailed error])
  | _ => (.outcome (.error error), [])

def Refused (cache : Cache K V τ) (error : CacheError) (rest : List (Frame K V)) (outer : List (Call K V))
    (thread : ThreadId) (loads : List (LoaderEnd V × Nat)) (reply : Reply K V) (t : Cache K V τ) : Prop :=
  loads = [] ∧ reply = (told error rest).1 ∧ t.log = cache.log ++ (told error rest).2 ∧
    t.shards = cache.shards ∧
    t.callsOf thread = outer

theorem completes_of_error {arguments : List ObjectId} {outer : List (Call K V)} {error : CacheError}
    (awaits : Frame.AwaitsValue rest)
    (here : cache.callsOf thread = ⟨arguments, .give (.outcome (.error error)) :: rest⟩ :: outer) (held : Reach) :
    Completes held thread (cache.Refused error rest outer thread) cache := by
  have last {t : Cache K V τ} (left : t.callsOf thread = ⟨arguments, [.give (told error rest).1]⟩ :: outer)
      (logged : t.log = cache.log ++ (told error rest).2) (same : t.shards = cache.shards) :
      Completes held thread (cache.Refused error rest outer thread) t := by
    have returned : t.proceed held thread = (t.setCalls thread outer, .returned (told error rest).1) := by
      simp only [proceed, left]
    exact .returned returned ⟨rfl, rfl, logged, same, by simp⟩
  cases awaits with
  | caller => exact last here (List.append_nil _).symm rfl
  | gather key keys gathered =>
      have passed : cache.proceed held thread =
          (cache.setCalls thread (⟨arguments, [.give (.gathered (.error error))]⟩ :: outer), .progress) := by
        simp only [proceed, here]
        rfl
      exact .progress passed (last (by simp [told]) (List.append_nil _).symm rfl)
  | refresh =>
      have passed : cache.proceed held thread =
          ((cache.logged (.absentRefreshFailed error)).setCalls thread (⟨arguments, [.give .done]⟩ :: outer),
            .progress) := by
        simp only [proceed, here]
        rfl
      exact .progress passed (last (by simp [told]) rfl rfl)

namespace Solitary

theorem refused (solitary : cache.Solitary thread) {ended : List (Ending K V)} {settled : List (Verdict V)}
    (supervised : cache.Supervised ended settled) {arguments : List ObjectId} {key : Shared K} {flight : Flight}
    {outer : List (Call K V)}
    (here : cache.callsOf thread = ⟨arguments, .await key flight :: rest⟩ :: outer) :
    (∃ load, cache.load? flight = some load ∧ load.owner = some thread) ∧ ∀ held,
      cache.step held (.proceed thread) =
        (cache.setCalls thread
          (⟨arguments, .give (.outcome (.error (.loadsItself (cache.hash key.data)))) :: rest⟩ :: outer),
          .progress) := by
  obtain ⟨load, issued⟩ : ∃ load, cache.load? flight = some load := by
    have awaited := (supervised.minded thread _ (here ▸ List.mem_cons_self)).issued _ List.mem_cons_self flight rfl
    rw [standing?_eq, Option.isSome_map] at awaited
    exact Option.isSome_iff_exists.mp awaited
  have own : load.owner = some thread := by
    have standing : cache.standing? flight = some load.standing := by rw [standing?_eq, issued, Option.map_some]
    exact solitary.owned flight load.standing standing
  refine ⟨⟨load, issued, own⟩, fun held => ?_⟩
  simp [Cache.step, proceed, here, isBlocked, work, issued, own]

end Solitary

def MustWait (key : Shared K) (source : Source) (flight : Flight) (frames : List (Frame K V)) : Prop :=
  frames = [.await key flight] ∨ frames = [.deliver, .claimed key source flight.segment (.taken flight.load)]

def sought? (cache : Cache K V τ) : Frame K V → Option (Shared K × Source × Nat)
  | .find key source => some (key, source, cache.readClock.1)
  | .claim key source now => some (key, source, now)
  | _ => none

structure Rests (reach : Reach) (now : Nat) (cache cache' : Cache K V τ) (flight : Flight) : Prop where
  elsewhere : ∀ index, index ≠ flight.segment → cache'.shards[index]? = cache.shards[index]?
  here : ∃ shard shard', cache.shards[flight.segment]? = some shard ∧
    cache'.shards[flight.segment]? = some shard' ∧
    shard.segment.Spares reach now flight.load shard'.segment

theorem find_rests (orderly : cache.Orderly) {key : Shared K} {source : Source} {flight : Flight}
    (waits : MustWait key source flight (cache.find reach key source).2) :
    flight.segment = cache.segmentOf key.data ∧
      Rests reach cache.readClock.1 cache (cache.find reach key source).1 flight := by
  obtain ⟨shard, found⟩ : ∃ shard, cache.shards[cache.segmentOf key.data]? = some shard :=
    ⟨_, Array.getElem?_eq_getElem (orderly.chosen key.data)⟩
  have seeking := cache.seeking reach key source
  generalize cache.find reach key source = result at seeking waits ⊢
  cases seeking with
  | served | overdue | missed => simp [MustWait] at waits
  | @joined load pending =>
      obtain rfl : ⟨cache.segmentOf key.data, load⟩ = flight := by simpa [MustWait] using waits
      have ticked : cache.readClock.2.shards[cache.segmentOf key.data]? = some shard := found
      obtain ⟨shard', found', segment⟩ := getElem?_changeSegment ticked
        ((Operation.read key.data).run cache.hash reach cache.readClock.1)
      rw [finding_eq found] at pending
      have unread : (Operation.read key.data).run cache.hash reach cache.readClock.1 shard.segment = shard.segment :=
        Segment.read_of_missed (by simp [pending])
      rw [unread] at segment
      have spares := Segment.spares_of_pending pending
      obtain ⟨stats, counted⟩ := (cache.looked reach key.data).count_eq (·.countMiss)
      rw [counted]
      exact ⟨rfl, fun other different => getElem?_changeSegment_of_ne cache.readClock.2 different _, shard,
        shard', found, found', segment ▸ ⟨spares.entries, spares.standings, spares.carried⟩⟩

omit [Clock τ] in
theorem claim_rests (orderly : cache.Orderly) {key : Shared K} {source : Source} {now : Nat} {flight : Flight}
    (waits : MustWait key source flight (cache.claim reach thread key source now).2) :
    flight.segment = cache.segmentOf key.data ∧
      Rests reach now cache (cache.claim reach thread key source now).1 flight := by
  obtain ⟨shard, found⟩ : ∃ shard, cache.shards[cache.segmentOf key.data]? = some shard :=
    ⟨_, Array.getElem?_eq_getElem (orderly.chosen key.data)⟩
  rw [claim_eq, found] at waits
  rw [claim_eq]
  obtain ⟨placed, taken⟩ : flight.segment = cache.segmentOf key.data ∧
      (shard.segment.claim reach now thread key (cache.hash key.data)).1 = .taken flight.load := by
    simpa [MustWait, eq_comm] using waits
  obtain ⟨shard', found', segment⟩ := getElem?_changeSegment found
    ((Operation.claim thread key).run cache.hash reach now)
  have spares := (orderly.shards _ _ found).1.claim_spares taken
  refine ⟨placed, fun other different => ?_, shard, shard', placed ▸ found, placed ▸ found', ?_⟩
  · rw [placed] at different
    exact getElem?_changeSegment_of_ne cache different _
  · rw [segment]
    exact ⟨spares.entries, spares.standings, spares.carried⟩

theorem work_rests (orderly : cache.Orderly) {frame : Frame K V} {key : Shared K} {source : Source} {now : Nat}
    (sought : cache.sought? frame = some (key, source, now)) {flight : Flight}
    (waits : MustWait key source flight (cache.work reach thread frame).2) :
    flight.segment = cache.segmentOf key.data ∧ Rests reach now cache (cache.work reach thread frame).1 flight := by
  cases frame with
  | find =>
      cases sought
      exact find_rests orderly waits
  | claim =>
      cases sought
      exact claim_rests orderly waits
  | _ => cases sought

structure OwnLoad (thread : ThreadId) (flight : Flight) (outer : List (Call K V)) (load : Load K V) : Prop where
  owned : load.owner = some thread
  running : load.outcome = none
  undisplaced : load.displaced = none
  at_hand : ∃ call ∈ outer, ∃ frame ∈ call.frames, ∃ task, frame.task? thread = some task ∧
    task.flight = flight

omit [DecidableEq K] in
theorem of_sought {frame : Frame K V} {key : Shared K} {source : Source} {now : Nat}
    (sought : cache.sought? frame = some (key, source, now)) :
    (∀ thread, frame.task? thread = none) ∧ frame.delivers = false ∧ frame.isWork = true := by
  cases frame with
  | find | claim => exact ⟨fun _ => rfl, rfl, rfl⟩
  | _ => cases sought

omit [DecidableEq K] in
theorem Solitary.in_outer (solitary : cache.Solitary thread) {ended : List (Ending K V)} {settled : List (Verdict V)}
    (supervised : cache.Supervised ended settled) {arguments : List ObjectId} {frame : Frame K V} {key : Shared K}
    {source : Source} {now : Nat} {outer : List (Call K V)}
    (here : cache.callsOf thread = ⟨arguments, frame :: rest⟩ :: outer)
    (sought : cache.sought? frame = some (key, source, now)) {task : Task K} {other : ThreadId}
    (in_call : task ∈ tasksOfCalls other (cache.callsOf other)) :
    ∃ call ∈ outer, ∃ holder ∈ call.frames, holder.task? thread = some task := by
  obtain ⟨call, inside, holder, there, holds⟩ := mem_tasksOfCalls.mp in_call
  obtain rfl : other = thread := by
    by_contra different
    rw [solitary.alone other different] at inside
    cases inside
  rw [here] at inside
  rcases List.mem_cons.mp inside with rfl | further
  · -- The search has no load at hand, and what follows it has nothing to do with loads.
    have secure := (supervised.minded other _ (here ▸ List.mem_cons_self)).secure
    obtain ⟨idle, quiet, _⟩ := of_sought sought
    rcases List.mem_cons.mp there with rfl | later
    · cases (idle other).symm.trans holds
    · have plain := ((List.pairwise_cons.mp secure).1 holder later).resolve_left (by simp [quiet])
      cases (Frame.task?_of_plain plain other).symm.trans holds
  · exact ⟨call, further, holder, there, holds⟩

omit [DecidableEq K] in
theorem Solitary.found_own (solitary : cache.Solitary thread) {ended : List (Ending K V)} {settled : List (Verdict V)}
    (supervised : cache.Supervised ended settled) {spent : Flight → Prop} (tended : cache'.Tended held spent)
    {arguments : List ObjectId} {frame : Frame K V} {key : Shared K} {source : Source} {now : Nat} {flight : Flight}
    {outer : List (Call K V)} (here : cache.callsOf thread = ⟨arguments, frame :: rest⟩ :: outer)
    (sought : cache.sought? frame = some (key, source, now)) (rests : Rests reach now cache cache' flight) :
    ∃ load, cache.load? flight = some load ∧ cache'.load? flight = some load ∧
      OwnLoad thread flight outer load := by
  obtain ⟨shard, shard', found, found', spares⟩ := rests.here
  obtain ⟨handle, record, live', carried⟩ := spares.carried
  have live : shard.segment.bare? handle = some record := by
    rcases spares.entries handle with same | ⟨gone, _⟩
    · rw [← same, live']
    · cases gone.symm.trans live'
  obtain ⟨running, load, known, _, undisplaced, _⟩ :=
    (supervised.tended _ _ found).flights.carried handle record flight.load live carried
  obtain ⟨_, load', known', _, undisplaced', _⟩ :=
    (tended _ _ found').flights.carried handle record flight.load live' carried
  have same : load' = load := by
    have standing := congrArg (·[flight.load]?) spares.standings
    simpa [Segment.standings, known, known', Load.standing_of_undisplaced, undisplaced, undisplaced'] using standing
  have issued : cache.load? flight = some load := by rw [load?, found, Option.bind_some, known]
  have standing : cache.standing? flight = some load := by
    rw [standing?_eq, issued, Option.map_some, Load.standing_of_undisplaced undisplaced]
  obtain ⟨task, at_hand, placed, rfl⟩ := supervised.at_hand standing running
  refine ⟨_, issued, ?_, solitary.owned flight _ standing, rfl, undisplaced, ?_⟩
  · rw [load?, found', Option.bind_some, known', same]
  · obtain ⟨other, in_call⟩ : ∃ other, task ∈ tasksOfCalls other (cache.callsOf other) := by
      rcases Multiset.mem_add.mp at_hand with in_call | queued
      · exact (mem_across fun _ => rfl).mp in_call
      · rw [solitary.free] at queued
        cases Multiset.notMem_zero _ queued
    obtain ⟨call, further, holder, there, holds⟩ := solitary.in_outer supervised here sought in_call
    exact ⟨call, further, holder, there, task, holds, placed⟩

structure Recursion (thread : ThreadId) (past : List (Moment K V τ)) (cache : Cache K V τ) : Prop where
  unblocked : ∀ moment ∈ past, moment.signal ≠ .blocked
  owned : ∀ flight load, cache.load? flight = some load → load.owner = some thread
  /-- A search that is told to wait has met a load that the thread runs in an outer call. It leaves that alone, and all
  entries but those that can not be read any more. -/
  found : ∀ arguments frame rest outer, cache.callsOf thread = ⟨arguments, frame :: rest⟩ :: outer →
    ∀ key source now, cache.sought? frame = some (key, source, now) →
      ∀ held flight frames, MustWait key source flight frames →
        let next := (cache.step held (.proceed thread)).1
        next.callsOf thread = ⟨arguments, frames ++ rest⟩ :: outer →
          flight.segment = cache.segmentOf key.data ∧ Rests (cache.reach held) now cache next flight ∧
            ∃ load, cache.load? flight = some load ∧ next.load? flight = some load ∧
              OwnLoad thread flight outer load
  taken : ∀ arguments key source segment load rest outer,
    cache.callsOf thread = ⟨arguments, .claimed key source segment (.taken load) :: rest⟩ :: outer → ∀ held,
      let next := (cache.step held (.proceed thread)).1
      next.callsOf thread = ⟨arguments, .await key ⟨segment, load⟩ :: rest⟩ :: outer ∧
        next.shards = cache.shards
  refused : ∀ arguments key flight rest outer,
    cache.callsOf thread = ⟨arguments, .await key flight :: rest⟩ :: outer → ∀ held,
      Completes held thread (cache.Refused (.loadsItself (cache.hash key.data)) rest outer thread) cache

theorem Solitary.not_blocked (solitary : cache.Solitary thread) {ended : List (Ending K V)} {settled : List (Verdict V)}
    (supervised : cache.Supervised ended settled) (held : Reach) (event : Event K V τ)
    (sequential : (⟨cache, held, event⟩ : Moment K V τ).IsSequential thread) :
    (cache.step held event).2 ≠ .blocked := by
  have happens := cache.step_happens held event
  intro blocked
  generalize stepped : cache.step held event = result at happens blocked
  cases happens with
  | blocked here =>
      cases sequential
      have goes_on := congrArg Prod.snd (((solitary.refused supervised here).2 held).symm.trans stepped)
      cases goes_on
  | _ => cases blocked

section History

variable {config : Config K V} {hash : K → UInt64} {clock : τ} {past : List (Moment K V τ)}

/-- However deep loaders and the listener call back on one thread, nobody is ever blocked. Whoever wants a key that is
being loaded is refused. -/
theorem recursion_of_history (history : History config hash clock past cache) (single : config.background = false)
    (sequential : ∀ moment ∈ past, moment.IsSequential thread)
    (opened : ∀ moment ∈ past, moment.event ≠ .closeBackground) : Recursion thread past cache := by
  have proper : ∀ moment ∈ past, moment.IsProper :=
    fun moment member closing => absurd closing (opened moment member)
  have supervised := history.supervised proper
  have solitary := history.solitary single sequential opened
  refine ⟨?_, ?_, ?_, ?_, ?_⟩
  · intro moment member
    obtain ⟨earlier, later, rfl⟩ := List.append_of_mem member
    have before (moment' : Moment K V τ) (inside : moment' ∈ earlier) : moment' ∈ earlier ++ moment :: later :=
      List.mem_append_left _ inside
    have history' := (history.of_append rfl).1
    exact (history'.solitary single (fun moment' inside => sequential moment' (before moment' inside))
      fun moment' inside => opened moment' (before moment' inside)).not_blocked
        (history'.supervised fun moment' inside => proper moment' (before moment' inside)) moment.held moment.event
        (sequential moment member)
  · intro flight load issued
    exact solitary.owned flight load.standing (by rw [standing?_eq, issued, Option.map_some])
  · intro arguments frame rest outer here key source now sought held flight frames waits next left
    have busy : frame.isWork = true := (of_sought sought).2.2
    have worked : next = (cache.work (cache.reach held) thread frame).1.setCalls thread
        (⟨arguments, (cache.work (cache.reach held) thread frame).2 ++ rest⟩ :: outer) := by
      cases frame with
      | find | claim => simp only [next, step, proceed, here]
      | _ => cases sought
    have same : (cache.work (cache.reach held) thread frame).2 = frames := by
      rw [worked, callsOf_setCalls, if_pos rfl] at left
      simpa using left
    have tended : (cache.work (cache.reach held) thread frame).1.Tended _ _ :=
      (supervised.tends_work held here busy).tended
    obtain ⟨placed, rests⟩ := work_rests history.recorded.composed.orderly sought (same ▸ waits)
    obtain ⟨load, issued, issued', own⟩ := solitary.found_own supervised tended here sought rests
    rw [worked]
    generalize cache.work (cache.reach held) thread frame = result at rests issued'
    exact ⟨placed, ⟨rests.elsewhere, rests.here⟩, load, issued, issued', own⟩
  · intro arguments key source segment load rest outer here held
    obtain ⟨stats, counted⟩ := cache.count_eq (·.countMiss)
    have worked : (cache.step held (.proceed thread)).1 =
        { cache with stats }.setCalls thread (⟨arguments, .await key ⟨segment, load⟩ :: rest⟩ :: outer) := by
      simp only [step, proceed, here, work, takeClaim, counted]
      rfl
    simp only [worked]
    exact ⟨by rw [callsOf_setCalls, if_pos rfl], rfl⟩
  · intro arguments key flight rest outer here held
    have regular : Regular (.await key flight :: rest) := solitary.regular _ (here ▸ List.mem_cons_self)
    have awaits : Frame.AwaitsValue rest := regular.1
    have proceeds := (solitary.refused supervised here).2 held
    generalize told : cache.setCalls thread
      (⟨arguments, .give (.outcome (.error (.loadsItself (cache.hash key.data)))) :: rest⟩ :: outer) = t at proceeds
    have here' : t.callsOf thread =
        ⟨arguments, .give (.outcome (.error (.loadsItself (cache.hash key.data)))) :: rest⟩ :: outer := by
      rw [← told, callsOf_setCalls, if_pos rfl]
    have completes := completes_of_error awaits here' held
    subst told
    exact .progress proceeds (completes.imp fun _ _ _ refused => refused)

theorem recursion_after_cycle :
    let moves (steps : Nat) : List (Event Nat Nat ManualClock) := .replicate steps (.proceed 0)
    let events := .call 0 (.get ⟨0, 7⟩) :: moves 5 ++ .call 0 (.get ⟨1, 8⟩) :: moves 5 ++
      .call 0 (.get ⟨2, 7⟩) :: moves 4
    let run := (create { initialCapacity := 1, concurrencyLevel := 1 } (fun key => key.toUInt64) {}).run
      (fun _ => true) events
    (run.1.filterMap fun moment => match moment.signal with
      | .returned (.outcome (.error error)) => some error.kind
      | _ => none) = [.recursiveLoad] ∧
      Recursion 0 run.1 run.2 := by
  intro moves events run
  have history : History { initialCapacity := 1, concurrencyLevel := 1 } (fun key => key.toUInt64) {} run.1 run.2 :=
    History.create.run (fun _ => true) events
  have sequential : run.1.all (fun moment => decide (moment.IsSequential 0)) = true := by decide +kernel
  refine ⟨by decide +kernel, ?_⟩
  refine recursion_of_history history rfl (by simpa using sequential) fun moment member closing => ?_
  have asked := event_mem_of_run moment member
  simp [closing, events, moves] at asked

end History

end Cache
end SegmentedCache
