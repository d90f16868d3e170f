import SegmentedCache.Proofs.Cache.Deeds

namespace SegmentedCache

/-!
Reads are counted on the spot. A read that starts a refresh has a delivery in front of its being counted, but by then
nothing waits to be delivered, or that is being done further out. So where one thread does everything, nobody else gets
in between.
-/

variable {K V τ : Type}

namespace Cache

section Unheard

variable [DecidableEq K] [Clock τ] {cache cache' : Cache K V τ} {accepted : List (K × Shared V)}

theorem Moves.undelivered_of_unheard (moves : Moves cache accepted cache') (unheard : cache.listens = false) :
    cache'.undelivered = cache.undelivered := by
  induction moves with
  | done => rfl
  | tick _ ih | log _ ih | noteRead _ ih | modifyLoad _ ih | setBackground _ _ ih => exact ih unheard
  | @count cache _ _ f _ ih =>
      obtain ⟨stats, counted⟩ := count_eq cache f
      rw [ih (by rwa [counted]), counted]
  | @operate cache _ _ index reach now op _ _ ih =>
      rw [ih ((changeSegment_steady ..).listens.trans unheard)]
      cases found : cache.shards[index]? with
      | none => rw [changeSegment_of_none found]
      | some shard =>
          obtain ⟨_, _, changed⟩ := changeSegment_eq found (op.run cache.hash reach now)
          rw [changed]
          exact if_neg (by rw [unheard]; nofun)

theorem Steps.undelivered_of_unheard {notified : List (Removal K V)} (steps : Steps cache accepted notified cache')
    (unheard : cache.listens = false) (nothing : cache.undelivered = []) : cache'.undelivered = [] := by
  cases steps with
  | resume here fits works fits' => exact (works.moves.undelivered_of_unheard unheard).trans nothing
  | notify here fits waiting => cases nothing.symm.trans waiting
  | finish => rfl
  | still | setClock | contend | closeBackground | enter | leave | begin | pass | heard => exact nothing

end Unheard

/-- At most one read is still to be counted. That comes first, but for a delivery with nothing to deliver. -/
inductive OnTime (cache : Cache K V τ) : List (Frame K V) → Prop where
  | nil : OnTime cache []
  | next {frame : Frame K V} {rest : List (Frame K V)} (counted : Counted rest) : OnTime cache (frame :: rest)
  | deliver {frame : Frame K V} {rest : List (Frame K V)} (idle : cache.delivering = true ∨ cache.undelivered = [])
      (counted : Counted rest) : OnTime cache (.deliver :: frame :: rest)
  | delivering {frame : Frame K V} {rest : List (Frame K V)} (nothing : cache.undelivered = [])
      (counted : Counted rest) : OnTime cache (.delivering :: frame :: rest)

section OnTime

variable {cache cache' : Cache K V τ} {frame : Frame K V} {frames rest : List (Frame K V)} {index : Nat}

theorem OnTime.of_counted (counted : Counted frames) : OnTime cache frames := by
  cases frames with
  | nil => exact .nil
  | cons frame rest => exact .next (counted_cons.mp counted).2

theorem OnTime.append (onTime : OnTime cache frames) (counted : Counted rest) : OnTime cache (frames ++ rest) := by
  cases onTime with
  | nil => exact .of_counted counted
  | next counted' => exact .next (counted'.append counted)
  | deliver idle counted' => exact .deliver idle (counted'.append counted)
  | delivering nothing counted' => exact .delivering nothing (counted'.append counted)

theorem OnTime.congr (onTime : OnTime cache frames) (delivering : cache'.delivering = cache.delivering)
    (undelivered : cache'.undelivered = cache.undelivered) : OnTime cache' frames := by
  cases onTime with
  | nil => exact .nil
  | next counted => exact .next counted
  | deliver idle counted => exact .deliver (delivering ▸ undelivered ▸ idle) counted
  | delivering nothing counted => exact .delivering (undelivered.trans nothing) counted

theorem OnTime.counted_rest (onTime : OnTime cache (frame :: rest))
    (other : frame ≠ .deliver ∧ frame ≠ .delivering) : Counted rest := by
  cases onTime with
  | next counted => exact counted
  | deliver => cases other.1 rfl
  | delivering => cases other.2 rfl

theorem OnTime.pending_le (onTime : OnTime cache frames) (place : K → Nat) : pending place frames index ≤ 1 := by
  have one (frame : Frame K V) {rest : List (Frame K V)} (counted : Counted rest) :
      pending place (frame :: rest) index ≤ 1 := by
    rw [pending_cons, counted.pending]
    split <;> simp
  cases onTime with
  | nil => exact Nat.zero_le 1
  | next counted => exact one _ counted
  | deliver _ counted | delivering _ counted =>
      rw [pending_cons]
      exact one _ counted

end OnTime

section Work

variable [DecidableEq K] [Clock τ] {cache : Cache K V τ}

theorem find_onTime (cache : Cache K V τ) (reach : Reach) (key : Shared K) (source : Source) :
    OnTime (cache.find reach key source).1 (cache.find reach key source).2 := by
  have seeking := cache.seeking reach key source
  generalize cache.find reach key source = result at seeking ⊢
  cases seeking with
  | served | overdue | joined | missed => exact .next counted_nil

theorem renew_onTime (orderly : cache.Orderly) (idle : cache.delivering = true ∨ cache.undelivered = [])
    (reach : Reach) (thread : ThreadId) (key : Shared K) (source : Source) (now : Nat) (value : Shared V) :
    OnTime (cache.renew reach thread key source now value).1 (cache.renew reach thread key source now value).2 := by
  have steady := (renew_works cache reach thread key source now value).moves.steady
  have does := renew_does orderly reach thread key source now value
  refine .deliver ?_ counted_nil
  rwa [steady.delivering, show Cache.undelivered _ = _ from does]

end Work

structure Punctual (thread : ThreadId) (cache : Cache K V τ) : Prop where
  outer : ∀ call ∈ (cache.callsOf thread).tail, Counted call.frames
  inner : ∀ call ∈ (cache.callsOf thread).head?, OnTime cache call.frames

namespace Punctual

variable {cache cache' : Cache K V τ} {thread : ThreadId} {call : Call K V} {outer : List (Call K V)}
  {arguments : List ObjectId} {frame : Frame K V} {frames rest : List (Frame K V)}

theorem of_calls (counted : ∀ call ∈ outer, Counted call.frames) (onTime : OnTime cache frames) :
    (cache.setCalls thread (⟨arguments, frames⟩ :: outer)).Punctual thread := by
  refine ⟨?_, ?_⟩
  · rwa [callsOf_setCalls, if_pos rfl]
  · rw [callsOf_setCalls, if_pos rfl, List.head?_cons]
    rintro _ ⟨⟩
    exact onTime.congr rfl rfl

theorem of_counted (counted : ∀ call ∈ outer, Counted call.frames) :
    (cache.setCalls thread outer).Punctual thread := by
  cases outer with
  | nil => exact ⟨by simp, by simp⟩
  | cons call outer =>
      exact of_calls (List.forall_mem_cons.mp counted).2 (.of_counted (List.forall_mem_cons.mp counted).1)

theorem counted_outer (punctual : cache.Punctual thread) (here : cache.callsOf thread = call :: outer) :
    ∀ call ∈ outer, Counted call.frames := by
  have counted := punctual.outer
  rwa [here] at counted

theorem onTime (punctual : cache.Punctual thread) (here : cache.callsOf thread = ⟨arguments, frames⟩ :: outer) :
    OnTime cache frames :=
  punctual.inner ⟨arguments, frames⟩ (by rw [here]; rfl)

theorem uncounted_eq (punctual : cache.Punctual thread)
    (here : cache.callsOf thread = ⟨arguments, frames⟩ :: outer) (index : Nat) :
    cache.uncounted thread index = pending cache.segmentOf frames index := by
  have counted := punctual.counted_outer here
  have none_outside : (outer.map fun call => pending cache.segmentOf call.frames index).sum = 0 := by
    rw [List.sum_eq_zero_iff]
    intro count member
    obtain ⟨call, inside, rfl⟩ := List.mem_map.mp member
    exact (counted call inside).pending ..
  rw [uncounted, here, List.map_cons, List.sum_cons, none_outside, Nat.add_zero]

theorem uncounted_le (punctual : cache.Punctual thread) (index : Nat) : cache.uncounted thread index ≤ 1 := by
  cases here : cache.callsOf thread with
  | nil => simp [uncounted, here]
  | cons call outer =>
      rw [punctual.uncounted_eq here]
      exact (punctual.onTime here).pending_le _

theorem step [DecidableEq K] [Clock τ] (punctual : cache.Punctual thread) (composed : cache.Composed)
    (idle : ∀ arguments frames outer, cache.callsOf thread = ⟨arguments, frames⟩ :: outer →
      (∀ rest, frames ≠ .deliver :: rest) → cache.delivering = true ∨ cache.undelivered = [])
    (held : Reach) (event : Event K V τ)
    (sequential : (⟨cache, held, event⟩ : Moment K V τ).IsSequential thread) :
    (cache.step held event).1.Punctual thread := by
  have happens := cache.step_happens held event
  generalize cache.step held event = result at happens ⊢
  cases happens with
  | entered other request =>
      obtain ⟨rfl, asks⟩ := sequential
      refine of_calls ?_ (.next counted_nil)
      cases here : cache.callsOf other with
      | nil => exact nofun
      | cons call outer =>
          refine List.forall_mem_cons.mpr ⟨?_, punctual.counted_outer here⟩
          -- a call that asks the client counts nothing in its first frame
          have asking := asks call (by rw [here]; rfl)
          obtain ⟨arguments, frames⟩ := call
          have onTime := punctual.onTime here
          cases frames with
          | nil => cases asking
          | cons frame rest =>
              cases frame with
              | loading | listening =>
                  exact counted_cons.mpr ⟨rfl, onTime.counted_rest ⟨nofun, nofun⟩⟩
              | _ => cases asking
  | timed | contended | closed =>
      exact ⟨punctual.outer, fun call inside => (punctual.inner call inside).congr rfl rfl⟩
  | idle | loading | listening | blocked | notLoading | notListening => exact punctual
  | ended here | returned here | unwound here =>
      cases sequential
      exact of_counted (punctual.counted_outer here)
  | passed here =>
      cases sequential
      have counted := (punctual.onTime here).counted_rest ⟨nofun, nofun⟩
      exact of_calls (punctual.counted_outer here)
        (.of_counted ((passOn_counted cache _ _).append (counted_cons.mp counted).2))
  | @worked _ arguments frame rest outer here busy =>
      cases sequential
      have counted := (punctual.onTime here).counted_rest (by constructor <;> rintro rfl <;> cases busy)
      refine of_calls (punctual.counted_outer here) ?_
      cases finds : frame.finds with
      | false => exact .of_counted ((work_counted cache (cache.reach held) thread finds).append counted)
      | true =>
          cases frame with
          | find key source => exact (find_onTime cache (cache.reach held) key source).append counted
          | renew key source now value =>
              have nothing_due := idle _ _ _ here nofun
              exact (renew_onTime composed.orderly nothing_due (cache.reach held) thread key source now value).append
                counted
          | _ => cases finds
  | loaded here ending =>
      cases sequential
      have counted := (punctual.onTime here).counted_rest ⟨nofun, nofun⟩
      exact of_calls (punctual.counted_outer here)
        (.of_counted ((endLoader_counted cache _ _ _ _ _ _ ending).append counted))
  | begun here free =>
      cases sequential
      refine of_calls (punctual.counted_outer here) ?_
      cases punctual.onTime here with
      | next counted => exact .next counted
      | deliver idle counted =>
          rw [free] at idle
          exact .delivering (idle.resolve_left nofun) counted
  | skipped here =>
      cases sequential
      refine of_calls (punctual.counted_outer here) ?_
      cases punctual.onTime here with
      | next counted => exact .of_counted counted
      | deliver _ counted => exact .next counted
  | told here waiting =>
      cases sequential
      refine of_calls (punctual.counted_outer here) ?_
      cases punctual.onTime here with
      | next counted => exact .next (counted_cons.mpr ⟨rfl, counted⟩)
      | delivering nothing => cases nothing.symm.trans waiting
  | allTold here =>
      cases sequential
      refine of_calls (punctual.counted_outer here) ?_
      cases punctual.onTime here with
      | next counted => exact .of_counted counted
      | delivering _ counted => exact .next counted
  | heard here =>
      cases sequential
      exact of_calls (punctual.counted_outer here)
        (.of_counted ((punctual.onTime here).counted_rest ⟨nofun, nofun⟩))

end Punctual

section History

variable [DecidableEq K] [Clock τ] {config : Config K V} {hash : K → UInt64} {clock : τ}
  {past : List (Moment K V τ)} {cache : Cache K V τ} {thread : ThreadId}

theorem History.undelivered_of_unheard (history : History config hash clock past cache)
    (unheard : config.listens = false) : cache.listens = false ∧ cache.undelivered = [] := by
  induction history with
  | create => exact ⟨unheard, rfl⟩
  | step history held event ih =>
      have steps := history.recorded.composed.step_steps held event
      exact ⟨steps.unchanged.listens.trans ih.1, steps.undelivered_of_unheard ih.1 ih.2⟩

theorem History.idle (history : History config hash clock past cache)
    (sequential : ∀ moment ∈ past, moment.IsSequential thread) {arguments : List ObjectId}
    {frames : List (Frame K V)} {outer : List (Call K V)}
    (here : cache.callsOf thread = ⟨arguments, frames⟩ :: outer) (other : ∀ rest, frames ≠ .deliver :: rest) :
    cache.delivering = true ∨ cache.undelivered = [] := by
  cases heard : config.listens with
  | false => exact .inr (history.undelivered_of_unheard heard).2
  | true =>
      have handover := history.handover heard sequential
      cases free : cache.delivering with
      | true => exact .inl rfl
      | false => exact .inr (handover.nothing_due here other free)

theorem History.punctual (history : History config hash clock past cache)
    (sequential : ∀ moment ∈ past, moment.IsSequential thread) : cache.Punctual thread := by
  induction history with
  | create => exact ⟨nofun, nofun⟩
  | step history held event ih =>
      have before := List.forall_mem_append.mp sequential
      exact (ih before.1).step history.recorded.composed (fun _ _ _ => history.idle before.1) held event
        (before.2 _ List.mem_cons_self)

end History

end Cache
end SegmentedCache
