import SegmentedCache.Proofs.Cache.Delivery

namespace SegmentedCache

/-!
Reads that were noted and are still to be counted. Only the listener can run in between, and it does not run twice at
the same time. So where one thread does everything, there is at most one such read beside that of the innermost call.
-/

variable {K V τ : Type}

def Frame.countsFor (place : K → Nat) (index : Nat) : Frame K V → Bool
  | .renew key _ _ _ | .found key _ _ _ => place key.data = index
  | _ => false

def Frame.follows : Frame K V → Bool
  | .claim .. | .renew .. | .found .. => true
  | _ => false

def Frame.finds : Frame K V → Bool
  | .find .. | .renew .. => true
  | _ => false

/-- When the key was read, for a frame that goes on from there. -/
def Frame.stamp? : Frame K V → Option Nat
  | .claim _ _ now | .renew _ _ now _ => some now
  | _ => none

def pending (place : K → Nat) (frames : List (Frame K V)) (index : Nat) : Nat :=
  frames.countP (·.countsFor place index)

def Counted (frames : List (Frame K V)) : Prop :=
  ∀ frame ∈ frames, frame.follows = false

/-- What a read leaves comes before all else but deliveries, and before these too until a claim is made. -/
def Prompt : List (Frame K V) → Prop
  | [] => True
  | frame :: rest => if frame.delivers then Prompt rest ∧ ∀ later ∈ rest, later.stamp? = none else Counted rest

section Frames

variable {place : K → Nat} {frame : Frame K V} {frames rest : List (Frame K V)} {index : Nat}

theorem pending_cons (place : K → Nat) (frame : Frame K V) (rest : List (Frame K V)) (index : Nat) :
    pending place (frame :: rest) index = pending place rest index + if frame.countsFor place index then 1 else 0 :=
  List.countP_cons

theorem pending_append (place : K → Nat) (frames rest : List (Frame K V)) (index : Nat) :
    pending place (frames ++ rest) index = pending place frames index + pending place rest index :=
  List.countP_append

@[simp] theorem counted_nil : Counted ([] : List (Frame K V)) :=
  nofun

@[simp] theorem counted_cons : Counted (frame :: rest) ↔ frame.follows = false ∧ Counted rest :=
  List.forall_mem_cons

theorem Frame.of_not_follows (other : frame.follows = false) :
    (∀ place index, frame.countsFor place index = false) ∧ frame.stamp? = none := by
  cases frame with
  | claim | renew | found => cases other
  | _ => exact ⟨fun _ _ => rfl, rfl⟩

theorem Frame.of_delivers (delivers : frame.delivers = true) : frame.follows = false := by
  cases frame with
  | deliver | delivering | listening => rfl
  | _ => cases delivers

theorem Counted.append (counted : Counted frames) (counted' : Counted rest) : Counted (frames ++ rest) :=
  List.forall_mem_append.mpr ⟨counted, counted'⟩

theorem Counted.pending (counted : Counted frames) (place : K → Nat) (index : Nat) : pending place frames index = 0 :=
  List.countP_eq_zero.mpr fun frame member => by simp [(Frame.of_not_follows (counted frame member)).1 place index]

theorem Counted.stamp? (counted : Counted frames) : ∀ frame ∈ frames, frame.stamp? = none :=
  fun frame member => (Frame.of_not_follows (counted frame member)).2

theorem Counted.prompt (counted : Counted frames) : Prompt frames := by
  induction frames with
  | nil => trivial
  | cons frame rest ih =>
      have counted' : Counted rest := fun frame member => counted frame (List.mem_cons_of_mem _ member)
      rw [Prompt]
      split
      · exact ⟨ih counted', counted'.stamp?⟩
      · exact counted'

theorem Prompt.counted_rest (prompt : Prompt (frame :: rest)) (quiet : frame.delivers = false) : Counted rest := by
  rwa [Prompt, quiet, if_neg Bool.false_ne_true] at prompt

theorem Prompt.behind (prompt : Prompt (frame :: rest)) (delivers : frame.delivers = true) : Prompt rest := by
  rw [Prompt, delivers, if_pos rfl] at prompt
  exact prompt.1

theorem Prompt.rest_stamp? (prompt : Prompt (frame :: rest)) : ∀ later ∈ rest, later.stamp? = none := by
  rw [Prompt] at prompt
  split at prompt
  · exact prompt.2
  · exact Counted.stamp? prompt

theorem Prompt.cons (delivers : frame.delivers = true) (prompt : Prompt rest)
    (unstamped : ∀ later ∈ rest, later.stamp? = none) : Prompt (frame :: rest) := by
  rw [Prompt, if_pos delivers]
  exact ⟨prompt, unstamped⟩

theorem Prompt.append (prompt : Prompt frames) (counted : Counted rest) : Prompt (frames ++ rest) := by
  induction frames with
  | nil => exact counted.prompt
  | cons frame frames ih =>
      rw [List.cons_append, Prompt]
      rw [Prompt] at prompt
      split
      · rename_i delivers
        rw [if_pos delivers] at prompt
        exact ⟨ih prompt.1, List.forall_mem_append.mpr ⟨prompt.2, counted.stamp?⟩⟩
      · rename_i quiet
        rw [if_neg quiet] at prompt
        exact Counted.append prompt counted

theorem Prompt.pending_le (prompt : Prompt frames) : pending place frames index ≤ 1 := by
  induction frames with
  | nil => exact Nat.zero_le 1
  | cons frame rest ih =>
      rw [pending_cons]
      rw [Prompt] at prompt
      split at prompt
      · rename_i delivers
        rw [(Frame.of_not_follows (Frame.of_delivers delivers)).1]
        exact ih prompt.1
      · rw [prompt.pending]
        split <;> simp

end Frames

namespace Cache

variable [DecidableEq K] [Clock τ] {cache cache' : Cache K V τ} {reach : Reach} {thread : ThreadId}

omit [DecidableEq K] in
theorem countRead_counted (cache : Cache K V τ) (reach : Reach) (segment : Nat) :
    Counted (cache.countRead reach segment).2 := by
  have counting := cache.counting reach segment
  generalize cache.countRead reach segment = result at counting ⊢
  cases counting <;> simp [Frame.follows]

theorem startRequest_counted (cache : Cache K V τ) (reach : Reach) (thread : ThreadId) (request : Request K V) :
    Counted (cache.startRequest reach thread request).2 := by
  cases request with
  | lookup key =>
      have counted (t : Cache K V τ) (value : Option (Shared V)) :
          Counted ((t.countRead reach (cache.segmentOf key)).2 ++ [.give (.value value)]) :=
        (countRead_counted t reach (cache.segmentOf key)).append (by simp [Frame.follows])
      have looking := cache.looking reach key
      dsimp only [startRequest]
      generalize cache.lookup reach key = result at looking ⊢
      cases looking with
      | served | missed => exact counted _ _
  | loadAll keys => cases keys <;> simp [startRequest, Frame.follows]
  | runReload | dropReload =>
      dsimp only [startRequest]
      split <;> simp [runLoader, Frame.follows]
  | _ => simp [startRequest, put, Frame.follows]

theorem find_prompt (cache : Cache K V τ) (reach : Reach) (key : Shared K) (source : Source) :
    Prompt (cache.find reach key source).2 := by
  have seeking := cache.seeking reach key source
  generalize cache.find reach key source = result at seeking ⊢
  cases seeking <;> simp [Prompt, Frame.delivers]

omit [Clock τ] in
theorem claim_counted (cache : Cache K V τ) (reach : Reach) (thread : ThreadId) (key : Shared K) (source : Source)
    (now : Nat) : Counted (cache.claim reach thread key source now).2 := by
  rw [claim_eq]
  cases cache.shards[cache.segmentOf key.data]? <;> simp [Frame.follows]

theorem work_counted (cache : Cache K V τ) (reach : Reach) (thread : ThreadId) {frame : Frame K V}
    (other : frame.finds = false) : Counted (cache.work reach thread frame).2 := by
  cases frame with
  | start request => exact startRequest_counted cache reach thread request
  | find | renew => cases other
  | claim key source now => exact claim_counted cache reach thread key source now
  | found key source value renewal =>
      have counted := countRead_counted cache reach (cache.segmentOf key.data)
      exact counted.append (by simp [Frame.follows])
  | answer key source value renewal =>
      rcases renewal with _ | ⟨flight, old⟩
      · simp [work, answer, Frame.follows]
      · cases source with
        | given => simp [work, answer, runLoader, Frame.follows]
        | bound =>
            dsimp only [work, answer, reload]
            split <;> simp [runLoader, Frame.follows]
  | claimed key source segment claim => cases claim <;> simp [work, takeClaim, runLoader, Frame.follows]
  | conclude source purpose outcome =>
      cases purpose <;> cases outcome <;> simp [work, conclude, Frame.follows]
  | cancel => simp [work, giveUp, Frame.follows]
  | renewed key renewal => cases renewal <;> simp [work, Frame.follows]
  | removing keys => cases keys <;> simp [work, Frame.follows]
  | await =>
      dsimp only [work]
      repeat' split
      all_goals simp [Frame.follows]
  | deliver | delivering | clearing | sweeping | releasing =>
      dsimp only [work]
      split <;> simp [Frame.follows]
  | _ => simp [work, Frame.follows]

theorem work_prompt (cache : Cache K V τ) (reach : Reach) (thread : ThreadId) (frame : Frame K V) :
    Prompt (cache.work reach thread frame).2 := by
  cases finds : frame.finds with
  | false => exact (work_counted cache reach thread finds).prompt
  | true =>
      cases frame with
      | find key source => exact find_prompt cache reach key source
      | renew key source now value => simp [work, renew, Prompt, Frame.delivers, Frame.stamp?]
      | _ => cases finds

omit [DecidableEq K] [Clock τ] in
theorem passOn_counted (cache : Cache K V τ) (reply : Reply K V) (frame : Frame K V) :
    Counted (cache.passOn reply frame).2 := by
  unfold passOn
  split
  · split <;> simp [Frame.follows]
  · simp [Frame.follows]
  · split <;> simp [Frame.follows]
  · simp [Frame.follows]

theorem endLoader_counted (cache : Cache K V τ) (reach : Reach) (key : Shared K) (flight : Flight) (started : Nat)
    (source : Source) (purpose : Purpose V) (ending : LoaderEnd V) :
    Counted (cache.endLoader reach key flight started source purpose ending).2 := by
  cases ending <;> simp [endLoader, giveUp, Frame.follows]

structure Paced (thread : ThreadId) (cache : Cache K V τ) : Prop where
  nested : ∀ call ∈ (cache.callsOf thread).tail, call.asksClient = true
  telling : (cache.callsOf thread).countP (·.tells) ≤ cache.delivering.toNat
  prompt : ∀ call ∈ cache.callsOf thread, Prompt call.frames

namespace Paced

variable {call call' : Call K V} {outer : List (Call K V)}

omit [DecidableEq K] [Clock τ] in
theorem soon (paced : cache.Paced thread) (here : cache.callsOf thread = call :: outer) : Prompt call.frames :=
  paced.prompt call (here ▸ List.mem_cons_self)

omit [DecidableEq K] [Clock τ] in
theorem pending_le (paced : cache.Paced thread) (here : cache.callsOf thread = call :: outer) (place : K → Nat)
    (index : Nat) : (outer.map fun call => pending place call.frames index).sum ≤ 1 := by
  have nested := paced.nested
  have telling := paced.telling
  have prompt := paced.prompt
  rw [here, List.tail_cons] at nested
  rw [here, List.countP_cons] at telling
  have one : outer.countP (·.tells) ≤ 1 := by
    have most := cache.delivering.toNat_le
    omega
  refine le_trans ?_ one
  replace prompt (call : Call K V) (member : call ∈ outer) : Prompt call.frames :=
    prompt call (here ▸ List.mem_cons_of_mem _ member)
  clear here telling one
  induction outer with
  | nil => exact le_rfl
  | cons first rest ih =>
      have later := ih (fun call member => nested call (List.mem_cons_of_mem _ member))
        fun call member => prompt call (List.mem_cons_of_mem _ member)
      have own : pending place first.frames index ≤ if first.tells then 1 else 0 := by
        have asks := nested first List.mem_cons_self
        have soon := prompt first List.mem_cons_self
        obtain ⟨arguments, frames⟩ := first
        cases frames with
        | nil => cases asks
        | cons frame frames =>
            cases frame with
            | listening => exact soon.pending_le
            | loading =>
                rw [pending_cons, (soon.counted_rest rfl).pending]
                exact Nat.zero_le _
            | _ => cases asks
      rw [List.map_cons, List.sum_cons, List.countP_cons]
      omega

omit [DecidableEq K] [Clock τ] in
theorem outer_stamp? (paced : cache.Paced thread) (here : cache.callsOf thread = call :: outer) :
    ∀ call ∈ outer, ∀ frame ∈ call.frames, frame.stamp? = none := by
  intro call member frame inside
  have asks := paced.nested call (here ▸ member)
  have prompt := paced.prompt call (here ▸ List.mem_cons_of_mem _ member)
  obtain ⟨arguments, frames⟩ := call
  cases frames with
  | nil => cases asks
  | cons first rest =>
      rcases List.mem_cons.mp inside with rfl | later
      · cases frame with
        | listening | loading => rfl
        | _ => cases asks
      · exact prompt.rest_stamp? frame later

omit [DecidableEq K] [Clock τ] in
theorem goOn (paced : cache.Paced thread) (here : cache.callsOf thread = call :: outer) (prompt : Prompt call'.frames)
    (telling : call'.tells.toNat + cache.delivering.toNat ≤ call.tells.toNat + cache'.delivering.toNat) :
    (cache'.setCalls thread (call' :: outer)).Paced thread := by
  have counted := paced.telling
  rw [here, List.countP_cons] at counted
  refine ⟨?_, ?_, ?_⟩
  · rw [callsOf_setCalls, if_pos rfl]
    have nested := paced.nested
    rwa [here] at nested
  · rw [callsOf_setCalls, if_pos rfl, List.countP_cons]
    show _ ≤ cache'.delivering.toNat
    cases before : call.tells <;> cases after : call'.tells <;> simp_all <;> omega
  · rw [callsOf_setCalls, if_pos rfl]
    have earlier := paced.prompt
    rw [here] at earlier
    exact List.forall_mem_cons.mpr ⟨prompt, (List.forall_mem_cons.mp earlier).2⟩

omit [DecidableEq K] [Clock τ] in
theorem leave (paced : cache.Paced thread) (here : cache.callsOf thread = call :: outer) :
    (cache.setCalls thread outer).Paced thread := by
  obtain ⟨nested, telling, prompt⟩ := paced
  rw [here] at nested prompt
  rw [here, List.countP_cons] at telling
  refine ⟨?_, ?_, ?_⟩
  · rw [callsOf_setCalls, if_pos rfl]
    exact fun call member => nested call (List.mem_of_mem_tail member)
  · rw [callsOf_setCalls, if_pos rfl]
    exact (Nat.le_add_right ..).trans telling
  · rw [callsOf_setCalls, if_pos rfl]
    exact (List.forall_mem_cons.mp prompt).2

theorem step (paced : cache.Paced thread) (composed : cache.Composed) (held : Reach) (event : Event K V τ)
    (sequential : (⟨cache, held, event⟩ : Moment K V τ).IsSequential thread) :
    (cache.step held event).1.Paced thread := by
  have happens := cache.step_happens held event
  have arranged := composed.arranged
  -- work hands nothing over, and is done by a call that hands nothing over
  have works {accepted : List (K × Shared V)} {result : Cache K V τ × List (Frame K V)} {arguments : List ObjectId}
      {frames rest : List (Frame K V)} {outer : List (Call K V)}
      (here : cache.callsOf thread = ⟨arguments, frames⟩ :: outer) (works : Works cache accepted result)
      (fits : ∀ frame ∈ frames, frame.Fits cache.segmentOf) (sublist : rest <:+ frames)
      (prompt : Prompt (result.2 ++ rest)) :
      (result.1.setCalls thread (⟨arguments, result.2 ++ rest⟩ :: outer)).Paced thread := by
    have before : (⟨arguments, frames⟩ : Call K V).tells = false := Handover.silent_of_fits fits
    have after := Handover.silent_of_works works (fun frame member => fits frame (sublist.subset member)) arguments
    refine paced.goOn here prompt ?_
    rw [before, after, works.moves.steady.delivering]
  generalize cache.step held event = result at happens ⊢
  cases happens with
  | entered other request =>
      obtain ⟨rfl, asks⟩ := sequential
      refine ⟨?_, ?_, ?_⟩
      · rw [callsOf_setCalls, if_pos rfl]
        have nested := paced.nested
        cases here : cache.callsOf other with
        | nil => exact nofun
        | cons first outer =>
            rw [here] at nested asks
            exact List.forall_mem_cons.mpr ⟨asks first rfl, nested⟩
      · rw [callsOf_setCalls, if_pos rfl, List.countP_cons]
        exact paced.telling
      · rw [callsOf_setCalls, if_pos rfl]
        exact List.forall_mem_cons.mpr ⟨nofun, paced.prompt⟩
  | timed | contended | closed => exact ⟨paced.nested, paced.telling, paced.prompt⟩
  | idle | loading | listening | blocked | notLoading | notListening => exact paced
  | ended here | returned here | unwound here =>
      cases sequential
      exact paced.leave here
  | passed here =>
      cases sequential
      have counted := (paced.soon here).counted_rest rfl
      exact works here (cache.passOn_works _ _) ((arranged _ _ (here ▸ List.mem_cons_self)).fits rfl)
        ((List.suffix_cons ..).trans (List.suffix_cons ..))
        (Prompt.append (Counted.prompt (passOn_counted cache _ _)) fun frame member =>
          counted frame (List.mem_cons_of_mem _ member))
  | worked here busy =>
      cases sequential
      have quiet := Frame.quiet_of_isWork busy
      have fits := (arranged _ _ (here ▸ List.mem_cons_self)).fits quiet
      exact works here (work_works composed.orderly _ _ (fits _ List.mem_cons_self)) fits (List.suffix_cons ..)
        ((work_prompt ..).append ((paced.soon here).counted_rest quiet))
  | loaded here ending =>
      cases sequential
      have fits := (arranged _ _ (here ▸ List.mem_cons_self)).fits rfl
      have placed := (fits _ List.mem_cons_self).2 _ rfl
      exact works here (endLoader_works composed.orderly _ placed _ _ _ ending) fits (List.suffix_cons ..)
        (Prompt.append (Counted.prompt (endLoader_counted cache _ _ _ _ _ _ ending))
          ((paced.soon here).counted_rest rfl))
  | @begun _ arguments rest outer here free =>
      cases sequential
      have soon := (paced.soon here).behind rfl
      exact paced.goOn here (.cons rfl soon (paced.soon here).rest_stamp?) (by simp [Call.tells, Frame.isTelling, free])
  | @skipped _ arguments rest outer here =>
      cases sequential
      have soon := (paced.soon here).behind rfl
      exact paced.goOn here soon (by simp [Call.tells, Frame.isTelling])
  | @told _ arguments rest outer removal later here =>
      cases sequential
      have unstamped : ∀ later ∈ Frame.delivering :: rest, later.stamp? = none :=
        List.forall_mem_cons.mpr ⟨rfl, (paced.soon here).rest_stamp?⟩
      exact paced.goOn here (.cons rfl (paced.soon here) unstamped) (by simp [Call.tells, Frame.isTelling])
  | @allTold _ arguments rest outer here =>
      cases sequential
      have silent : (⟨arguments, rest⟩ : Call K V).tells = false :=
        Handover.silent_of_fits (arranged _ _ (here ▸ List.mem_cons_self)).rest_of_delivering
      have soon := (paced.soon here).behind rfl
      refine paced.goOn here soon ?_
      have most := cache.delivering.toNat_le
      rw [silent]
      simpa [Call.tells, Frame.isTelling] using most
  | heard here ending log =>
      cases sequential
      obtain ⟨later, rfl⟩ := (arranged _ _ (here ▸ List.mem_cons_self)).rest_of_listening
      have soon := (paced.soon here).behind rfl
      exact paced.goOn here soon (by simp [Call.tells, Frame.isTelling])

end Paced

theorem History.paced {config : Config K V} {hash : K → UInt64} {clock : τ} {past : List (Moment K V τ)}
    (history : History config hash clock past cache) (sequential : ∀ moment ∈ past, moment.IsSequential thread) :
    cache.Paced thread := by
  induction history with
  | create => exact ⟨nofun, Nat.zero_le _, nofun⟩
  | step history held event ih =>
      have before := List.forall_mem_append.mp sequential
      exact (ih before.1).step history.recorded.composed held event (before.2 _ List.mem_cons_self)

end Cache
end SegmentedCache
