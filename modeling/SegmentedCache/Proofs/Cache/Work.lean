import SegmentedCache.Proofs.Cache.Requests

namespace SegmentedCache

/-!
What the frames of a call do. Each makes some moves and leaves frames behind. If something was reported on the way, the
first of these delivers it.
-/

variable {K V τ : Type}

namespace Frame

def delivers : Frame K V → Bool
  | .deliver | .delivering | .listening _ => true
  | _ => false

def claim? : Frame K V → Option (K × Nat)
  | .found key _ _ renewal | .answer key _ _ renewal | .renewed key renewal =>
      renewal.map fun renewal => (key.data, renewal.1.segment)
  | .claimed key _ segment _ => some (key.data, segment)
  | .await key flight | .loading key flight _ _ _ | .cancel key flight => some (key.data, flight.segment)
  | _ => none

def Fits (place : K → Nat) (frame : Frame K V) : Prop :=
  frame.delivers = false ∧ ∀ claim ∈ frame.claim?, claim.2 = place claim.1

theorem Fits.not_delivering {place : K → Nat} {frame : Frame K V} (fits : frame.Fits place) :
    ¬ (frame = .deliver ∨ frame = .delivering) := by
  rintro (rfl | rfl) <;> cases fits.1

end Frame

namespace Cache

section Moves

theorem count_undelivered (cache : Cache K V τ) (f : Stats → Stats) :
    (cache.count f).undelivered = cache.undelivered := by
  obtain ⟨stats, counted⟩ := cache.count_eq f
  rw [counted]

theorem Orderly.changeSegment_undelivered {cache : Cache K V τ} (orderly : cache.Orderly) (index : Nat)
    {f : Segment K V → Segment K V} (kept : ∀ s, (f s).removals = s.removals) :
    (cache.changeSegment index f).undelivered = cache.undelivered := by
  cases found : cache.shards[index]? with
  | none => rw [changeSegment_of_none found]
  | some shard =>
      obtain ⟨stats, log, changed⟩ := changeSegment_eq found f
      rw [changed, kept, (orderly.shards index shard found).2]
      simp

end Moves

section Works

variable [DecidableEq K] [Clock τ]

theorem removals_read (s : Segment K V) (reach : Reach) (now : Nat) (hash : UInt64) (key : K) :
    (s.read reach now hash key).2.removals = s.removals := by
  have reading := s.reading reach now hash key
  generalize s.read reach now hash key = result at reading ⊢
  cases reading with
  | absent | awaited | stale => rfl
  | live =>
      rw [Segment.noteRead]
      split
      · dsimp only
        split <;> rfl
      · rfl

theorem Moves.silent (cache : Cache K V τ) (index : Nat) (reach : Reach) (now : Nat) (op : Operation K V)
    (placed : ∀ key, op.key? = some key → cache.segmentOf key = index)
    (nothing : ∀ s : Segment K V, op.accepted cache.hash reach now s = []) :
    Moves cache [] (cache.changeSegment index (op.run cache.hash reach now)) := by
  have moves : Moves cache (cache.acceptedAt index reach now op ++ []) _ := .operate placed (.done _)
  have accepted : cache.acceptedAt index reach now op = [] := by
    unfold acceptedAt
    cases cache.shards[index]? with
    | none => rfl
    | some shard => exact nothing shard.segment
  rwa [accepted] at moves

structure Works (cache : Cache K V τ) (accepted : List (K × Shared V)) (result : Cache K V τ × List (Frame K V)) :
    Prop where
  moves : Moves cache accepted result.1
  frames : (∃ rest, result.2 = .deliver :: rest ∧ ∀ frame ∈ rest, frame.Fits cache.segmentOf) ∨
    result.1.undelivered = cache.undelivered ∧ ∀ frame ∈ result.2, frame.Fits cache.segmentOf

namespace Works

variable {cache t : Cache K V τ} {accepted accepted' : List (K × Shared V)} {frames more : List (Frame K V)}
  {result : Cache K V τ × List (Frame K V)}

theorem quiet (moves : Moves cache accepted t) (same : t.undelivered = cache.undelivered)
    (fits : ∀ frame ∈ frames, frame.Fits cache.segmentOf) : Works cache accepted (t, frames) :=
  ⟨moves, .inr ⟨same, fits⟩⟩

theorem due (moves : Moves cache accepted t) (fits : ∀ frame ∈ frames, frame.Fits cache.segmentOf) :
    Works cache accepted (t, .deliver :: frames) :=
  ⟨moves, .inl ⟨frames, rfl, fits⟩⟩

theorem append (works : Works cache accepted (t, frames)) (fits : ∀ frame ∈ more, frame.Fits cache.segmentOf) :
    Works cache accepted (t, frames ++ more) := by
  refine ⟨works.moves, ?_⟩
  rcases works.frames with ⟨rest, rfl, fits'⟩ | ⟨same, fits'⟩
  · refine .inl ⟨rest ++ more, rfl, fun frame member => ?_⟩
    exact (List.mem_append.mp member).elim (fits' frame) (fits frame)
  · refine .inr ⟨same, fun frame member => ?_⟩
    exact (List.mem_append.mp member).elim (fits' frame) (fits frame)

theorem after (works : Works t accepted' result) (moves : Moves cache accepted t)
    (same : t.undelivered = cache.undelivered) : Works cache (accepted ++ accepted') result where
  moves := moves.trans works.moves
  frames := by
    rw [← moves.steady.segmentOf, ← same]
    exact works.frames

end Works

theorem runLoader_works (cache : Cache K V τ) {key : Shared K} {flight : Flight}
    (placed : flight.segment = cache.segmentOf key.data) (source : Source) (purpose : Purpose V) :
    Works cache [] (cache.runLoader key flight source purpose) := by
  apply Works.quiet (.tick (.done _)) rfl
  simp [Frame.Fits, Frame.delivers, Frame.claim?, placed]

theorem reload_works (cache : Cache K V τ) {key : Shared K} {flight : Flight}
    (placed : flight.segment = cache.segmentOf key.data) (old : Shared V) :
    Works cache [] (cache.reload key flight old) := by
  unfold reload
  split
  · exact cache.runLoader_works placed .bound (.renew old)
  · rename_i reloads queued
    have queue_placed : cache.background.Placed cache.segmentOf →
        (Background.queue (reloads ++ [⟨key, flight, old⟩])).Placed cache.segmentOf := by
      rw [queued]
      intro waiting reload member
      rcases List.mem_append.mp member with earlier | last
      · exact waiting reload earlier
      · rw [List.mem_singleton.mp last]
        exact placed
    apply Works.quiet (.setBackground queue_placed (.modifyLoad (.done _))) rfl
    simp [Frame.Fits, Frame.delivers, Frame.claim?]
  · apply Works.quiet (.modifyLoad (.done _)) rfl
    simp [Frame.Fits, Frame.delivers, Frame.claim?, placed]

theorem answer_works (cache : Cache K V τ) {key : Shared K} (source : Source) (value : Shared V)
    {renewal : Option (Flight × Shared V)}
    (placed : ∀ renewal' ∈ renewal, renewal'.1.segment = cache.segmentOf key.data) :
    Works cache [] (cache.answer key source value renewal) := by
  unfold answer
  cases renewal with
  | none =>
      apply Works.quiet (.done _) rfl
      simp [Frame.Fits, Frame.delivers, Frame.claim?]
  | some renewal =>
      cases source with
      | given => exact cache.runLoader_works (placed renewal rfl) _ _
      | bound => exact cache.reload_works (placed renewal rfl) _

theorem takeClaim_works (cache : Cache K V τ) {key : Shared K} (source : Source) {segment : Nat}
    (placed : segment = cache.segmentOf key.data) (claim : Claim V) :
    Works cache [] (cache.takeClaim key source segment claim) := by
  cases claim with
  | needless value =>
      apply Works.quiet (.count (.done _)) (cache.count_undelivered _)
      simp [Frame.Fits, Frame.delivers, Frame.claim?]
  | taken load =>
      apply Works.quiet (.count (.done _)) (cache.count_undelivered _)
      simp [Frame.Fits, Frame.delivers, Frame.claim?, placed]
  | granted load =>
      have counted : Moves cache [] (cache.count (·.countMiss)) := .count (.done _)
      refine (runLoader_works _ ?_ source .fetch).after counted (cache.count_undelivered _)
      rwa [counted.steady.segmentOf]

theorem Orderly.finishLoad_moves {cache : Cache K V τ} (orderly : cache.Orderly) (reach : Reach) (now : Nat)
    {key : Shared K} {flight : Flight} (placed : flight.segment = cache.segmentOf key.data)
    (loaded : Option (Shared V)) :
    Moves cache (loaded.toList.map (key.data, ·)) (cache.finishLoad reach now key flight loaded) := by
  have inside : flight.segment < cache.shards.size := placed ▸ orderly.chosen key.data
  have moves : Moves cache (cache.acceptedAt flight.segment reach now (.finishLoad key flight.load loaded) ++ [])
      (cache.finishLoad reach now key flight loaded) := by
    refine .operate ?_ (.done _)
    rintro _ ⟨⟩
    exact placed.symm
  rw [acceptedAt, Array.getElem?_eq_getElem inside, Option.elim_some] at moves
  cases loaded <;> exact moves

theorem giveUp_works {cache : Cache K V τ} (orderly : cache.Orderly) (reach : Reach) {key : Shared K} {flight : Flight}
    (placed : flight.segment = cache.segmentOf key.data) : Works cache [] (cache.giveUp reach key flight) := by
  have moves := orderly.readClock.finishLoad_moves reach cache.readClock.1 placed none
  apply Works.due (.tick moves)
  simp [Frame.Fits, Frame.delivers, Frame.claim?]

theorem endLoader_works {cache : Cache K V τ} (orderly : cache.Orderly) (reach : Reach) {key : Shared K}
    {flight : Flight} (placed : flight.segment = cache.segmentOf key.data) (started : Nat) (source : Source)
    (purpose : Purpose V) (ending : LoaderEnd V) :
    Works cache (match ending with | .value value => [(key.data, value)] | _ => [])
      (cache.endLoader reach key flight started source purpose ending) := by
  have counted (f : Stats → Stats) : Moves cache [] (cache.readClock.2.count f) := .tick (.count (.done _))
  have finished (f : Stats → Stats) (reach : Reach) (outcome : LoadOutcome V) :
      Works cache (outcome.toOption.toList.map (key.data, ·))
        ((cache.readClock.2.count f).finishLoad reach cache.readClock.1 key flight outcome.toOption,
          [.deliver, .settle flight outcome, .conclude source purpose outcome]) := by
    have placed' : flight.segment = (cache.readClock.2.count f).segmentOf key.data := by
      rwa [(counted f).steady.segmentOf]
    apply Works.due ((counted f).trans (((counted f).orderly orderly).finishLoad_moves _ _ placed' outcome.toOption))
    simp [Frame.Fits, Frame.delivers, Frame.claim?]
  cases ending with
  | value value => exact finished _ _ (.ok value)
  | nothing => exact finished _ _ (.error _)
  | failed failure => exact finished _ _ (.error _)
  | panicked message =>
      have failed := counted (·.countLoadFailure (cache.readClock.1 - started))
      have placed' : flight.segment =
          (cache.readClock.2.count (·.countLoadFailure (cache.readClock.1 - started))).segmentOf key.data := by
        rwa [failed.steady.segmentOf]
      have given_up := giveUp_works (failed.orderly orderly) reach placed'
      apply Works.append (given_up.after failed (cache.readClock.2.count_undelivered _))
      simp [Frame.Fits, Frame.delivers, Frame.claim?]

theorem conclude_works (cache : Cache K V τ) (source : Source) (purpose : Purpose V) (outcome : LoadOutcome V) :
    Works cache [] (cache.conclude source purpose outcome) := by
  cases purpose with
  | fetch => exact .quiet (.done _) rfl (by simp [Frame.Fits, Frame.delivers, Frame.claim?])
  | renew | renewLater =>
      cases outcome with
      | ok => exact .quiet (.done _) rfl (by simp [Frame.Fits, Frame.delivers, Frame.claim?])
      | error => exact .quiet (.log (.done _)) rfl (by simp [Frame.Fits, Frame.delivers, Frame.claim?])

theorem countRead_works (cache : Cache K V τ) (reach : Reach) (segment : Nat) :
    Works cache [] (cache.countRead reach segment) := by
  have noted : Moves cache [] (cache.readNoted segment) := .noteRead (.done _)
  have counting := cache.counting reach segment
  generalize cache.countRead reach segment = result at counting ⊢
  cases counting with
  | due =>
      apply Works.due (noted.trans (.tick (.silent _ segment reach _ .cleanUp nofun fun _ => rfl)))
      simp
  | busy =>
      apply Works.due noted
      simp
  | waiting =>
      apply Works.quiet noted rfl
      simp

theorem read_moves (cache : Cache K V τ) (reach : Reach) (key : K) : Moves cache [] (cache.looked reach key) := by
  refine .tick (.silent cache.readClock.2 (cache.segmentOf key) reach cache.readClock.1 (.read key) ?_ fun _ => rfl)
  rintro _ ⟨⟩
  rfl

theorem Orderly.read_undelivered {cache : Cache K V τ} (orderly : cache.Orderly) (reach : Reach) (key : K) :
    (cache.looked reach key).undelivered = cache.undelivered :=
  orderly.readClock.changeSegment_undelivered _ fun s => removals_read s reach cache.readClock.1 (cache.hash key) key

theorem lookup_works {cache : Cache K V τ} (orderly : cache.Orderly) (reach : Reach) (key : K) :
    Works cache [] (cache.lookup reach key) := by
  have looked (f : Stats → Stats) (value : Option (Shared V)) :
      Works cache [] ((((cache.looked reach key).count f).countRead reach (cache.segmentOf key)).1,
        (((cache.looked reach key).count f).countRead reach (cache.segmentOf key)).2 ++ [.give (.value value)]) := by
    have counted := (countRead_works ((cache.looked reach key).count f) reach (cache.segmentOf key)).after
      ((cache.read_moves reach key).trans (.count (.done _)))
      ((count_undelivered _ f).trans (orderly.read_undelivered reach key))
    apply counted.append
    simp [Frame.Fits, Frame.delivers, Frame.claim?]
  have looking := cache.looking reach key
  generalize cache.lookup reach key = result at looking ⊢
  cases looking with
  | served | missed => exact looked _ _

theorem find_works {cache : Cache K V τ} (orderly : cache.Orderly) (reach : Reach) (key : Shared K) (source : Source) :
    Works cache [] (cache.find reach key source) := by
  have read := cache.read_moves reach key.data
  have counted (f : Stats → Stats) : Moves cache [] ((cache.looked reach key.data).count f) :=
    read.trans (.count (.done _))
  have same := orderly.read_undelivered reach key.data
  have seeking := cache.seeking reach key source
  generalize cache.find reach key source = result at seeking ⊢
  cases seeking with
  | served | overdue | joined =>
      apply Works.quiet (counted _) ((count_undelivered ..).trans same)
      simp [Frame.Fits, Frame.delivers, Frame.claim?]
  | missed =>
      apply Works.quiet read same
      simp [Frame.Fits, Frame.delivers, Frame.claim?]

theorem claim_works {cache : Cache K V τ} (orderly : cache.Orderly) (reach : Reach) (thread : ThreadId)
    (key : Shared K) (source : Source) (now : Nat) : Works cache [] (cache.claim reach thread key source now) := by
  have claiming := Moves.silent cache (cache.segmentOf key.data) reach now (.claim thread key)
    (fun _ same => congrArg cache.segmentOf (Option.some.inj same).symm) fun _ => rfl
  rw [claim_eq, Array.getElem?_eq_getElem (orderly.chosen key.data)]
  apply Works.due claiming
  simp [Frame.Fits, Frame.delivers, Frame.claim?]

theorem renew_works (cache : Cache K V τ) (reach : Reach) (thread : ThreadId) (key : Shared K) (source : Source)
    (now : Nat) (value : Shared V) : Works cache [] (cache.renew reach thread key source now value) := by
  have renewing := Moves.silent cache (cache.segmentOf key.data) reach now (.claimRefresh thread key false)
    (fun _ same => congrArg cache.segmentOf (Option.some.inj same).symm) fun _ => rfl
  rw [renew_eq]
  apply Works.due renewing
  simp only [List.mem_singleton, forall_eq, Frame.Fits, Frame.delivers, Frame.claim?, Option.map_map, Option.mem_def,
    Option.map_eq_some_iff, true_and]
  rintro claim ⟨_, _, rfl⟩
  rfl

theorem put_works {cache : Cache K V τ} (orderly : cache.Orderly) (reach : Reach) (key : Shared K) (value : Shared V)
    (onlyIfNew : Bool) :
    ∃ old, (cache.put reach key value onlyIfNew).2 = [.deliver, .give (.value old)] ∧
      Works cache (bif onlyIfNew && old.isSome then [] else [(key.data, value)])
        (cache.put reach key value onlyIfNew) := by
  have inside : cache.readClock.2.segmentOf key.data < cache.readClock.2.shards.size := orderly.chosen key.data
  have placed (other : K) (same : some key.data = some other) :
      cache.readClock.2.segmentOf other = cache.readClock.2.segmentOf key.data := by
    cases same
    rfl
  have stored : Moves cache.readClock.2
      (cache.readClock.2.acceptedAt (cache.readClock.2.segmentOf key.data) reach cache.readClock.1
        (.insert key value onlyIfNew) ++ []) _ := .operate placed (.done _)
  rw [acceptedAt, Array.getElem?_eq_getElem inside, Option.elim_some, List.append_nil] at stored
  unfold put
  dsimp only
  rw [onSegment_snd, onSegment_fst, Array.getElem?_eq_getElem inside]
  refine ⟨_, rfl, Works.due (.tick stored) ?_⟩
  simp [Frame.Fits, Frame.delivers, Frame.claim?]

def storedBy (cache : Cache K V τ) (reach : Reach) : Request K V → List (K × Shared V)
  | .insert key value => [(key.data, value)]
  | .insertIfNew key value =>
      match (cache.put reach key value true).2 with
      | [_, .give (.value (some _))] => []
      | _ => [(key.data, value)]
  | _ => []

theorem remove_moves (cache : Cache K V τ) (reach : Reach) (key : K) :
    Moves cache [] (cache.remove reach key).2 := by
  rw [remove_snd]
  refine .tick (.silent cache.readClock.2 (cache.segmentOf key) reach cache.readClock.1 (.remove key) ?_ fun _ => rfl)
  rintro _ ⟨⟩
  rfl

theorem nextReload?_moves {cache t : Cache K V τ} (orderly : cache.Orderly) {reload : Reload K V}
    (next : cache.nextReload? = some (reload, t)) :
    Moves cache [] t ∧ t.undelivered = cache.undelivered ∧
      reload.flight.segment = cache.segmentOf reload.key.data := by
  unfold nextReload? at next
  split at next
  · rename_i first reloads queued
    cases next
    have waiting := orderly.reloads
    rw [queued] at waiting
    have placed : cache.background.Placed cache.segmentOf → (Background.queue reloads).Placed cache.segmentOf :=
      fun _ reload member => waiting reload (List.mem_cons_of_mem _ member)
    exact ⟨.setBackground placed (.done _), rfl, waiting _ List.mem_cons_self⟩
  · cases next

theorem startRequest_works {cache : Cache K V τ} (orderly : cache.Orderly) (reach : Reach) (thread : ThreadId)
    (request : Request K V) :
    Works cache (cache.storedBy reach request) (cache.startRequest reach thread request) := by
  have waiting (frames : List (Frame K V)) (fits : ∀ frame ∈ frames, frame.Fits cache.segmentOf) :
      Works cache [] (cache, frames) := .quiet (.done _) rfl fits
  cases request with
  | lookup key => exact lookup_works orderly reach key
  | get | load | removeAll | clear | cleanUp | releaseSoft =>
      exact waiting _ (by simp [Frame.Fits, Frame.delivers, Frame.claim?])
  | loadAll keys =>
      cases keys <;> exact waiting _ (by simp [Frame.Fits, Frame.delivers, Frame.claim?])
  | refresh key =>
      have placed (other : K) (same : some key.data = some other) :
          cache.segmentOf other = cache.segmentOf key.data := by
        cases same
        rfl
      have claimed := Moves.silent cache.readClock.2 (cache.segmentOf key.data) reach cache.readClock.1
        (.claimRefresh thread key true) placed fun _ => rfl
      unfold startRequest
      dsimp only
      rw [onSegment_snd]
      apply Works.due (.tick claimed)
      simp only [List.mem_singleton, forall_eq, Frame.Fits, Frame.delivers, Frame.claim?, Option.map_map,
        Option.mem_def, Option.map_eq_some_iff, true_and]
      rintro claim ⟨_, _, rfl⟩
      rfl
  | insert key value =>
      obtain ⟨old, _, works⟩ := put_works orderly reach key value false
      exact works
  | insertIfNew key value =>
      obtain ⟨old, given, works⟩ := put_works orderly reach key value true
      rw [storedBy, given]
      cases old <;> exact works
  | remove key =>
      apply Works.due (remove_moves cache reach key)
      simp [Frame.Fits, Frame.delivers, Frame.claim?]
  | contains key | entries =>
      apply Works.quiet (.tick (.done _)) rfl
      simp [Frame.Fits, Frame.delivers, Frame.claim?]
  | runReload =>
      dsimp only [startRequest]
      split
      · exact waiting _ (by simp [Frame.Fits, Frame.delivers, Frame.claim?])
      · rename_i reload t next
        obtain ⟨moves, same, placed⟩ := nextReload?_moves orderly next
        have owned : Moves cache [] (t.modifyLoad reload.flight (·.setOwner (some thread))) :=
          moves.trans (.modifyLoad (.done _))
        refine (runLoader_works _ ?_ .bound (.renewLater reload.old)).after owned same
        rwa [owned.steady.segmentOf]
  | dropReload =>
      dsimp only [startRequest]
      split
      · exact waiting _ (by simp [Frame.Fits, Frame.delivers, Frame.claim?])
      · rename_i reload t next
        obtain ⟨moves, same, placed⟩ := nextReload?_moves orderly next
        apply Works.quiet moves same
        simp [Frame.Fits, Frame.delivers, Frame.claim?, placed]

theorem passOn_works (cache : Cache K V τ) (reply : Reply K V) (frame : Frame K V) :
    Works cache [] (cache.passOn reply frame) := by
  unfold passOn
  repeat' split
  all_goals first
    | exact .quiet (.done _) rfl (by simp [Frame.Fits, Frame.delivers, Frame.claim?])
    | exact .quiet (.log (.done _)) rfl (by simp [Frame.Fits, Frame.delivers, Frame.claim?])

def acceptedBy (cache : Cache K V τ) (reach : Reach) : Frame K V → List (K × Shared V)
  | .start request => cache.storedBy reach request
  | _ => []

theorem work_works {cache : Cache K V τ} (orderly : cache.Orderly) (reach : Reach) (thread : ThreadId)
    {frame : Frame K V} (fits : frame.Fits cache.segmentOf) :
    Works cache (cache.acceptedBy reach frame) (cache.work reach thread frame) := by
  have waiting (frames : List (Frame K V)) (fits : ∀ frame ∈ frames, frame.Fits cache.segmentOf) :
      Works cache [] (cache, frames) := .quiet (.done _) rfl fits
  cases frame with
  | start request => exact startRequest_works orderly reach thread request
  | deliver | delivering | listening => cases fits.1
  | find key source => exact find_works orderly reach key source
  | claim key source now => exact claim_works orderly reach thread key source now
  | renew key source now value => exact cache.renew_works reach thread key source now value
  | found key source value renewal =>
      apply (countRead_works cache reach (cache.segmentOf key.data)).append
      intro frame member
      rw [List.mem_singleton.mp member]
      exact ⟨rfl, fits.2⟩
  | answer key source value renewal =>
      apply cache.answer_works source value
      intro renewal' found
      exact fits.2 _ (Option.map_eq_some_iff.mpr ⟨renewal', found, rfl⟩)
  | claimed key source segment claim => exact cache.takeClaim_works source (fits.2 _ rfl) claim
  | await key flight =>
      have still : Works cache [] (cache, [.await key flight]) := waiting _ (by simpa using fits)
      dsimp only [work]
      split
      · exact still
      · split
        · exact waiting _ (by simp [Frame.Fits, Frame.delivers, Frame.claim?])
        · split
          · exact still
          · exact waiting _ (by simp [Frame.Fits, Frame.delivers, Frame.claim?])
  | settle flight outcome =>
      exact .quiet (.modifyLoad (.done _)) rfl (by simp)
  | conclude source purpose outcome => exact cache.conclude_works source purpose outcome
  | cancel key flight => exact giveUp_works orderly reach (fits.2 _ rfl)
  | renewed key renewal =>
      cases renewal with
      | none => exact waiting _ (by simp [Frame.Fits, Frame.delivers, Frame.claim?])
      | some renewal =>
          apply waiting
          simpa [Frame.Fits, Frame.delivers, Frame.claim?] using fits
  | removing keys =>
      cases keys with
      | nil => exact waiting _ (by simp [Frame.Fits, Frame.delivers, Frame.claim?])
      | cons key rest =>
          apply Works.due (remove_moves cache reach key)
          simp [Frame.Fits, Frame.delivers, Frame.claim?]
  | clearing segment =>
      dsimp only [work]
      split
      · apply Works.due (.silent cache segment reach 0 .clear nofun fun _ => rfl)
        simp [Frame.Fits, Frame.delivers, Frame.claim?]
      · apply Works.quiet (.log (.done _)) rfl
        simp [Frame.Fits, Frame.delivers, Frame.claim?]
  | sweeping segment =>
      dsimp only [work]
      split
      · apply Works.due (.tick (.silent cache.readClock.2 segment reach _ .cleanUp nofun fun _ => rfl))
        simp [Frame.Fits, Frame.delivers, Frame.claim?]
      · exact waiting _ (by simp [Frame.Fits, Frame.delivers, Frame.claim?])
  | releasing segment =>
      dsimp only [work]
      split
      · apply Works.due (.silent cache segment reach 0 .releaseSoft nofun fun _ => rfl)
        simp [Frame.Fits, Frame.delivers, Frame.claim?]
      · exact waiting _ (by simp [Frame.Fits, Frame.delivers, Frame.claim?])
  | renewing | fetching => exact waiting _ (by simp [Frame.Fits, Frame.delivers, Frame.claim?])
  | loading | holding | unwind | give | gather => exact waiting _ (by simp)

end Works

end Cache
end SegmentedCache
