import SegmentedCache.Proofs.Cache.Happenings
import SegmentedCache.Proofs.Cache.History

namespace SegmentedCache

/-!
What segments report. Whether anybody listens, and how much the listener has yet to be told, makes no difference to what
a cache does otherwise.
-/

variable {K V τ : Type}

namespace Cache

/-- The cache with a listener who was told of everything. -/
def heard (cache : Cache K V τ) : Cache K V τ :=
  { cache with listens := true, undelivered := [] }

/-- The cache as somebody else finds it, who may not listen, or has yet to be told of `earlier` removals. -/
def requeue (listens : Bool) (earlier : List (Removal K V)) (cache : Cache K V τ) : Cache K V τ :=
  { cache with listens, undelivered := if listens then earlier ++ cache.undelivered else earlier }

variable {cache : Cache K V τ} {reach : Reach} (heeds : Bool) (earlier : List (Removal K V))

theorem requeue_heard (cache : Cache K V τ) : cache.heard.requeue cache.listens cache.undelivered = cache := by
  simp [requeue, heard]

theorem count_requeue (cache : Cache K V τ) (f : Stats → Stats) :
    (cache.requeue heeds earlier).count f = (cache.count f).requeue heeds earlier := by
  by_cases recorded : cache.recordsStats = true <;> simp [Cache.count, requeue, recorded]

theorem listens_count (cache : Cache K V τ) (f : Stats → Stats) : (cache.count f).listens = cache.listens := by
  obtain ⟨stats, counted⟩ := cache.count_eq f
  rw [counted]

theorem collect_requeue (listens : cache.listens = true) (removals : List (Removal K V)) (growths : List (Nat × Nat)) :
    (cache.requeue heeds earlier).collect removals growths =
    (cache.collect removals growths).requeue heeds earlier := by
  rw [collect, collect, ← count_requeue]
  congr 1
  cases heeds <;> simp [requeue, listens]

theorem onSegment_requeue {α : Type} (listens : cache.listens = true) (index : Nat) (otherwise : α)
    (f : Segment K V → α × Segment K V) :
    (cache.requeue heeds earlier).onSegment index otherwise f =
      ((cache.onSegment index otherwise f).1, (cache.onSegment index otherwise f).2.requeue heeds earlier) := by
  simp only [onSegment, collect_requeue heeds earlier listens, show (cache.requeue heeds earlier).shards =
    cache.shards from rfl]
  cases cache.shards[index]? <;> rfl

theorem changeSegment_requeue (listens : cache.listens = true) (index : Nat) (f : Segment K V → Segment K V) :
    (cache.requeue heeds earlier).changeSegment index f = (cache.changeSegment index f).requeue heeds earlier := by
  rw [changeSegment, onSegment_requeue heeds earlier listens, changeSegment]

section Work

variable [DecidableEq K] [Clock τ]

omit [DecidableEq K] in
theorem reload_requeue (cache : Cache K V τ) (key : Shared K) (flight : Flight) (old : Shared V) :
    (cache.requeue heeds earlier).reload key flight old =
      (cache.reload key flight old).map (·.requeue heeds earlier) id := by
  unfold reload
  rw [show (cache.requeue heeds earlier).background = cache.background from rfl]
  cases cache.background <;> rfl

omit [DecidableEq K] in
theorem answer_requeue (cache : Cache K V τ) (key : Shared K) (source : Source) (value : Shared V)
    (renewal : Option (Flight × Shared V)) :
    (cache.requeue heeds earlier).answer key source value renewal =
      (cache.answer key source value renewal).map (·.requeue heeds earlier) id := by
  cases renewal with
  | none => rfl
  | some renewal =>
      cases source with
      | given => rfl
      | bound => exact reload_requeue heeds earlier cache key renewal.1 renewal.2

omit [DecidableEq K] in
theorem takeClaim_requeue (cache : Cache K V τ) (key : Shared K) (source : Source) (segment : Nat) (claim : Claim V) :
    (cache.requeue heeds earlier).takeClaim key source segment claim =
      (cache.takeClaim key source segment claim).map (·.requeue heeds earlier) id := by
  cases claim <;> simp only [takeClaim, count_requeue] <;> rfl

omit [Clock τ] in
theorem finishLoad_requeue (listens : cache.listens = true) (reach : Reach) (now : Nat) (key : Shared K)
    (flight : Flight) (loaded : Option (Shared V)) :
    (cache.requeue heeds earlier).finishLoad reach now key flight loaded =
      (cache.finishLoad reach now key flight loaded).requeue heeds earlier :=
  changeSegment_requeue heeds earlier listens _ _

theorem giveUp_requeue (listens : cache.listens = true) (reach : Reach) (key : Shared K) (flight : Flight) :
    (cache.requeue heeds earlier).giveUp reach key flight =
      (cache.giveUp reach key flight).map (·.requeue heeds earlier) id := by
  have ticked : cache.readClock.2.listens = true := listens
  have finished := finishLoad_requeue heeds earlier ticked reach cache.readClock.1 key flight none
  exact congrArg (·, (cache.giveUp reach key flight).2) finished

theorem endLoader_requeue (listens : cache.listens = true) (reach : Reach) (key : Shared K) (flight : Flight)
    (started : Nat) (source : Source) (purpose : Purpose V) (ending : LoaderEnd V) :
    (cache.requeue heeds earlier).endLoader reach key flight started source purpose ending =
      (cache.endLoader reach key flight started source purpose ending).map (·.requeue heeds earlier) id := by
  have listens' (f : Stats → Stats) : (cache.readClock.2.count f).listens = true := by
    rw [listens_count]
    exact listens
  have counted (f : Stats → Stats) : (cache.requeue heeds earlier).readClock.2.count f =
      (cache.readClock.2.count f).requeue heeds earlier := count_requeue heeds earlier cache.readClock.2 f
  have finished (f : Stats → Stats) (outcome : LoadOutcome V) :
      ((cache.requeue heeds earlier).readClock.2.count f).finishLoad
          (fun object => reach object || outcome.toOption.any (·.id = object)) cache.readClock.1 key flight
          outcome.toOption =
        ((cache.readClock.2.count f).finishLoad
          (fun object => reach object || outcome.toOption.any (·.id = object)) cache.readClock.1 key flight
          outcome.toOption).requeue heeds earlier := by
    rw [counted, finishLoad_requeue heeds earlier (listens' f)]
  cases ending with
  | value value => exact congrArg (·, _) (finished _ (.ok value))
  | nothing | failed => exact congrArg (·, _) (finished _ (.error _))
  | panicked message =>
      unfold endLoader
      dsimp only
      rw [counted, giveUp_requeue heeds earlier (listens' _)]
      rfl

omit [DecidableEq K] [Clock τ] in
theorem conclude_requeue (cache : Cache K V τ) (source : Source) (purpose : Purpose V) (outcome : LoadOutcome V) :
    (cache.requeue heeds earlier).conclude source purpose outcome =
      (cache.conclude source purpose outcome).map (·.requeue heeds earlier) id := by
  unfold conclude
  split <;> rfl

omit [DecidableEq K] in
theorem countRead_requeue (listens : cache.listens = true) (reach : Reach) (segment : Nat) :
    (cache.requeue heeds earlier).countRead reach segment =
      (cache.countRead reach segment).map (·.requeue heeds earlier) id := by
  have noted : (cache.readNoted segment).readClock.2.listens = true := listens
  unfold countRead
  rw [show (cache.requeue heeds earlier).isDue segment = cache.isDue segment from rfl]
  dsimp only
  rw [show (cache.requeue heeds earlier).contended = cache.contended from rfl]
  split
  · split
    · rfl
    · exact congrArg (·, [Frame.deliver]) (changeSegment_requeue heeds earlier noted _ _)
  · rfl

theorem looked_requeue (listens : cache.listens = true) (reach : Reach) (key : K) :
    (cache.requeue heeds earlier).looked reach key = (cache.looked reach key).requeue heeds earlier :=
  changeSegment_requeue heeds earlier (show cache.readClock.2.listens = true from listens) _ _

theorem listens_looked (cache : Cache K V τ) (reach : Reach) (key : K) :
    (cache.looked reach key).listens = cache.listens :=
  (changeSegment_steady cache.readClock.2 ..).listens

theorem lookup_requeue (listens : cache.listens = true) (reach : Reach) (key : K) :
    (cache.requeue heeds earlier).lookup reach key =
      (cache.lookup reach key).map (·.requeue heeds earlier) id := by
  have counted (f : Stats → Stats) : ((cache.looked reach key).count f).listens = true := by
    rw [listens_count, listens_looked, listens]
  unfold lookup
  dsimp only
  rw [onSegment_read, onSegment_read, looked_requeue heeds earlier listens,
    show (cache.requeue heeds earlier).segmentOf key = cache.segmentOf key from rfl,
    show (cache.requeue heeds earlier).finding reach key = cache.finding reach key from rfl]
  cases cache.finding reach key <;>
  · dsimp only
    rw [count_requeue, countRead_requeue heeds earlier (counted _)]
    rfl

theorem find_requeue (listens : cache.listens = true) (reach : Reach) (key : Shared K) (source : Source) :
    (cache.requeue heeds earlier).find reach key source =
      (cache.find reach key source).map (·.requeue heeds earlier) id := by
  unfold find
  dsimp only
  rw [onSegment_read, onSegment_read, looked_requeue heeds earlier listens,
    show (cache.requeue heeds earlier).finding reach key.data = cache.finding reach key.data from rfl]
  cases cache.finding reach key.data with
  | live | pending =>
      dsimp only
      rw [count_requeue]
      rfl
  | nothing => rfl

omit [Clock τ] in
theorem claim_requeue (listens : cache.listens = true) (reach : Reach) (thread : ThreadId) (key : Shared K)
    (source : Source) (now : Nat) :
    (cache.requeue heeds earlier).claim reach thread key source now =
      (cache.claim reach thread key source now).map (·.requeue heeds earlier) id := by
  rw [claim_eq, claim_eq]
  exact congrArg (·, _) (changeSegment_requeue heeds earlier listens _ _)

omit [Clock τ] in
theorem renew_requeue (listens : cache.listens = true) (reach : Reach) (thread : ThreadId) (key : Shared K)
    (source : Source) (now : Nat) (value : Shared V) :
    (cache.requeue heeds earlier).renew reach thread key source now value =
      (cache.renew reach thread key source now value).map (·.requeue heeds earlier) id :=
  congrArg (fun result => (result.2, [Frame.deliver, .found key source value
      (result.1.map fun renewal => (⟨cache.segmentOf key.data, renewal.1⟩, renewal.2))]))
    (onSegment_requeue heeds earlier listens (cache.segmentOf key.data) none
      (·.claimRefresh reach now thread key (cache.hash key.data) false))

theorem put_requeue (listens : cache.listens = true) (reach : Reach) (key : Shared K) (value : Shared V)
    (onlyIfNew : Bool) :
    (cache.requeue heeds earlier).put reach key value onlyIfNew =
      (cache.put reach key value onlyIfNew).map (·.requeue heeds earlier) id := by
  have ticked : cache.readClock.2.listens = true := listens
  exact congrArg (fun result => (result.2, [Frame.deliver, .give (.value result.1)]))
    (onSegment_requeue heeds earlier ticked
    (cache.segmentOf key.data) none (·.insert reach cache.readClock.1 key (cache.hash key.data) value onlyIfNew))

theorem remove_requeue (listens : cache.listens = true) (reach : Reach) (key : K) :
    (cache.requeue heeds earlier).remove reach key = (cache.remove reach key).map id (·.requeue heeds earlier) := by
  have ticked : cache.readClock.2.listens = true := listens
  exact onSegment_requeue heeds earlier ticked (cache.segmentOf key) none
    (·.remove reach cache.readClock.1 (cache.hash key) key)

omit [DecidableEq K] [Clock τ] in
theorem nextReload?_requeue (cache : Cache K V τ) :
    (cache.requeue heeds earlier).nextReload? =
      cache.nextReload?.map fun next => (next.1, next.2.requeue heeds earlier) := by
  unfold nextReload?
  rw [show (cache.requeue heeds earlier).background = cache.background from rfl]
  split <;> rfl

theorem startRequest_requeue (listens : cache.listens = true) (reach : Reach) (thread : ThreadId)
    (request : Request K V) :
    (cache.requeue heeds earlier).startRequest reach thread request =
      (cache.startRequest reach thread request).map (·.requeue heeds earlier) id := by
  have ticked : cache.readClock.2.listens = true := listens
  cases request with
  | lookup key => exact lookup_requeue heeds earlier listens reach key
  | get | load | removeAll | clear | cleanUp | releaseSoft | contains | entries => rfl
  | loadAll keys => cases keys <;> rfl
  | refresh key =>
      exact congrArg (fun result => (result.2, [Frame.deliver, .renewed key
          (result.1.map fun renewal => (⟨cache.segmentOf key.data, renewal.1⟩, renewal.2))]))
        (onSegment_requeue heeds earlier ticked (cache.segmentOf key.data) none
          (·.claimRefresh reach cache.readClock.1 thread key (cache.hash key.data) true))
  | insert key value => exact put_requeue heeds earlier listens reach key value false
  | insertIfNew key value => exact put_requeue heeds earlier listens reach key value true
  | remove key =>
      exact congrArg (fun result => (result.2, [Frame.deliver, .give (.value result.1)]))
        (remove_requeue heeds earlier listens reach key)
  | runReload | dropReload =>
      simp only [startRequest, nextReload?_requeue]
      cases cache.nextReload? <;> rfl

theorem work_requeue (listens : cache.listens = true) (reach : Reach) (thread : ThreadId) {frame : Frame K V}
    (quiet : frame.delivers = false) :
    (cache.requeue heeds earlier).work reach thread frame =
      (cache.work reach thread frame).map (·.requeue heeds earlier) id := by
  have ticked : cache.readClock.2.listens = true := listens
  cases frame with
  | deliver | delivering | listening => cases quiet
  | start request => exact startRequest_requeue heeds earlier listens reach thread request
  | find key source => exact find_requeue heeds earlier listens reach key source
  | claim key source now => exact claim_requeue heeds earlier listens reach thread key source now
  | renew key source now value => exact renew_requeue heeds earlier listens reach thread key source now value
  | found key source value renewal =>
      exact congrArg (fun result => (result.1, result.2 ++ [.answer key source value renewal]))
        (countRead_requeue heeds earlier listens reach (cache.segmentOf key.data))
  | answer key source value renewal => exact answer_requeue heeds earlier cache key source value renewal
  | claimed key source segment claim => exact takeClaim_requeue heeds earlier cache key source segment claim
  | await key flight =>
      simp only [work, show (cache.requeue heeds earlier).load? flight = cache.load? flight from rfl]
      cases cache.load? flight with
      | none => rfl
      | some load =>
          dsimp only
          split
          · rfl
          · cases load.outcome <;> rfl
  | conclude source purpose outcome => exact conclude_requeue heeds earlier cache source purpose outcome
  | cancel key flight => exact giveUp_requeue heeds earlier listens reach key flight
  | renewed key renewal => cases renewal <;> rfl
  | removing keys =>
      cases keys with
      | nil => rfl
      | cons key rest =>
          exact congrArg (fun result =>
              (result.2, [Frame.deliver, .holding (result.1.map (·.id)).toList, .removing rest]))
            (remove_requeue heeds earlier listens reach key)
  | clearing segment =>
      simp only [work, show (cache.requeue heeds earlier).shards = cache.shards from rfl]
      split
      · exact congrArg (·, _) (changeSegment_requeue heeds earlier listens _ _)
      · rfl
  | sweeping segment =>
      simp only [work, show (cache.requeue heeds earlier).shards = cache.shards from rfl]
      split
      · exact congrArg (·, _) (changeSegment_requeue heeds earlier ticked _ _)
      · rfl
  | releasing segment =>
      simp only [work, show (cache.requeue heeds earlier).shards = cache.shards from rfl]
      split
      · exact congrArg (·, _) (changeSegment_requeue heeds earlier listens _ _)
      · rfl
  | settle | renewing | fetching | loading | holding | unwind | give | gather => rfl

omit [DecidableEq K] [Clock τ] in
theorem passOn_requeue (cache : Cache K V τ) (reply : Reply K V) (frame : Frame K V) :
    (cache.requeue heeds earlier).passOn reply frame =
      (cache.passOn reply frame).map (·.requeue heeds earlier) id := by
  unfold passOn
  repeat' split
  all_goals rfl

/-- The removals that segments report in a step: what it leaves for a listener who was told of all the others. -/
def reports (cache : Cache K V τ) (held : Reach) : Event K V τ → List (Removal K V)
  | .proceed thread =>
      match cache.callsOf thread with
      | { frames := frame :: _, .. } :: _ => (cache.heard.work (cache.reach held) thread frame).1.undelivered
      | _ => []
  | .loaderEnded thread ending =>
      match cache.callsOf thread with
      | { frames := .loading key flight started source purpose :: _, .. } :: _ =>
          (cache.heard.endLoader (cache.reach held) key flight started source purpose ending).1.undelivered
      | _ => []
  | _ => []

theorem work_await_fst (cache : Cache K V τ) (reach : Reach) (thread : ThreadId) (key : Shared K) (flight : Flight) :
    (cache.work reach thread (.await key flight)).1 = cache := by
  dsimp only [work]
  repeat' split
  all_goals rfl

section Here

variable {thread : ThreadId} {arguments : List ObjectId} {frame : Frame K V} {rest : List (Frame K V)}
  {outer : List (Call K V)} {held : Reach}

theorem reports_of_calls (here : cache.callsOf thread = ⟨arguments, frame :: rest⟩ :: outer) :
    cache.reports held (.proceed thread) = (cache.heard.work (cache.reach held) thread frame).1.undelivered := by
  simp only [reports, here]

theorem reports_of_delivers (here : cache.callsOf thread = ⟨arguments, frame :: rest⟩ :: outer)
    (delivers : frame.delivers = true) : cache.reports held (.proceed thread) = [] := by
  rw [reports_of_calls here]
  cases frame with
  | deliver =>
      dsimp only [work]
      split <;> rfl
  | delivering | listening => rfl
  | _ => cases delivers

end Here

theorem reports_of_loading {thread : ThreadId} {arguments : List ObjectId} {key : Shared K} {flight : Flight}
    {started : Nat} {source : Source} {purpose : Purpose V} {rest : List (Frame K V)} {outer : List (Call K V)}
    (here : cache.callsOf thread = ⟨arguments, .loading key flight started source purpose :: rest⟩ :: outer)
    (held : Reach) (ending : LoaderEnd V) :
    cache.reports held (.loaderEnded thread ending) =
      (cache.heard.endLoader (cache.reach held) key flight started source purpose ending).1.undelivered := by
  simp only [reports, here]

theorem work_of_heard (cache : Cache K V τ) (reach : Reach) (thread : ThreadId) {frame : Frame K V}
    (quiet : frame.delivers = false) :
    cache.work reach thread frame =
      (cache.heard.work reach thread frame).map (·.requeue cache.listens cache.undelivered) id := by
  rw [← work_requeue cache.listens cache.undelivered (show cache.heard.listens = true from rfl) reach thread quiet,
    requeue_heard]

theorem endLoader_of_heard (cache : Cache K V τ) (reach : Reach) (key : Shared K) (flight : Flight) (started : Nat)
    (source : Source) (purpose : Purpose V) (ending : LoaderEnd V) :
    cache.endLoader reach key flight started source purpose ending =
      (cache.heard.endLoader reach key flight started source purpose ending).map
        (·.requeue cache.listens cache.undelivered) id := by
  rw [← endLoader_requeue cache.listens cache.undelivered (show cache.heard.listens = true from rfl) reach key flight
    started source purpose ending, requeue_heard]

omit [DecidableEq K] [Clock τ] in
theorem passOn_of_heard (cache : Cache K V τ) (reply : Reply K V) (frame : Frame K V) :
    cache.passOn reply frame =
      (cache.heard.passOn reply frame).map (·.requeue cache.listens cache.undelivered) id := by
  rw [← passOn_requeue cache.listens cache.undelivered, requeue_heard]

omit [DecidableEq K] [Clock τ] in
theorem undelivered_passOn (cache : Cache K V τ) (reply : Reply K V) (frame : Frame K V) :
    (cache.passOn reply frame).1.undelivered = cache.undelivered := by
  unfold passOn
  repeat' split
  all_goals rfl

omit [DecidableEq K] [Clock τ] in
theorem notifies_of_isWork {thread : ThreadId} {arguments : List ObjectId} {frame : Frame K V} {rest : List (Frame K V)}
    {outer : List (Call K V)} (here : cache.callsOf thread = ⟨arguments, frame :: rest⟩ :: outer)
    (busy : frame.isWork = true) : cache.notifies (.proceed thread) = [] := by
  simp only [notifies]
  split
  · rename_i found
    cases here.symm.trans found
    cases busy
  · rfl

theorem reports_step (cache : Cache K V τ) (listens : cache.listens = true) (held : Reach) (event : Event K V τ) :
    cache.undelivered ++ cache.reports held event = cache.notifies event ++ (cache.step held event).1.undelivered := by
  have happens := cache.step_happens held event
  generalize cache.step held event = result at happens ⊢
  cases happens with
  | entered | timed | contended | closed | heard | notListening => simp [reports, notifies, Cache.setCalls]
  | idle here | ended here => simp [reports, notifies, here, Cache.setCalls]
  | returned here | passed here | unwound here | loading here | listening here =>
      simp [reports, notifies, here, work, heard, Cache.setCalls, undelivered_passOn]
  | blocked here =>
      simp only [reports, notifies, here, List.nil_append, work]
      repeat' split
      all_goals exact List.append_nil _
  | worked here busy =>
      rw [notifies_of_isWork here busy, cache.work_of_heard _ _ (Frame.quiet_of_isWork busy)]
      simp [reports, here, requeue, listens, Cache.setCalls]
  | begun here | skipped here =>
      simp only [reports, notifies, here, work]
      split <;> simp [heard, Cache.setCalls]
  | told here waiting | allTold here waiting => simp [reports, notifies, here, work, heard, Cache.setCalls, waiting]
  | loaded here ending =>
      rw [cache.endLoader_of_heard]
      simp [reports, notifies, here, requeue, listens, Cache.setCalls]
  | notLoading => simp [reports, notifies]

theorem accepts_of_calls {thread : ThreadId} {arguments : List ObjectId} {frame : Frame K V} {rest : List (Frame K V)}
    {outer : List (Call K V)} (here : cache.callsOf thread = ⟨arguments, frame :: rest⟩ :: outer) (held : Reach) :
    cache.accepts held (.proceed thread) = cache.acceptedBy (cache.reach held) frame := by
  simp only [accepts, here]
  cases frame <;> rfl

theorem acceptedBy_heard (cache : Cache K V τ) (reach : Reach) (frame : Frame K V) :
    cache.heard.acceptedBy reach frame = cache.acceptedBy reach frame := by
  cases frame with
  | start request =>
      cases request with
      | insertIfNew key value =>
          have same := put_requeue cache.listens cache.undelivered (show cache.heard.listens = true from rfl) reach key
            value true
          rw [requeue_heard] at same
          simp only [acceptedBy, storedBy, same]
          rfl
      | _ => rfl
  | _ => rfl

omit [DecidableEq K] [Clock τ] in
theorem Orderly.heard (orderly : cache.Orderly) : cache.heard.Orderly :=
  ⟨orderly.shards, orderly.chosen, orderly.reloads⟩

omit [DecidableEq K] [Clock τ] in
theorem pairs_setCalls_requeue (heeds : Bool) (earlier : List (Removal K V)) (cache : Cache K V τ) (thread : ThreadId)
    (calls : List (Call K V)) : ((cache.requeue heeds earlier).setCalls thread calls).pairs = cache.pairs :=
  rfl

theorem Orderly.balance (orderly : cache.Orderly) {accepted : List (K × Shared V)}
    {result : Cache K V τ × List (Frame K V)} (works : Works cache.heard accepted result) :
    (result.1.pairs + result.1.undelivered.map Removal.pair : Multiset (K × Shared V)) = cache.pairs + accepted := by
  have balance := works.moves.accounts orderly.heard rfl
  have before : cache.heard.accounts = ↑cache.pairs := orderly.heard.accounts_eq.trans (by simp [Cache.heard, pairs])
  rwa [(works.moves.orderly orderly.heard).accounts_eq, before, ← Multiset.coe_add] at balance

theorem Composed.balance (composed : cache.Composed) (held : Reach) (event : Event K V τ) :
    ((cache.step held event).1.pairs + (cache.reports held event).map Removal.pair : Multiset (K × Shared V)) =
      cache.pairs + cache.accepts held event := by
  have happens := cache.step_happens held event
  have orderly := composed.orderly
  generalize cache.step held event = result at happens ⊢
  cases happens with
  | entered | timed | contended | closed | heard | notListening => rfl
  | idle here | ended here => simp [reports, accepts, here, pairs, Cache.setCalls]
  | returned here | unwound here | loading here | listening here =>
      simp [reports, accepts, here, pairs, Cache.setCalls, work, heard]
  | blocked here =>
      rw [reports_of_calls here, accepts_of_calls here, work_await_fst]
      rfl
  | @passed thread arguments reply frame rest outer here =>
      have balance := orderly.balance (cache.heard.passOn_works reply frame)
      rw [undelivered_passOn] at balance
      rw [reports_of_calls here, accepts_of_calls here, cache.passOn_of_heard, Prod.map_fst, pairs_setCalls_requeue]
      exact balance
  | @worked thread arguments frame rest outer here busy =>
      have quiet := Frame.quiet_of_isWork busy
      have fits := (composed.arranged thread _ (here ▸ List.mem_cons_self)).fits quiet frame List.mem_cons_self
      have balance := orderly.balance (work_works orderly.heard (cache.reach held) thread fits)
      rw [acceptedBy_heard] at balance
      rw [reports_of_calls here, accepts_of_calls here, cache.work_of_heard _ _ quiet, Prod.map_fst,
        pairs_setCalls_requeue]
      exact balance
  | begun here | skipped here | told here | allTold here =>
      rw [reports_of_delivers here rfl, accepts_of_calls here]
      rfl
  | @loaded thread arguments key flight started source purpose rest outer here ending =>
      have fits := (composed.arranged thread _ (here ▸ List.mem_cons_self)).fits rfl _ List.mem_cons_self
      have balance := orderly.balance
        (endLoader_works orderly.heard (cache.reach held) (fits.2 _ rfl) started source purpose ending)
      rw [reports_of_loading here, cache.endLoader_of_heard, Prod.map_fst, pairs_setCalls_requeue]
      cases ending <;> simpa only [accepts, here] using balance
  | @notLoading thread ending elsewhere =>
      have nothing : cache.accepts held (.loaderEnded thread ending) = [] := by
        simp only [accepts]
        split
        · rename_i here
          exact absurd here (elsewhere _ _ _ _ _ _ _ _)
        · rfl
      rw [nothing]
      simp [reports]

end Work

end Cache

namespace Moment

variable [DecidableEq K] [Clock τ]

def reports (moment : Moment K V τ) : List (Removal K V) :=
  moment.cache.reports moment.held moment.event

end Moment

end SegmentedCache
