import SegmentedCache.Proofs.Cache.Delivery
import SegmentedCache.Proofs.Cache.Settlement
import SegmentedCache.Proofs.Cache.Tallies

namespace SegmentedCache

/-!
Statistics. Every lookup that a request asks for is counted once, by whether it found a live value, and so is every
loader that ended. Evictions are counted as they are reported, whether anybody listens or not.
-/

variable {K V τ : Type}

def Call.Orders (call : Call K V) : Prop :=
  call.frames.Pairwise fun first later => first.delivers = true ∨ later.isOpen = false

theorem Call.Orders.closed {arguments : List ObjectId} {frame : Frame K V} {rest : List (Frame K V)}
    (orders : (⟨arguments, frame :: rest⟩ : Call K V).Orders) (quiet : frame.delivers = false) :
    rest.all (!·.isOpen) = true :=
  Cache.closed_iff.mpr fun later member =>
    ((List.pairwise_cons.mp orders).1 later member).resolve_left (by simp [quiet])

theorem Frame.not_isOpen_of_delivers {frame : Frame K V} (delivers : frame.delivers = true) : frame.isOpen = false := by
  cases frame with
  | deliver | delivering | listening => rfl
  | _ => cases delivers

namespace Cache

section Tally

variable [DecidableEq K] [Clock τ]

/-- What an event is counted as: a lookup is asked for by the request that makes one, for each further one of
several keys when the one before has its value, and by a refresh that claimed no load. -/
def tally (cache : Cache K V τ) (held : Reach) : Event K V τ → Tally
  | .call _ request => { asked := request.looksUp.toNat }
  | .proceed thread =>
      match cache.callsOf thread with
      | { frames := .give reply :: frame :: _, .. } :: _ => { asked := (frame.asksNext reply).toNat }
      | { frames := frame :: _, .. } :: _ => cache.tallyOf (cache.reach held) frame
      | _ => {}
  | .loaderEnded thread ending =>
      match cache.callsOf thread with
      | { frames := .loading .. :: _, .. } :: _ => ending.tally
      | _ => {}
  | _ => {}

end Tally

def frameCount (p : Frame K V → Bool) (cache : Cache K V τ) : Nat :=
  cache.across fun _ calls => (calls.flatMap (·.frames)).countP p

variable {cache cache' : Cache K V τ} {thread : ThreadId} {tally : Tally} {reported : List (Removal K V)}

theorem frameCount_of_idle (idle : ∀ thread, cache.callsOf thread = []) (p : Frame K V → Bool) :
    cache.frameCount p = 0 := by
  rw [frameCount, across, Finset.sum_eq_zero]
  intro thread _
  rw [idle]
  rfl

def Ordered (cache : Cache K V τ) : Prop :=
  ∀ thread, ∀ call ∈ cache.callsOf thread, call.Orders

structure Advances (tally : Tally) (reported : List (Removal K V)) (cache cache' : Cache K V τ) : Prop where
  records : cache'.recordsStats = true
  ordered : cache'.Ordered
  counted : ∃ found missed, cache.stats.Adds { tally with found, missed } (evictionsIn reported) cache'.stats ∧
    found + cache'.frameCount (·.isLateHit) = tally.found + cache.frameCount (·.isLateHit) ∧
    missed + cache'.frameCount (·.isLateMiss) = tally.missed + cache.frameCount (·.isLateMiss)
  asked : cache'.frameCount (·.isQuestion) + (tally.found + tally.missed) =
    cache.frameCount (·.isQuestion) + tally.asked

theorem Ordered.still (ordered : cache.Ordered) (records : cache'.recordsStats = true)
    (calls : cache'.calls = cache.calls) (stats : cache'.stats = cache.stats) : Advances {} [] cache cache' := by
  have callsOf (thread : ThreadId) : cache'.callsOf thread = cache.callsOf thread := by
    rw [Cache.callsOf, calls, Cache.callsOf]
  have same (p : Frame K V → Bool) : cache'.frameCount p = cache.frameCount p := by
    simp only [frameCount, across, calls, callsOf]
  refine ⟨records, fun thread => callsOf thread ▸ ordered thread, ⟨0, 0, ?_, ?_, ?_⟩, ?_⟩
  · rw [stats]
    exact .refl 0 cache.stats
  · rw [same]
  · rw [same]
  · rw [same]
    rfl

theorem Ordered.change (ordered : cache.Ordered) (tally : Tally) (cache' : Cache K V τ)
    (records : cache'.recordsStats = true) (same : cache'.calls = cache.calls) {calls : List (Call K V)}
    (orders : ∀ call ∈ calls, call ∈ cache.callsOf thread ∨ call.Orders) {found missed : Nat}
    (adds : cache.stats.Adds { tally with found, missed } (evictionsIn reported) cache'.stats)
    (hits : found + (calls.flatMap (·.frames)).countP (·.isLateHit) =
      tally.found + ((cache.callsOf thread).flatMap (·.frames)).countP (·.isLateHit))
    (misses : missed + (calls.flatMap (·.frames)).countP (·.isLateMiss) =
      tally.missed + ((cache.callsOf thread).flatMap (·.frames)).countP (·.isLateMiss))
    (asked : (calls.flatMap (·.frames)).countP (·.isQuestion) + (tally.found + tally.missed) =
      ((cache.callsOf thread).flatMap (·.frames)).countP (·.isQuestion) + tally.asked) :
    Advances tally reported cache (cache'.setCalls thread calls) := by
  have counted (p : Frame K V → Bool) : ∃ others, cache.frameCount p =
      ((cache.callsOf thread).flatMap (·.frames)).countP p + others ∧
        (cache'.setCalls thread calls).frameCount p = (calls.flatMap (·.frames)).countP p + others := by
    obtain ⟨others, before, after⟩ := across_setCalls (M := Nat)
      (f := fun _ calls => (calls.flatMap (·.frames)).countP p) (fun _ => rfl) cache thread
    exact ⟨others, before, after cache' calls same⟩
  obtain ⟨_, hits_before, hits_after⟩ := counted (·.isLateHit)
  obtain ⟨_, misses_before, misses_after⟩ := counted (·.isLateMiss)
  obtain ⟨_, asked_before, asked_after⟩ := counted (·.isQuestion)
  refine ⟨records, ?_, ⟨found, missed, adds, by omega, by omega⟩, by omega⟩
  intro other call member
  rw [callsOf_setCalls] at member
  split at member
  · exact (orders call member).elim (ordered thread call) id
  · rw [callsOf, same] at member
    exact ordered other call member

theorem Ordered.shuffle (ordered : cache.Ordered) (records : cache.recordsStats = true)
    (undelivered : List (Removal K V)) (delivering : Bool) (log : List LogEvent) {calls : List (Call K V)} {asked : Nat}
    (orders : ∀ call ∈ calls, call ∈ cache.callsOf thread ∨ call.Orders)
    (hits : (calls.flatMap (·.frames)).countP (·.isLateHit) =
      ((cache.callsOf thread).flatMap (·.frames)).countP (·.isLateHit))
    (misses : (calls.flatMap (·.frames)).countP (·.isLateMiss) =
      ((cache.callsOf thread).flatMap (·.frames)).countP (·.isLateMiss))
    (questions : (calls.flatMap (·.frames)).countP (·.isQuestion) =
      ((cache.callsOf thread).flatMap (·.frames)).countP (·.isQuestion) + asked) :
    Advances { asked } [] cache ({ cache with undelivered, delivering, log }.setCalls thread calls) := by
  have nothing : cache.stats.Adds { asked } (evictionsIn ([] : List (Removal K V))) cache.stats :=
    .refl asked cache.stats
  exact ordered.change { asked } { cache with undelivered, delivering, log } records rfl orders nothing
    (congrArg (0 + ·) hits) (congrArg (0 + ·) misses) questions

theorem Ordered.rearrange (ordered : cache.Ordered) (records : cache.recordsStats = true) {frame : Frame K V}
    {arguments : List ObjectId} {rest : List (Frame K V)} {outer : List (Call K V)}
    (here : cache.callsOf thread = ⟨arguments, frame :: rest⟩ :: outer) (delivers : frame.delivers = true)
    (new : List (Frame K V)) (deliveries : ∀ frame ∈ new, frame.delivers = true)
    (undelivered : List (Removal K V)) (delivering : Bool) (log : List LogEvent) :
    Advances {} [] cache
      ({ cache with undelivered, delivering, log }.setCalls thread (⟨arguments, new ++ rest⟩ :: outer)) := by
  have before := ordered thread _ (here ▸ List.mem_cons_self)
  have closed : new.all (!·.isOpen) = true :=
    closed_iff.mpr fun frame member => Frame.not_isOpen_of_delivers (deliveries frame member)
  obtain ⟨questions, hits, misses⟩ := countP_of_closed closed
  obtain ⟨question, hit, miss⟩ := Frame.of_not_isOpen (Frame.not_isOpen_of_delivers delivers)
  refine ordered.shuffle records undelivered delivering log ?_ ?_ ?_ ?_
  · intro call member
    rcases List.mem_cons.mp member with rfl | further
    · refine .inr (List.pairwise_append.mpr ⟨?_, List.Pairwise.of_cons before, ?_⟩)
      · exact List.pairwise_of_forall_mem_list fun _ _ later member => .inr (closed_iff.mp closed later member)
      · exact fun first member _ _ => .inl (deliveries first member)
    · exact .inl (here ▸ List.mem_cons_of_mem _ further)
  · simp [here, hits, hit]
  · simp [here, misses, miss]
  · simp [here, questions, question]

theorem Ordered.leave (ordered : cache.Ordered) (records : cache.recordsStats = true) {call : Call K V}
    {outer : List (Call K V)} (here : cache.callsOf thread = call :: outer)
    (closed : call.frames.all (!·.isOpen) = true) : Advances {} [] cache (cache.setCalls thread outer) := by
  obtain ⟨questions, hits, misses⟩ := countP_of_closed closed
  refine ordered.shuffle records cache.undelivered cache.delivering cache.log
    (fun call member => .inl (here ▸ List.mem_cons_of_mem _ member)) ?_ ?_ ?_
  · simp [here, hits]
  · simp [here, misses]
  · simp [here, questions]

theorem Ordered.works (ordered : cache.Ordered) {frame : Frame K V} {arguments : List ObjectId}
    {rest more : List (Frame K V)} {outer : List (Call K V)} {result : Cache K V τ × List (Frame K V)}
    (here : cache.callsOf thread = ⟨arguments, frame :: rest⟩ :: outer) (quiet : frame.delivers = false)
    (dropped : ∀ frame ∈ more, frame ∈ rest) (same : result.1.calls = cache.calls)
    (reckons : Reckons tally cache.heard frame result) :
    Advances tally result.1.undelivered cache
      ((result.1.requeue cache.listens cache.undelivered).setCalls thread
        (⟨arguments, result.2 ++ more⟩ :: outer)) := by
  have closed := (ordered thread _ (here ▸ List.mem_cons_self)).closed quiet
  have closed' : more.all (!·.isOpen) = true :=
    closed_iff.mpr fun frame member => closed_iff.mp closed frame (dropped frame member)
  obtain ⟨questions, hits, misses⟩ := countP_of_closed closed
  obtain ⟨questions', hits', misses'⟩ := countP_of_closed closed'
  obtain ⟨found, missed, counts, hit, miss⟩ := reckons.counted
  obtain ⟨removals, queued, adds⟩ := counts.added
  have asked := reckons.asked
  rw [show cache.heard.undelivered = [] from rfl, List.nil_append] at queued
  rw [queued]
  refine ordered.change tally (result.1.requeue cache.listens cache.undelivered) counts.attends.records same
    ?_ adds ?_ ?_ ?_
  · intro call member
    rcases List.mem_cons.mp member with rfl | further
    · refine .inr (List.pairwise_append.mpr ⟨reckons.secure, ?_, ?_⟩)
      · exact List.pairwise_of_forall_mem_list fun _ _ later member => .inr (closed_iff.mp closed' later member)
      · exact fun _ _ later member => .inr (closed_iff.mp closed' later member)
    · exact .inl (here ▸ List.mem_cons_of_mem _ further)
  · simp [here, hits, hits', List.countP_cons]
    cases one : frame.isLateHit <;> simp [one] at hit ⊢ <;> omega
  · simp [here, misses, misses', List.countP_cons]
    cases one : frame.isLateMiss <;> simp [one] at miss ⊢ <;> omega
  · simp [here, questions, questions', List.countP_cons]
    cases one : frame.isQuestion <;> simp [one] at asked ⊢ <;> omega

theorem Advances.trans {t : Cache K V τ} {tally' : Tally} {reported' : List (Removal K V)}
    (first : Advances tally reported cache t) (second : Advances tally' reported' t cache') :
    Advances (tally.plus tally') (reported ++ reported') cache cache' := by
  obtain ⟨found, missed, adds, hits, misses⟩ := first.counted
  obtain ⟨found', missed', adds', hits', misses'⟩ := second.counted
  have asked := first.asked
  have asked' := second.asked
  refine ⟨second.records, second.ordered, ⟨found + found', missed + missed', ?_, ?_, ?_⟩, ?_⟩
  · rw [evictionsIn, List.countP_append]
    exact adds.trans adds'
  all_goals
    simp only [Tally.plus]
    omega

section Steps

variable [DecidableEq K] [Clock τ] {ended : List (Ending K V)} {settled : List (Verdict V)} {held : Reach}
  {arguments : List ObjectId} {frame : Frame K V} {rest : List (Frame K V)} {outer : List (Call K V)}

theorem tally_of_ne_give (here : cache.callsOf thread = ⟨arguments, frame :: rest⟩ :: outer)
    (other : ∀ reply, frame ≠ .give reply) :
    cache.tally held (.proceed thread) = cache.tallyOf (cache.reach held) frame := by
  cases frame with
  | give reply => exact absurd rfl (other reply)
  | _ => simp only [Cache.tally, here]

theorem Ordered.quiet (ordered : cache.Ordered) (records : cache.recordsStats = true)
    (here : cache.callsOf thread = ⟨arguments, frame :: rest⟩ :: outer) (delivers : frame.delivers = true)
    (new : List (Frame K V)) (deliveries : ∀ frame ∈ new, frame.delivers = true)
    (undelivered : List (Removal K V)) (delivering : Bool) (log : List LogEvent) :
    Advances (cache.tally held (.proceed thread)) (cache.reports held (.proceed thread)) cache
      ({ cache with undelivered, delivering, log }.setCalls thread (⟨arguments, new ++ rest⟩ :: outer)) := by
  have nothing : cache.tally held (.proceed thread) = {} := by
    cases frame with
    | deliver | delivering | listening => exact tally_of_ne_give here nofun
    | _ => cases delivers
  rw [nothing, reports_of_delivers here delivers]
  exact ordered.rearrange records here delivers new deliveries undelivered delivering log

theorem Ordered.step (ordered : cache.Ordered) (records : cache.recordsStats = true) (composed : cache.Composed)
    (supervised : cache.Supervised ended settled) (held : Reach) (event : Event K V τ) :
    Advances (cache.tally held event) (cache.reports held event) cache (cache.step held event).1 := by
  have happens := cache.step_happens held event
  -- Statistics do not depend on the listener, so the counting is done in the cache with one that was told of
  -- everything.
  have attends : cache.heard.Attends := ⟨rfl, records⟩
  have tended := supervised.tended_spared held
  have honoured := cache.policy.honours_spared (cache.reach held)
  generalize cache.step held event = result at happens ⊢
  cases happens with
  | entered thread request =>
      refine ordered.shuffle records cache.undelivered cache.delivering cache.log ?_ ?_ ?_ ?_
      · intro call member
        rcases List.mem_cons.mp member with rfl | earlier
        · exact .inr (List.pairwise_singleton ..)
        · exact .inl earlier
      · simp [Frame.isLateHit]
      · simp [Frame.isLateMiss]
      · cases looksUp : request.looksUp <;> simp [Frame.isQuestion, looksUp, Nat.add_comm]
  | timed | contended | closed => exact ordered.still records rfl rfl
  | idle here => simpa [Cache.tally, reports, here] using ordered.still records rfl rfl
  | ended here | returned here =>
      simpa [Cache.tally, reports, tallyOf, work, heard, here] using ordered.leave records here rfl
  | unwound here =>
      have closed := (ordered _ _ (here ▸ List.mem_cons_self)).closed rfl
      rw [reports_of_calls here, tally_of_ne_give here (by rintro reply ⟨⟩)]
      exact ordered.leave records here closed
  | loading here | listening here =>
      simpa [Cache.tally, reports, tallyOf, work, heard, here] using ordered.still records rfl rfl
  | blocked here =>
      rw [reports_of_calls here, tally_of_ne_give here (by rintro reply ⟨⟩), work_await_fst]
      exact ordered.still records rfl rfl
  | @passed thread arguments reply frame rest outer here =>
      have reckons := passOn_reckons attends reply frame
      have same := (cache.heard.passOn_works reply frame).moves.steady.calls
      have works := ordered.works here rfl (fun _ => List.mem_cons_of_mem _) same reckons
      rw [undelivered_passOn] at works
      have counted : cache.tally held (.proceed thread) = { asked := (frame.asksNext reply).toNat } := by
        simp only [Cache.tally, here]
      rw [cache.passOn_of_heard, reports_of_calls here, counted]
      exact works
  | @worked thread arguments frame rest outer here busy =>
      have quiet := Frame.quiet_of_isWork busy
      have reckons : Reckons (cache.heard.tallyOf (cache.reach held) frame) cache.heard frame _ :=
        work_reckons attends tended composed.orderly.chosen thread busy
      have fits := (composed.arranged thread _ (here ▸ List.mem_cons_self)).fits quiet frame List.mem_cons_self
      have same := (work_works composed.orderly (cache.reach held) thread fits).moves.steady.calls
      rw [cache.work_of_heard _ _ quiet, reports_of_calls here, tally_of_ne_give here (by rintro reply rfl; cases busy)]
      rw [cache.work_of_heard _ _ quiet] at same
      exact ordered.works here quiet (fun _ => id) same reckons
  | begun here _ =>
      exact ordered.quiet records here rfl [.delivering] (by simp [Frame.delivers]) cache.undelivered true cache.log
  | skipped here _ =>
      exact ordered.quiet records here rfl [] (List.forall_mem_nil _) cache.undelivered cache.delivering cache.log
  | @told thread arguments rest outer removal later here _ =>
      exact ordered.quiet records here rfl [.listening removal, .delivering] (by simp [Frame.delivers]) later
        cache.delivering cache.log
  | allTold here _ => exact ordered.quiet records here rfl [] (List.forall_mem_nil _) cache.undelivered false cache.log
  | @loaded thread arguments key flight started source purpose rest outer here ending =>
      have tallies := endLoader_tallies attends (cache.reach held) key flight started source purpose ending
      have fits := (composed.arranged thread _ (here ▸ List.mem_cons_self)).fits rfl _ List.mem_cons_self
      have same := (endLoader_works composed.orderly (cache.reach held) (fits.2 _ rfl) started source purpose
        ending).moves.steady.calls
      have reckons : Reckons ending.tally cache.heard (.loading key flight started source purpose) _ :=
        tallies.reckons rfl rfl ending.tally_asks
      have works := ordered.works here rfl (fun _ => id) (by rwa [cache.endLoader_of_heard] at same) reckons
      have counted : cache.tally held (.loaderEnded thread ending) = ending.tally := by simp only [Cache.tally, here]
      rw [cache.endLoader_of_heard, counted, reports_of_loading here]
      exact works
  | notLoading => simpa only [Cache.tally, reports] using ordered.still records rfl rfl
  | heard here ending log =>
      exact ordered.rearrange records here rfl [] (List.forall_mem_nil _) cache.undelivered cache.delivering log
  | notListening => exact ordered.still records rfl rfl

end Steps

end Cache

def Moment.tally [DecidableEq K] [Clock τ] (moment : Moment K V τ) : Tally :=
  moment.cache.tally moment.held moment.event

def tallies [DecidableEq K] [Clock τ] (past : List (Moment K V τ)) : Tally where
  asked := (past.map (·.tally.asked)).sum
  found := (past.map (·.tally.found)).sum
  missed := (past.map (·.tally.missed)).sum
  loaded := (past.map (·.tally.loaded)).sum
  failed := (past.map (·.tally.failed)).sum

namespace Cache

section Runs

variable [DecidableEq K] [Clock τ] {cache : Cache K V τ} {config : Config K V} {hash : K → UInt64} {clock : τ}
  {past : List (Moment K V τ)}

theorem tallies_concat (past : List (Moment K V τ)) (moment : Moment K V τ) :
    tallies (past ++ [moment]) = (tallies past).plus moment.tally := by
  simp [tallies, Tally.plus]

structure Statistics (config : Config K V) (past : List (Moment K V τ)) (cache : Cache K V τ) : Prop where
  /-- A hit is counted for each lookup that found a live value, if only when it claimed a load. -/
  hits : cache.stats.hits + .ofNat (cache.frameCount (·.isLateHit)) = .ofNat (tallies past).found
  misses : cache.stats.misses + .ofNat (cache.frameCount (·.isLateMiss)) = .ofNat (tallies past).missed
  lookups : (tallies past).asked = (tallies past).found + (tallies past).missed + cache.frameCount (·.isQuestion)
  balance : (∀ thread, cache.callsOf thread = []) →
    cache.stats.hits = .ofNat (tallies past).found ∧ cache.stats.misses = .ofNat (tallies past).missed ∧
      cache.stats.hits + cache.stats.misses = .ofNat (tallies past).asked
  loads : cache.stats.loadSuccesses = .ofNat (tallies past).loaded
  failures : cache.stats.loadFailures = .ofNat (tallies past).failed
  evictions : cache.stats.evictions = .ofNat (evictionsIn (past.flatMap Moment.reports))
  told : config.listens = true → past.flatMap Moment.reports = past.flatMap Moment.notifies ++ cache.undelivered

omit [DecidableEq K] [Clock τ] in
theorem callsOf_create (config : Config K V) (hash : K → UInt64) (clock : τ) (thread : ThreadId) :
    (create config hash clock).callsOf thread = [] :=
  rfl

theorem History.advances (history : History config hash clock past cache)
    (proper : ∀ moment ∈ past, moment.IsProper) (records : config.recordsStats = true) :
    Advances (tallies past) (past.flatMap Moment.reports) (Cache.create config hash clock) cache := by
  induction history with
  | create =>
      have ordered : (Cache.create config hash clock).Ordered := fun thread call member => by
        rw [callsOf_create] at member
        cases member
      exact ordered.still records rfl rfl
  | @step past cache history held event ih =>
      have proper' : ∀ moment ∈ past, moment.IsProper :=
        fun moment member => proper moment (List.mem_append_left _ member)
      have earlier := ih proper'
      have step := earlier.ordered.step earlier.records history.recorded.composed
        (history.supervised proper') held event
      rw [tallies_concat, List.flatMap_append, List.flatMap_singleton]
      exact earlier.trans step

theorem statistics_of_history (history : History config hash clock past cache)
    (proper : ∀ moment ∈ past, moment.IsProper) (records : config.recordsStats = true) :
    Statistics config past cache := by
  have advances := history.advances proper records
  obtain ⟨found, missed, adds, hits, misses⟩ := advances.counted
  have asked := advances.asked
  have nothing (p : Frame K V → Bool) : (create config hash clock).frameCount p = 0 :=
    frameCount_of_idle (callsOf_create config hash clock) p
  rw [nothing, Nat.add_zero] at hits misses
  rw [nothing, Nat.zero_add] at asked
  have counted_hits : cache.stats.hits = .ofNat found := adds.hits.trans (UInt64.zero_add _)
  have counted_misses : cache.stats.misses = .ofNat missed := adds.misses.trans (UInt64.zero_add _)
  refine ⟨?_, ?_, by omega, ?_, adds.loads.trans (UInt64.zero_add _), adds.failures.trans (UInt64.zero_add _),
    adds.evictions.trans (UInt64.zero_add _), history.reported⟩
  · rw [counted_hits, ← UInt64.ofNat_add, hits]
  · rw [counted_misses, ← UInt64.ofNat_add, misses]
  · intro idle
    rw [frameCount_of_idle idle, Nat.add_zero] at hits misses
    rw [frameCount_of_idle idle, Nat.zero_add] at asked
    rw [counted_hits, counted_misses, hits, misses, ← UInt64.ofNat_add, asked]
    exact ⟨rfl, rfl, rfl⟩

theorem statistics_after_evicting :
    let moves (steps : Nat) : List (Event Nat Nat ManualClock) := .replicate steps (.proceed 0)
    let events := .call 0 (.get ⟨0, 7⟩) :: moves 5 ++ .loaderEnded 0 (.panicked "") :: moves 3 ++
      .call 0 (.get ⟨1, 7⟩) :: moves 5 ++ .loaderEnded 0 (.value ⟨2, 70⟩) :: moves 5 ++
      .call 0 (.lookup 7) :: moves 2 ++ .call 0 (.insert ⟨3, 8⟩ ⟨4, 80⟩) :: moves 3
    let config : Config Nat Nat :=
      { initialCapacity := 1, concurrencyLevel := 1, maximum := some 1, recordsStats := true }
    let run := (create config (fun _ => 3) {}).run (fun _ => true) events
    (run.2.stats.hits, run.2.stats.misses, run.2.stats.loadSuccesses, run.2.stats.loadFailures, run.2.stats.evictions) =
        (1, 2, 1, 1, 1) ∧
      (run.2.callsOf 0).isEmpty ∧ Statistics config run.1 run.2 := by
  intro moves events config run
  have history : History config (fun _ => 3) {} run.1 run.2 := History.create.run (fun _ => true) events
  exact ⟨by decide +kernel, by decide +kernel,
    statistics_of_history history (proper_of_run (by simp [events, moves])) rfl⟩

end Runs

end Cache
end SegmentedCache
