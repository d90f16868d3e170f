import SegmentedCache.Proofs.Cache.Causes
import SegmentedCache.Proofs.Cache.Recency
import SegmentedCache.Proofs.Segment.Freshness

namespace SegmentedCache

/-!
The operation of a step that removes entries. There is at most one such, and it is the last that the step does to a
segment: what is left there, and what the step reports, is up to it alone.
-/

variable {K V τ : Type}

/-- An operation on one of the segments, on what it meets there. -/
structure Deed (K V : Type) where
  index : Nat
  reach : Reach
  now : Nat
  op : Operation K V
  before : Segment K V

def Deed.after [DecidableEq K] (hash : K → UInt64) (deed : Deed K V) : Segment K V :=
  deed.op.run hash deed.reach deed.now deed.before

theorem Segment.removals_claimRefresh [DecidableEq K] (s : Segment K V) (reach : Reach) (now : Nat) (thread : ThreadId)
    (key : Shared K) (hash : UInt64) (force : Bool) :
    (s.claimRefresh reach now thread key hash force).2.removals = s.removals := by
  have renewing := s.renewing reach now thread key hash force
  generalize s.claimRefresh reach now thread key hash force = result at renewing ⊢
  cases renewing <;> rfl

namespace Cache

section Deeds

variable [Clock τ]

def deedAt (cache : Cache K V τ) (index : Nat) (reach : Reach) (now : Nat) (op : Operation K V) : Option (Deed K V) :=
  cache.shards[index]?.map fun shard => ⟨index, reach, now, op, shard.segment⟩

def tidying? (cache : Cache K V τ) (index : Nat) (reach : Reach) : Option (Deed K V) :=
  if cache.isDue index && !cache.contended then cache.deedAt index reach cache.readClock.1 .cleanUp else none

def loadedDeed? (cache : Cache K V τ) (reach : Reach) (key : Shared K) (flight : Flight) (loaded : Option (Shared V)) :
    Option (Deed K V) :=
  cache.deedAt flight.segment (fun object => reach object || loaded.any (·.id = object)) cache.readClock.1
    (.finishLoad key flight.load loaded)

def endingDeed? (cache : Cache K V τ) (reach : Reach) (key : Shared K) (flight : Flight) :
    LoaderEnd V → Option (Deed K V)
  | .value value => cache.loadedDeed? reach key flight (some value)
  | .nothing | .failed _ => cache.loadedDeed? reach key flight none
  | .panicked _ =>
      cache.deedAt flight.segment reach cache.readClock.2.readClock.1 (.finishLoad key flight.load none)

variable [DecidableEq K]

def startDeed? (cache : Cache K V τ) (reach : Reach) : Request K V → Option (Deed K V)
  | .lookup key => (cache.looked reach key).tidying? (cache.segmentOf key) reach
  | .insert key value =>
      cache.deedAt (cache.segmentOf key.data) reach cache.readClock.1 (.insert key value false)
  | .insertIfNew key value =>
      cache.deedAt (cache.segmentOf key.data) reach cache.readClock.1 (.insert key value true)
  | .remove key => cache.deedAt (cache.segmentOf key) reach cache.readClock.1 (.remove key)
  | _ => none

def workDeed? (cache : Cache K V τ) (reach : Reach) (thread : ThreadId) : Frame K V → Option (Deed K V)
  | .start request => cache.startDeed? reach request
  | .claim key _ now => cache.deedAt (cache.segmentOf key.data) reach now (.claim thread key)
  | .found key _ _ _ => cache.tidying? (cache.segmentOf key.data) reach
  | .cancel key flight =>
      cache.deedAt flight.segment reach cache.readClock.1 (.finishLoad key flight.load none)
  | .removing (key :: _) => cache.deedAt (cache.segmentOf key) reach cache.readClock.1 (.remove key)
  | .clearing index => cache.deedAt index reach 0 .clear
  | .sweeping index => cache.deedAt index reach cache.readClock.1 .cleanUp
  | .releasing index => cache.deedAt index reach 0 .releaseSoft
  | _ => none

/-- The operation of a step that may remove entries of a segment, if there is one. -/
def deed? (cache : Cache K V τ) (held : Reach) : Event K V τ → Option (Deed K V)
  | .proceed thread =>
      match cache.callsOf thread with
      | { frames := frame :: _, .. } :: _ => cache.workDeed? (cache.reach held) thread frame
      | _ => none
  | .loaderEnded thread ending =>
      match cache.callsOf thread with
      | { frames := .loading key flight _ _ _ :: _, .. } :: _ =>
          cache.endingDeed? (cache.reach held) key flight ending
      | _ => none
  | _ => none

end Deeds

/-- The second cache comes from the first by a deed, or by what reports nothing. -/
def Does [DecidableEq K] (cache cache' : Cache K V τ) : Option (Deed K V) → Prop
  | none => cache'.undelivered = cache.undelivered
  | some deed =>
      (∃ shard, cache'.shards[deed.index]? = some shard ∧
        shard.segment = { deed.after cache.hash with removals := [], growths := [] }) ∧
      cache'.undelivered =
        if cache.listens then cache.undelivered ++ (deed.after cache.hash).removals else cache.undelivered

section Does

variable [DecidableEq K] [Clock τ] {cache t cache' : Cache K V τ} {deed? : Option (Deed K V)} {reach : Reach}

omit [Clock τ] in
theorem Does.after (does : Does t cache' deed?) (steady : Steady cache t) (same : t.undelivered = cache.undelivered) :
    Does cache cache' deed? := by
  cases deed? with
  | none => exact Eq.trans does same
  | some deed =>
      obtain ⟨left, told⟩ := does
      rw [steady.hash] at left told
      rw [steady.listens, same] at told
      exact ⟨left, told⟩

omit [Clock τ] in
theorem Does.before (does : Does cache t deed?) (shards : cache'.shards = t.shards)
    (same : cache'.undelivered = t.undelivered) : Does cache cache' deed? := by
  cases deed? with
  | none => exact same.trans does
  | some deed => exact ⟨shards ▸ does.1, same.trans does.2⟩

omit [Clock τ] in
theorem changeSegment_does (cache : Cache K V τ) (index : Nat) (reach : Reach) (now : Nat) (op : Operation K V) :
    Does cache (cache.changeSegment index (op.run cache.hash reach now)) (cache.deedAt index reach now op) := by
  cases found : cache.shards[index]? with
  | none =>
      rw [changeSegment_of_none found, deedAt, found]
      exact rfl
  | some shard =>
      obtain ⟨_, _, changed⟩ := changeSegment_eq found (op.run cache.hash reach now)
      rw [deedAt, found]
      exact ⟨getElem?_changeSegment found _, by rw [changed]; rfl⟩

theorem countRead_does (cache : Cache K V τ) (reach : Reach) (index : Nat) :
    Does cache (cache.countRead reach index).1 (cache.tidying? index reach) := by
  have noted := changeSegment_does (cache.readNoted index).readClock.2 index reach cache.readClock.1 .cleanUp
  have counting := cache.counting reach index
  generalize cache.countRead reach index = result at counting ⊢
  unfold tidying?
  cases counting with
  | due free due =>
      have same : (cache.readNoted index).readClock.2.deedAt index reach cache.readClock.1 .cleanUp =
          cache.deedAt index reach cache.readClock.1 .cleanUp := by
        simp only [deedAt, Cache.readClock, readNoted, Array.getElem?_modify, ↓reduceIte, Option.map_map]
        rfl
      rw [due, free, ← same]
      exact noted.after ⟨rfl, rfl, rfl, rfl, rfl, rfl, rfl, Array.size_modify⟩ rfl
  | busy taken =>
      rw [taken, Bool.not_true, Bool.and_false]
      exact rfl
  | waiting waiting =>
      rw [waiting, Bool.false_and]
      exact rfl

theorem looked_steady (cache : Cache K V τ) (reach : Reach) (key : K) : Steady cache (cache.looked reach key) :=
  (cache.read_moves reach key).steady

theorem lookup_does (orderly : cache.Orderly) (reach : Reach) (key : K) :
    Does cache (cache.lookup reach key).1 ((cache.looked reach key).tidying? (cache.segmentOf key) reach) := by
  have counted (f : Stats → Stats) :
      Does cache (((cache.looked reach key).count f).countRead reach (cache.segmentOf key)).1
        ((cache.looked reach key).tidying? (cache.segmentOf key) reach) := by
    have does := countRead_does ((cache.looked reach key).count f) reach (cache.segmentOf key)
    have steady : Steady cache ((cache.looked reach key).count f) :=
      ((cache.read_moves reach key).trans (.count (.done _))).steady
    have tidying : ((cache.looked reach key).count f).tidying? (cache.segmentOf key) reach =
        (cache.looked reach key).tidying? (cache.segmentOf key) reach := by
      obtain ⟨stats, counted⟩ := (cache.looked reach key).count_eq f
      rw [counted]
      rfl
    rw [tidying] at does
    exact does.after steady ((count_undelivered _ f).trans (orderly.read_undelivered reach key))
  have looking := cache.looking reach key
  generalize cache.lookup reach key = result at looking ⊢
  cases looking with
  | served | missed => exact counted _

theorem find_does (orderly : cache.Orderly) (reach : Reach) (key : Shared K) (source : Source) :
    Does cache (cache.find reach key source).1 none := by
  have same := orderly.read_undelivered reach key.data
  have silent (f : Stats → Stats) : Does cache ((cache.looked reach key.data).count f) none :=
    (count_undelivered _ f).trans same
  have seeking := cache.seeking reach key source
  generalize cache.find reach key source = result at seeking ⊢
  cases seeking with
  | served | overdue | joined => exact silent _
  | missed => exact same

omit [Clock τ] in
theorem claim_does (cache : Cache K V τ) (reach : Reach) (thread : ThreadId) (key : Shared K) (source : Source)
    (now : Nat) : Does cache (cache.claim reach thread key source now).1
      (cache.deedAt (cache.segmentOf key.data) reach now (.claim thread key)) := by
  rw [claim_eq]
  exact changeSegment_does cache (cache.segmentOf key.data) reach now (.claim thread key)

omit [Clock τ] in
theorem renew_does (orderly : cache.Orderly) (reach : Reach) (thread : ThreadId) (key : Shared K) (source : Source)
    (now : Nat) (value : Shared V) : Does cache (cache.renew reach thread key source now value).1 none := by
  rw [renew_eq]
  exact orderly.changeSegment_undelivered _ fun s => s.removals_claimRefresh ..

theorem put_does (cache : Cache K V τ) (reach : Reach) (key : Shared K) (value : Shared V) (onlyIfNew : Bool) :
    Does cache (cache.put reach key value onlyIfNew).1
      (cache.deedAt (cache.segmentOf key.data) reach cache.readClock.1 (.insert key value onlyIfNew)) := by
  have does := changeSegment_does cache.readClock.2 (cache.segmentOf key.data) reach cache.readClock.1
    (.insert key value onlyIfNew)
  rw [put_fst]
  exact does.after ⟨rfl, rfl, rfl, rfl, rfl, rfl, rfl, rfl⟩ rfl

theorem remove_does (cache : Cache K V τ) (reach : Reach) (key : K) :
    Does cache (cache.remove reach key).2
      (cache.deedAt (cache.segmentOf key) reach cache.readClock.1 (.remove key)) := by
  have does := changeSegment_does cache.readClock.2 (cache.segmentOf key) reach cache.readClock.1 (.remove key)
  rw [remove_snd]
  exact does.after ⟨rfl, rfl, rfl, rfl, rfl, rfl, rfl, rfl⟩ rfl

theorem giveUp_does (cache : Cache K V τ) (reach : Reach) (key : Shared K) (flight : Flight) :
    Does cache (cache.giveUp reach key flight).1
      (cache.deedAt flight.segment reach cache.readClock.1 (.finishLoad key flight.load none)) :=
  (changeSegment_does cache.readClock.2 flight.segment reach cache.readClock.1
    (.finishLoad key flight.load none)).after ⟨rfl, rfl, rfl, rfl, rfl, rfl, rfl, rfl⟩ rfl

theorem endLoader_does (cache : Cache K V τ) (reach : Reach) (key : Shared K) (flight : Flight) (started : Nat)
    (source : Source) (purpose : Purpose V) (ending : LoaderEnd V) :
    Does cache (cache.endLoader reach key flight started source purpose ending).1
      (cache.endingDeed? reach key flight ending) := by
  have finished (f : Stats → Stats) (loaded : Option (Shared V)) :
      Does cache
        ((cache.readClock.2.count f).finishLoad (fun object => reach object || loaded.any (·.id = object))
          cache.readClock.1 key flight loaded)
        (cache.loadedDeed? reach key flight loaded) := by
    obtain ⟨stats, counted⟩ := cache.readClock.2.count_eq f
    rw [counted]
    exact (changeSegment_does { cache.readClock.2 with stats } flight.segment _ cache.readClock.1
      (.finishLoad key flight.load loaded)).after ⟨rfl, rfl, rfl, rfl, rfl, rfl, rfl, rfl⟩ rfl
  cases ending with
  | value value => exact finished (·.countLoad (cache.readClock.1 - started)) (some value)
  | nothing | failed => exact finished (·.countLoadFailure (cache.readClock.1 - started)) none
  | panicked message =>
      obtain ⟨stats, counted⟩ := cache.readClock.2.count_eq (·.countLoadFailure (cache.readClock.1 - started))
      have does := giveUp_does { cache.readClock.2 with stats } reach key flight
      unfold endLoader endingDeed?
      dsimp only
      rw [counted]
      exact does.after ⟨rfl, rfl, rfl, rfl, rfl, rfl, rfl, rfl⟩ rfl

theorem startRequest_does (orderly : cache.Orderly) (reach : Reach) (thread : ThreadId) (request : Request K V) :
    Does cache (cache.startRequest reach thread request).1 (cache.startDeed? reach request) := by
  cases request with
  | lookup key => exact lookup_does orderly reach key
  | insert key value => exact put_does cache reach key value false
  | insertIfNew key value => exact put_does cache reach key value true
  | remove key => exact remove_does cache reach key
  | refresh key =>
      dsimp only [startRequest, startDeed?]
      rw [onSegment_snd]
      exact orderly.readClock.changeSegment_undelivered _ fun s => s.removals_claimRefresh ..
  | loadAll keys => cases keys <;> exact rfl
  | runReload | dropReload =>
      dsimp only [startRequest, startDeed?, nextReload?]
      split
      · exact rfl
      · rename_i next
        split at next
        · cases next
          exact rfl
        · cases next
  | get | load | removeAll | clear | cleanUp | releaseSoft | contains | entries => exact rfl

theorem work_does (orderly : cache.Orderly) (reach : Reach) (thread : ThreadId) {frame : Frame K V}
    (quiet : frame.delivers = false) :
    Does cache (cache.work reach thread frame).1 (cache.workDeed? reach thread frame) := by
  have beyond {index : Nat} (outside : ¬ index < cache.shards.size) (now : Nat) (op : Operation K V) :
      cache.deedAt index reach now op = none := by
    rw [deedAt, Array.getElem?_eq_none (Nat.not_lt.mp outside), Option.map_none]
  cases frame with
  | deliver | delivering | listening => cases quiet
  | start request => exact startRequest_does orderly reach thread request
  | find key source => exact find_does orderly reach key source
  | claim key source now => exact claim_does cache reach thread key source now
  | renew key source now value => exact renew_does orderly reach thread key source now value
  | found key source value renewal => exact countRead_does cache reach (cache.segmentOf key.data)
  | answer key source value renewal =>
      rcases renewal with _ | ⟨flight, old⟩
      · exact rfl
      · cases source with
        | given => exact rfl
        | bound =>
            dsimp only [work, answer, reload]
            split <;> exact rfl
  | claimed key source segment claim =>
      cases claim with
      | granted | needless | taken => exact count_undelivered ..
  | await key flight =>
      rw [work_await_fst]
      exact rfl
  | conclude source purpose outcome => cases purpose <;> cases outcome <;> exact rfl
  | cancel key flight => exact giveUp_does cache reach key flight
  | renewed key renewal => cases renewal <;> exact rfl
  | removing keys =>
      cases keys with
      | nil => exact rfl
      | cons key rest => exact remove_does cache reach key
  | clearing index =>
      dsimp only [work, workDeed?]
      split
      · exact changeSegment_does cache index reach 0 .clear
      · rename_i outside
        rw [beyond outside]
        exact rfl
  | sweeping index =>
      dsimp only [work, workDeed?]
      split
      · exact (changeSegment_does cache.readClock.2 index reach cache.readClock.1 .cleanUp).after
          ⟨rfl, rfl, rfl, rfl, rfl, rfl, rfl, rfl⟩ rfl
      · rename_i outside
        rw [beyond outside]
        exact rfl
  | releasing index =>
      dsimp only [work, workDeed?]
      split
      · exact changeSegment_does cache index reach 0 .releaseSoft
      · rename_i outside
        rw [beyond outside]
        exact rfl
  | settle | renewing | fetching | loading | holding | unwind | give | gather => exact rfl

def Done (hash : K → UInt64) (next : Cache K V τ) (reports : List (Removal K V)) : Option (Deed K V) → Prop
  | none => reports = []
  | some deed =>
      (∃ shard, next.shards[deed.index]? = some shard ∧
        shard.segment = { deed.after hash with removals := [], growths := [] }) ∧
      reports = (deed.after hash).removals

omit [Clock τ] in
theorem Does.done (does : Does cache.heard t deed?) (shards : cache'.shards = t.shards) :
    Done cache.hash cache' t.undelivered deed? := by
  cases deed? with
  | none => exact does
  | some deed => exact ⟨shards ▸ does.1, does.2⟩

theorem looked_of_heard (cache : Cache K V τ) (reach : Reach) (key : K) :
    cache.looked reach key = (cache.heard.looked reach key).requeue cache.listens cache.undelivered := by
  have heard : cache.readClock.2 = cache.heard.readClock.2.requeue cache.listens cache.undelivered := by
    simp [Cache.readClock, requeue, Cache.heard]
  rw [looked, heard]
  exact changeSegment_requeue cache.listens cache.undelivered rfl _ _

theorem workDeed?_heard (cache : Cache K V τ) (reach : Reach) (thread : ThreadId) (frame : Frame K V) :
    cache.heard.workDeed? reach thread frame = cache.workDeed? reach thread frame := by
  cases frame with
  | start request =>
      cases request with
      | lookup key =>
          simp only [workDeed?, startDeed?, cache.looked_of_heard]
          rfl
      | _ => rfl
  | removing keys => cases keys <;> rfl
  | _ => rfl

theorem Composed.step_done (composed : cache.Composed) (held : Reach) (event : Event K V τ) :
    Done cache.hash (cache.step held event).1 (cache.reports held event) (cache.deed? held event) := by
  have happens := cache.step_happens held event
  have orderly := composed.orderly
  generalize cache.step held event = result at happens ⊢
  cases happens with
  | entered | timed | contended | closed | heard | notListening => exact rfl
  | idle here => simp [Done, deed?, reports, here]
  | ended here => simp [Done, deed?, reports, here]
  | returned here | passed here | unwound here | loading here | listening here =>
      rw [reports_of_calls here]
      simp only [deed?, here, workDeed?]
      exact rfl
  | blocked here =>
      rw [reports_of_calls here, work_await_fst]
      simp only [deed?, here, workDeed?]
      exact rfl
  | begun here | skipped here | told here | allTold here =>
      rw [reports_of_delivers here rfl]
      simp only [deed?, here, workDeed?]
      exact rfl
  | @worked thread arguments frame rest outer here busy =>
      have quiet := Frame.quiet_of_isWork busy
      have does := work_does orderly.heard (cache.reach held) thread quiet
      rw [workDeed?_heard] at does
      rw [reports_of_calls here, cache.work_of_heard _ _ quiet]
      simp only [deed?, here]
      exact does.done rfl
  | @loaded thread arguments key flight started source purpose rest outer here ending =>
      have does := endLoader_does cache.heard (cache.reach held) key flight started source purpose ending
      have same : cache.heard.endingDeed? (cache.reach held) key flight ending =
          cache.endingDeed? (cache.reach held) key flight ending := by cases ending <;> rfl
      rw [same] at does
      rw [reports_of_loading here, cache.endLoader_of_heard]
      simp only [deed?, here]
      exact does.done rfl
  | notLoading ending elsewhere => simp only [Done, deed?, reports]

end Does

structure Meets (policy : Policy K V) (s : Segment K V) : Prop where
  consistent : s.Consistent
  policy_eq : s.policy = policy
  quiet : s.removals = []
  dated : s.Dated

section Meets

variable [DecidableEq K] [Clock τ] {cache cache' : Cache K V τ} {reach : Reach} {thread : ThreadId} {deed : Deed K V}
  {index : Nat}

def Dated (cache : Cache K V τ) : Prop :=
  cache.Each fun _ shard => Meets cache.policy shard.segment

omit [DecidableEq K] [Clock τ] in
theorem op_of_deedAt {now : Nat} {op : Operation K V} (does : cache.deedAt index reach now op = some deed) :
    deed.op = op ∧ deed.reach = reach := by
  obtain ⟨shard, _, rfl⟩ := Option.map_eq_some_iff.mp does
  exact ⟨rfl, rfl⟩

omit [DecidableEq K] in
theorem op_of_tidying (does : cache.tidying? index reach = some deed) : deed.op = .cleanUp := by
  unfold tidying? at does
  split at does
  · exact (op_of_deedAt does).1
  · cases does

omit [DecidableEq K] [Clock τ] in
theorem Dated.deedAt (dated : cache.Dated) {now : Nat} {op : Operation K V}
    (does : cache.deedAt index reach now op = some deed) : Meets cache.policy deed.before := by
  obtain ⟨shard, found, rfl⟩ := Option.map_eq_some_iff.mp does
  exact dated index shard found

omit [DecidableEq K] in
theorem Dated.tidying (dated : cache.Dated) (does : cache.tidying? index reach = some deed) :
    Meets cache.policy deed.before := by
  unfold tidying? at does
  split at does
  · exact dated.deedAt does
  · cases does

theorem Dated.looked (dated : cache.Dated) (reach : Reach) (key : K)
    (ranked : cache.policy.lifetime.isLimited = true →
      ∃ now extra, cache.Ranked now extra ∧ extra (cache.segmentOf key) ≤ 1) :
        (cache.looked reach key).Dated := by
  have steady := looked_steady cache reach key
  have kept : (cache.looked reach key).Each fun _ shard =>
      shard.segment.Consistent ∧ shard.segment.policy = cache.policy ∧ shard.segment.removals = [] := by
    refine Each.changeSegment (P := fun _ shard =>
      shard.segment.Consistent ∧ shard.segment.policy = cache.policy ∧ shard.segment.removals = []) ?_ _ ?_
    · exact fun index shard found => ⟨(dated index shard found).consistent, (dated index shard found).policy_eq,
        (dated index shard found).quiet⟩
    · intro shard ⟨consistent, policy, _⟩
      have runs := consistent.runs cache.hash reach cache.readClock.1 (.read key)
      exact ⟨(runs.consistent consistent).collected.consistent, (runs.rules consistent).1.trans policy, rfl⟩
  intro index shard found
  obtain ⟨consistent, policy, quiet⟩ := kept index shard found
  refine ⟨consistent, policy.trans steady.policy.symm, quiet, fun limited => ?_⟩
  obtain ⟨now, extra, ranked, few⟩ := ranked (policy ▸ limited)
  exact ((ranked.looked few reach).shards index shard found).sorted

theorem Dated.workDeed (dated : cache.Dated) {frame : Frame K V}
    (ranked : (∀ index, frame.countsFor cache.segmentOf index = false) → cache.policy.lifetime.isLimited = true →
      ∃ now extra, cache.Ranked now extra ∧ ∀ index, extra index ≤ 1)
    (does : cache.workDeed? reach thread frame = some deed) : Meets cache.policy deed.before := by
  have looked (plain : ∀ index, frame.countsFor cache.segmentOf index = false) (key : K) :
      (cache.looked reach key).Dated ∧ (cache.looked reach key).policy = cache.policy := by
    refine ⟨dated.looked reach key fun limited => ?_, (looked_steady cache reach key).policy⟩
    obtain ⟨now, extra, ranked, few⟩ := ranked plain limited
    exact ⟨now, extra, ranked, few _⟩
  cases frame with
  | start request =>
      cases request with
      | lookup key =>
          obtain ⟨dated', policy⟩ := looked (fun _ => rfl) key
          exact policy ▸ dated'.tidying does
      | insert | insertIfNew | remove => exact dated.deedAt does
      | _ => cases does
  | found => exact dated.tidying does
  | removing keys =>
      cases keys with
      | nil => cases does
      | cons => exact dated.deedAt does
  | claim | cancel | clearing | sweeping | releasing => exact dated.deedAt does
  | _ => cases does

omit [DecidableEq K] in
theorem Dated.endingDeed (dated : cache.Dated) {key : Shared K} {flight : Flight} {ending : LoaderEnd V}
    (does : cache.endingDeed? reach key flight ending = some deed) : Meets cache.policy deed.before := by
  cases ending with
  | value | nothing | failed | panicked => exact dated.deedAt does

omit [DecidableEq K] [Clock τ] in
theorem Paced.uncounted_le (paced : cache.Paced thread) {arguments : List ObjectId} {frame : Frame K V}
    {rest : List (Frame K V)} {outer : List (Call K V)}
    (here : cache.callsOf thread = ⟨arguments, frame :: rest⟩ :: outer) (quiet : frame.delivers = false)
    (plain : ∀ index, frame.countsFor cache.segmentOf index = false) (index : Nat) :
    cache.uncounted thread index ≤ 1 := by
  have counted := (paced.soon here).counted_rest quiet
  rw [uncounted, here, List.map_cons, List.sum_cons, pending_cons, plain, counted.pending]
  simpa using paced.pending_le here _ index

theorem workDeed?_of_delivers {frame : Frame K V} (delivers : frame.delivers = true) :
    cache.workDeed? reach thread frame = none := by
  cases frame with
  | deliver | delivering | listening => rfl
  | _ => cases delivers

theorem Dated.step (dated : cache.Dated) (paced : cache.Paced thread)
    (ranked : cache.policy.lifetime.isLimited = true → ∃ now, cache.Ranked now (cache.uncounted thread))
    {held : Reach} {event : Event K V τ}
    (sequential : (⟨cache, held, event⟩ : Moment K V τ).IsSequential thread)
    (does : cache.deed? held event = some deed) : Meets cache.policy deed.before := by
  cases event with
  | call | listenerEnded | setClock | contend | closeBackground => cases does
  | loaderEnded other ending =>
      dsimp only [deed?] at does
      split at does
      · exact dated.endingDeed does
      · cases does
  | proceed other =>
      cases sequential
      dsimp only [deed?] at does
      split at does
      · rename_i arguments frame rest outer here
        cases delivers : frame.delivers with
        | true => cases (workDeed?_of_delivers delivers).symm.trans does
        | false =>
            refine dated.workDeed (fun plain limited => ?_) does
            obtain ⟨now, ranked⟩ := ranked limited
            exact ⟨now, _, ranked, paced.uncounted_le here delivers plain⟩
      · cases does

theorem Supervised.deed_reached {ended : List (Ending K V)} {settled : List (Verdict V)}
    (supervised : cache.Supervised ended settled) {held : Reach} {event : Event K V τ}
    (does : cache.deed? held event = some deed) : deed.op.Reached cache.policy deed.reach := by
  have stored {index now : Nat} {reach : Reach} {op : Operation K V}
    (does : cache.deedAt index reach now op = some deed)
      (reached : op.Reached cache.policy reach) : deed.op.Reached cache.policy deed.reach := by
    obtain ⟨op_eq, reach_eq⟩ := op_of_deedAt does
    rwa [op_eq, reach_eq]
  have tidied {t : Cache K V τ} {index : Nat} {reach : Reach} (does : t.tidying? index reach = some deed) :
      deed.op.Reached cache.policy deed.reach := by
    rw [op_of_tidying does]
    trivial
  cases event with
  | call | listenerEnded | setClock | contend | closeBackground => cases does
  | loaderEnded thread ending =>
      dsimp only [deed?] at does
      split at does
      · rename_i here
        cases ending with
        | value value => exact stored does (supervised.loaded_reached here held (some value))
        | nothing | failed => exact stored does (supervised.loaded_reached here held none)
        | panicked => exact stored does trivial
      · cases does
  | proceed thread =>
      dsimp only [deed?] at does
      split at does
      · rename_i arguments frame rest outer here
        cases frame with
        | start request =>
            cases request with
            | lookup => exact tidied does
            | insert key value => exact stored does (supervised.put_reached here rfl held false)
            | insertIfNew key value => exact stored does (supervised.put_reached here rfl held true)
            | remove => exact stored does trivial
            | _ => cases does
        | found => exact tidied does
        | removing keys =>
            cases keys with
            | nil => cases does
            | cons => exact stored does trivial
        | claim | cancel | clearing | sweeping | releasing => exact stored does trivial
        | _ => cases does
      · cases does

end Meets

end Cache

namespace Moment

variable [DecidableEq K] [Clock τ]

def deed? (moment : Moment K V τ) : Option (Deed K V) :=
  moment.cache.deed? moment.held moment.event

end Moment

namespace Cache

section History

variable [DecidableEq K] [Clock τ] {config : Config K V} {hash : K → UInt64} {clock : τ}
  {past : List (Moment K V τ)} {cache : Cache K V τ} {thread : ThreadId}

theorem History.caughtUp_of_limited (history : History config hash clock past cache)
    (limited : (Cache.create config hash clock).policy.lifetime.isLimited = true) :
    ∀ moment ∈ past, moment.IsCaughtUp := by
  intro moment member
  obtain ⟨earlier, later, rfl⟩ := List.append_of_mem member
  have caught (key : K) : moment.cache.CaughtUp key := fun shard found =>
    .inl (((history.of_append rfl).1.recorded.weighed _ shard found).policy ▸ limited)
  exact ⟨fun write _ => caught write.key.data, fun key _ => caught key⟩

theorem History.dated (history : History config hash clock past cache) (proper : ∀ moment ∈ past, moment.IsProper)
    (ranked : cache.policy.lifetime.isLimited = true → ∃ now extra, cache.Ranked now extra) : cache.Dated := by
  intro index shard found
  have tended := (history.supervised proper).tended index shard found
  have orderly := history.recorded.composed.orderly.shards index shard found
  refine ⟨orderly.1, tended.policy_eq, orderly.2, fun limited => ?_⟩
  obtain ⟨now, extra, ranked⟩ := ranked (tended.policy_eq ▸ limited)
  exact (ranked.shards index shard found).sorted

theorem History.meets (history : History config hash clock past cache) (proper : ∀ moment ∈ past, moment.IsProper)
    (sequential : ∀ moment ∈ past, moment.IsSequential thread) (forward : Clock.Forward clock)
    (timely : ∀ moment ∈ past, moment.IsTimely) :
    ∀ moment ∈ past, ∀ deed, moment.deed? = some deed →
      Meets moment.cache.policy deed.before ∧ deed.op.Reached moment.cache.policy deed.reach ∧
        Done moment.cache.hash moment.next moment.reports (some deed) := by
  intro moment member deed does
  obtain ⟨earlier, later, rfl⟩ := List.append_of_mem member
  have before {P : Moment K V τ → Prop} (all : ∀ moment' ∈ earlier ++ moment :: later, P moment') :
      ∀ moment' ∈ earlier, P moment' := fun moment' inside => all moment' (List.mem_append_left _ inside)
  have history' := (history.of_append rfl).1
  have ranked (limited : moment.cache.policy.lifetime.isLimited = true) :
      ∃ now, moment.cache.Ranked now (moment.cache.uncounted thread) := by
    have caught := history'.caughtUp_of_limited (history'.recorded.policy_eq ▸ limited)
    obtain ⟨now, ranked, -⟩ := history'.ranked (before proper) (before sequential) forward (before timely) caught
    exact ⟨now, ranked⟩
  have dated := history'.dated (before proper) fun limited => (ranked limited).imp fun _ ranked => ⟨_, ranked⟩
  refine ⟨dated.step (history'.paced (before sequential)) ranked (sequential moment member) does,
    (history'.supervised (before proper)).deed_reached does, ?_⟩
  have done := history'.recorded.composed.step_done moment.held moment.event
  rwa [show moment.cache.deed? moment.held moment.event = some deed from does] at done

end History
end Cache
end SegmentedCache
