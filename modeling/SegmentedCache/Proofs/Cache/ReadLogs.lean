import SegmentedCache.Proofs.Cache.Punctual
import SegmentedCache.Proofs.Segment.Wear

namespace SegmentedCache

/-!
The logs of noted reads, step by step. A read is noted by looking a key up, and forgotten when it is replayed. Where one
thread does everything, those that wait to be replayed are no more than were counted since the last housekeeping, and
those that the thread is about to count.
-/

variable {K V τ : Type}

/-- What becomes of the reads noted in a segment. If they were at most `before` more than were counted since the last
housekeeping, they are at most `after` more then. None are noted but by a reader, of entries that count. -/
structure Shard.LogKept (reading : Prop) (most before after : Nat) (shard shard' : Shard K V) : Prop where
  noted : shard.segment.readLog.size ≤ shard.reads % Cache.readsPerCleanUp + before →
    shard'.segment.readLog.size ≤ shard'.reads % Cache.readsPerCleanUp + after
  readLog : ∀ handle ∈ shard'.segment.readLog,
    handle ∈ shard.segment.readLog ∨ reading ∧ shard.segment.HasCounted handle
  worn : Segment.Worn most shard.segment shard'.segment

namespace Shard.LogKept

variable {reading reading' : Prop} {most most' before before' after after' : Nat} {shard t shard' : Shard K V}

theorem mono (kept : LogKept reading most before after shard shard') (weaker : reading → reading')
    (le : most ≤ most') (le' : before' ≤ before) (le'' : after ≤ after') :
    LogKept reading' most' before' after' shard shard' where
  noted few := (kept.noted (few.trans (Nat.add_le_add_left le' _))).trans (Nat.add_le_add_left le'' _)
  readLog handle member := (kept.readLog handle member).imp_right (.imp_left weaker)
  worn := kept.worn.mono le

theorem trans (first : LogKept reading most before after shard t) (second : LogKept False most' after after' t shard') :
    LogKept reading (most + most') before after' shard shard' where
  noted few := second.noted (first.noted few)
  readLog handle member := by
    rcases second.readLog handle member with earlier | never
    · exact first.readLog handle earlier
    · exact never.1.elim
  worn := first.worn.trans second.worn

theorem of_same (le : before ≤ after) (shard : Shard K V) : LogKept reading most before after shard shard where
  noted few := few.trans (Nat.add_le_add_left le _)
  readLog _ := .inl
  worn := (Segment.Worn.refl _).mono (Nat.zero_le most)

theorem of_silent (reads : shard'.reads = shard.reads)
    (log : shard'.segment.readLog = shard.segment.readLog ∨ shard'.segment.readLog = #[])
    (worn : Segment.Worn most shard.segment shard'.segment) : LogKept False most before before shard shard' where
  noted few := by
    rw [reads]
    rcases log with same | empty
    · rwa [same]
    · rw [empty]
      exact Nat.zero_le _
  readLog handle member := by
    rcases log with same | empty
    · exact .inl (same ▸ member)
    · simp [empty] at member
  worn := worn

theorem collected {s : Segment K V} (kept : LogKept reading most before after shard { shard with segment := s })
    (consistent : s.Consistent) (published : Nat) :
    LogKept reading most before after shard
      { shard with segment := { s with removals := [], growths := [] }, published } :=
  ⟨kept.noted, kept.readLog, kept.worn.trans (consistent.collected.worn rfl)⟩

end Shard.LogKept

namespace Cache

def LogsKept (reading : Prop) (most : Nat) (before after : Nat → Nat) (cache cache' : Cache K V τ) : Prop :=
  ∀ index shard', cache'.shards[index]? = some shard' →
    ∃ shard, cache.shards[index]? = some shard ∧
      Shard.LogKept reading most (before index) (after index) shard shard'

section LogsKept

variable {cache t cache' : Cache K V τ} {reading reading' : Prop} {most most' : Nat}
  {before before' after after' : Nat → Nat} {index : Nat} {reach : Reach}

namespace LogsKept

theorem mono (kept : LogsKept reading most before after cache cache') (weaker : reading → reading')
    (le : most ≤ most') (le' : ∀ index, before' index ≤ before index)
    (le'' : ∀ index, after index ≤ after' index) :
    LogsKept reading' most' before' after' cache cache' := by
  intro index shard' found'
  obtain ⟨shard, found, kept⟩ := kept index shard' found'
  exact ⟨shard, found, kept.mono weaker le (le' index) (le'' index)⟩

theorem trans (first : LogsKept reading most before after cache t)
    (second : LogsKept False most' after after' t cache') :
    LogsKept reading (most + most') before after' cache cache' := by
  intro index shard' found'
  obtain ⟨shard, found, second⟩ := second index shard' found'
  obtain ⟨shard, found, first⟩ := first index shard found
  exact ⟨shard, found, first.trans second⟩

theorem widen (kept : LogsKept reading most before after cache cache') (le : most ≤ most')
    (le' : ∀ index, after index ≤ after' index) : LogsKept reading most' before after' cache cache' :=
  kept.mono id le (fun _ => le_rfl) le'

theorem silent (kept : LogsKept False most before after cache cache') :
    LogsKept reading most before after cache cache' :=
  kept.mono False.elim le_rfl (fun _ => le_rfl) fun _ => le_rfl

theorem of_shards (same : cache'.shards = cache.shards) (le : ∀ index, before index ≤ after index) :
    LogsKept reading most before after cache cache' := by
  intro index shard found
  exact ⟨shard, same ▸ found, .of_same (le index) shard⟩

theorem still (same : cache'.shards = cache.shards) : LogsKept reading most before before cache cache' :=
  of_shards same fun _ => le_rfl

theorem before_shards (kept : LogsKept reading most before after t cache') (same : t.shards = cache.shards) :
    LogsKept reading most before after cache cache' := by
  unfold LogsKept at *
  rwa [← same]

theorem after_shards (kept : LogsKept reading most before after cache t) (same : cache'.shards = t.shards) :
    LogsKept reading most before after cache cache' := by
  unfold LogsKept at *
  rwa [same]

theorem modify {f : Shard K V → Shard K V} (others : ∀ other, other ≠ index → before other ≤ after other)
    (here : ∀ shard, cache.shards[index]? = some shard →
      Shard.LogKept reading most (before index) (after index) shard (f shard)) :
    LogsKept reading most before after cache { cache with shards := cache.shards.modify index f } := by
  intro other shard found
  rw [Array.getElem?_modify] at found
  split at found
  · rename_i same
    subst same
    obtain ⟨earlier, found', rfl⟩ := Option.map_eq_some_iff.mp found
    exact ⟨earlier, found', here earlier found'⟩
  · rename_i different
    exact ⟨shard, found, .of_same (others other (Ne.symm different)) shard⟩

theorem changeSegment {f : Segment K V → Segment K V}
    (others : ∀ other, other ≠ index → before other ≤ after other)
    (here : ∀ shard, cache.shards[index]? = some shard →
      Shard.LogKept reading most (before index) (after index) shard
        { shard with
          segment := { f shard.segment with removals := [], growths := [] }
          published := (f shard.segment).count }) :
    LogsKept reading most before after cache (cache.changeSegment index f) := by
  intro other shard' found'
  by_cases same : other = index
  · subst same
    cases found : cache.shards[other]? with
    | none =>
        rw [changeSegment_of_none found] at found'
        cases found.symm.trans found'
    | some shard =>
        obtain ⟨stats, log, changed⟩ := changeSegment_eq found f
        rw [changed, Array.getElem?_setIfInBounds_self_of_lt (Array.getElem?_eq_some_iff.mp found).1] at found'
        cases found'
        exact ⟨shard, rfl, here shard found⟩
  · rw [getElem?_changeSegment_of_ne cache same] at found'
    exact ⟨shard', found', .of_same (others other same) shard'⟩

end LogsKept

end LogsKept

section Calls

variable [DecidableEq K] [Clock τ] {cache : Cache K V τ} {reach : Reach} {now : Nat} {key : Shared K} {index : Nat}

namespace Orderly

omit [Clock τ] in
theorem operate_logsKept (orderly : cache.Orderly) (index : Nat) (hash : K → UInt64) (reach : Reach) (now : Nat)
    (op : Operation K V) (silent : op.reads = false) (extra : Nat → Nat) :
    LogsKept False 2 extra extra cache (cache.changeSegment index (op.run hash reach now)) := by
  refine .changeSegment (fun _ _ => le_rfl) fun shard found => ?_
  have consistent := (orderly.shards index shard found).1
  have turnover := consistent.turnover hash reach now op
  have kept : Shard.LogKept False 2 (extra index) (extra index) shard
      { shard with segment := op.run hash reach now shard.segment } :=
    .of_silent rfl (turnover.readLog consistent silent) (turnover.worn consistent)
  exact kept.collected ((consistent.runs hash reach now op).consistent consistent) _

omit [DecidableEq K] [Clock τ] in
theorem modifyLoad_logsKept (orderly : cache.Orderly) (flight : Flight) (f : Load K V → Load K V) :
    LogsKept False 2 0 0 cache (cache.modifyLoad flight f) := by
  refine .modify (fun _ _ => le_rfl) fun shard found => ?_
  have changed := (orderly.shards flight.segment shard found).1.modifyLoad flight.load f
  exact .of_silent rfl (.inl rfl) ((changed.worn rfl).mono (Nat.zero_le 2))

omit [DecidableEq K] [Clock τ] in
theorem cleanUp_logsKept (orderly : cache.Orderly) (index : Nat) (reach : Reach) (now : Nat) (extra : Nat → Nat) :
    LogsKept False 2 extra (Function.update extra index 0) cache
      (cache.changeSegment index (·.cleanUp reach now)) := by
  refine .changeSegment (fun other different => (Function.update_of_ne different ..).ge) fun shard found => ?_
  have consistent := (orderly.shards index shard found).1
  have swept := (consistent.cleanUp reach now).any
  have replayed := consistent.cleanUp_readLog reach now
  have kept : Shard.LogKept False 2 (extra index) (Function.update extra index 0 index) shard
      { shard with segment := shard.segment.cleanUp reach now } :=
    ⟨by simp [replayed], by simp [replayed], (swept.worn consistent).mono (by decide)⟩
  exact kept.collected (swept.consistent consistent) _

omit [DecidableEq K] in
theorem countRead_logsKept (orderly : cache.Orderly) (alone : cache.contended = false) (reach : Reach) (index : Nat) :
    LogsKept False 2 (fun other => if index = other then 1 else 0) 0 cache (cache.countRead reach index).1 := by
  have counted (after : Nat → Nat) (enough : ∀ shard, cache.shards[index]? = some shard →
        shard.reads % readsPerCleanUp + 1 ≤ (shard.reads + 1) % readsPerCleanUp + after index) :
      LogsKept False 0 (fun other => if index = other then 1 else 0) after cache
        (cache.readNoted index) := by
    refine .modify (fun other different => by simp [Ne.symm different]) fun shard found => ?_
    refine ⟨fun few => few.trans ?_, fun _ => .inl, .refl _⟩
    simpa using enough shard found
  have orderly' : (cache.readNoted index).Orderly := orderly.modify index fun _ holds => holds
  have counting := cache.counting reach index
  generalize cache.countRead reach index = result at counting ⊢
  cases counting with
  | due =>
      -- what waits before housekeeping does not matter after it
      have noted := counted (Function.update 0 index readsPerCleanUp) fun shard _ => by
        rw [Function.update_self]
        exact (small_reads shard.reads).trans_le (Nat.le_add_left ..)
      have swept := orderly'.readClock.cleanUp_logsKept index reach cache.readClock.1
        (Function.update 0 index readsPerCleanUp)
      rw [Function.update_idem,
        show Function.update (0 : Nat → Nat) index 0 = 0 from Function.update_eq_self ..] at swept
      exact noted.trans (swept.before_shards rfl)
  | busy taken => cases alone.symm.trans taken
  | waiting waiting =>
      exact (counted 0 fun shard found => (reads_of_waiting waiting found).ge).widen (Nat.zero_le 2) fun _ => le_rfl

theorem looked_logsKept (orderly : cache.Orderly) (reach : Reach) (key : K) :
    LogsKept True 0 0 (fun index => if cache.segmentOf key = index then 1 else 0) cache (cache.looked reach key) := by
  refine .before_shards (t := cache.readClock.2) (.changeSegment (fun _ _ => Nat.zero_le _) fun shard found => ?_) rfl
  have settled := (orderly.shards _ shard found).1.read_settled reach cache.readClock.1 (cache.hash key) key
  have kept : Shard.LogKept True 0 0 1 shard
      { shard with segment := (Operation.read key).run cache.hash reach cache.readClock.1 shard.segment } := by
    refine ⟨fun few => ?_, fun handle member => ?_, settled.worn⟩
    · rcases settled.readLog with same | empty | ⟨_, handle, _, noted⟩
      · exact (congrArg Array.size same).trans_le (few.trans (Nat.le_add_right ..))
      · exact (congrArg Array.size empty).trans_le (Nat.zero_le _)
      · exact (congrArg Array.size noted).trans_le ((Array.size_push _).trans_le (Nat.add_le_add_right few 1))
    · rcases settled.readLog with same | empty | ⟨_, other, counted, noted⟩
      · exact .inl (same ▸ member)
      · have nothing : handle ∈ (#[] : Array Handle) := empty ▸ member
        simp at nothing
      · have pushed : handle ∈ shard.segment.readLog.push other := noted ▸ member
        rcases Array.mem_push.mp pushed with earlier | rfl
        · exact .inl earlier
        · exact .inr ⟨trivial, counted⟩
  rw [if_pos rfl]
  exact kept.collected settled.consistent _

theorem missed_logsKept (orderly : cache.Orderly) (reach : Reach) (key : K)
    (missed : ∀ value refresh, cache.finding reach key ≠ .live value refresh) :
    LogsKept True 0 0 0 cache (cache.looked reach key) := by
  refine .before_shards (t := cache.readClock.2) (.changeSegment (fun _ _ => le_rfl) fun shard found => ?_) rfl
  have same : (Operation.read key).run cache.hash reach cache.readClock.1 shard.segment = shard.segment := by
    have located : cache.shards[cache.segmentOf key]? = some shard := found
    rw [finding_eq located] at missed
    exact Segment.read_of_missed missed
  rw [same]
  exact (Shard.LogKept.of_same le_rfl shard).collected (orderly.shards _ shard found).1 _

theorem looked (orderly : cache.Orderly) (reach : Reach) (key : K) : (cache.looked reach key).Orderly :=
  (cache.read_moves reach key).orderly orderly

omit [DecidableEq K] [Clock τ] in
theorem count (orderly : cache.Orderly) (f : Stats → Stats) : (cache.count f).Orderly := by
  obtain ⟨stats, counted⟩ := cache.count_eq f
  rw [counted]
  exact ⟨orderly.shards, orderly.chosen, orderly.reloads⟩

end Orderly

omit [DecidableEq K] [Clock τ] in
theorem shards_count (cache : Cache K V τ) (f : Stats → Stats) : (cache.count f).shards = cache.shards := by
  obtain ⟨stats, counted⟩ := cache.count_eq f
  rw [counted]

namespace Orderly

theorem lookup_logsKept (orderly : cache.Orderly) (alone : cache.contended = false) (reach : Reach) (key : K) :
    LogsKept True 2 0 0 cache (cache.lookup reach key).1 := by
  have counted (f : Stats → Stats) :
      LogsKept True 2 0 0 cache (((cache.looked reach key).count f).countRead reach (cache.segmentOf key)).1 := by
    have steady := ((cache.read_moves reach key).trans (.count (.done ((cache.looked reach key).count f)))).steady
    exact (orderly.looked_logsKept reach key).trans
      ((((orderly.looked reach key).count f).countRead_logsKept (steady.contended.trans alone) reach _).before_shards
        (shards_count ..))
  have looking := cache.looking reach key
  generalize cache.lookup reach key = result at looking ⊢
  cases looking with
  | served | missed => exact counted _

theorem find_logsKept (orderly : cache.Orderly) (reach : Reach) (key : Shared K) (source : Source) :
    LogsKept True 2 0 (pending cache.segmentOf (cache.find reach key source).2) cache
      (cache.find reach key source).1 := by
  have noted := (orderly.looked_logsKept reach key.data).after_shards (shards_count _ (·.countHit))
  have missed := orderly.missed_logsKept reach key.data
  have seeking := cache.seeking reach key source
  generalize cache.find reach key source = result at seeking ⊢
  cases seeking with
  | served => exact noted.widen (Nat.zero_le 2) fun index => by simp [pending, Frame.countsFor]
  | overdue => exact noted.widen (Nat.zero_le 2) fun index => by simp [pending, Frame.countsFor]
  | joined pending =>
      have kept := (missed (by simp [pending])).after_shards (shards_count _ (·.countMiss))
      exact kept.widen (Nat.zero_le 2) fun _ => Nat.zero_le _
  | missed nothing => exact (missed (by simp [nothing])).widen (Nat.zero_le 2) fun _ => Nat.zero_le _

omit [Clock τ] in
theorem claim_logsKept (orderly : cache.Orderly) (reach : Reach) (thread : ThreadId) (key : Shared K) (source : Source)
    (now : Nat) : LogsKept False 2 0 0 cache (cache.claim reach thread key source now).1 := by
  rw [claim_eq]
  exact orderly.operate_logsKept (cache.segmentOf key.data) cache.hash reach now (.claim thread key) rfl 0

omit [Clock τ] in
theorem renew_logsKept (orderly : cache.Orderly) (reach : Reach) (thread : ThreadId) (key : Shared K) (source : Source)
    (now : Nat) (value : Shared V) (extra : Nat → Nat) :
    LogsKept False 2 extra extra cache (cache.renew reach thread key source now value).1 := by
  rw [renew_eq]
  exact orderly.operate_logsKept (cache.segmentOf key.data) cache.hash reach now
    (.claimRefresh thread key false) rfl extra

theorem put_logsKept (orderly : cache.Orderly) (reach : Reach) (key : Shared K) (value : Shared V) (onlyIfNew : Bool) :
    LogsKept False 2 0 0 cache (cache.put reach key value onlyIfNew).1 := by
  rw [put_fst]
  exact orderly.readClock.operate_logsKept (cache.segmentOf key.data) cache.hash reach cache.readClock.1
    (.insert key value onlyIfNew) rfl 0

theorem remove_logsKept (orderly : cache.Orderly) (reach : Reach) (key : K) :
    LogsKept False 2 0 0 cache (cache.remove reach key).2 := by
  rw [remove_snd]
  exact orderly.readClock.operate_logsKept (cache.segmentOf key) cache.hash reach cache.readClock.1 (.remove key) rfl 0

omit [Clock τ] in
theorem finishLoad_logsKept (orderly : cache.Orderly) (reach : Reach) (now : Nat) (key : Shared K) (flight : Flight)
    (loaded : Option (Shared V)) : LogsKept False 2 0 0 cache (cache.finishLoad reach now key flight loaded) :=
  orderly.operate_logsKept flight.segment cache.hash reach now (.finishLoad key flight.load loaded) rfl 0

theorem giveUp_logsKept (orderly : cache.Orderly) (reach : Reach) (key : Shared K) (flight : Flight) :
    LogsKept False 2 0 0 cache (cache.giveUp reach key flight).1 :=
  orderly.readClock.finishLoad_logsKept reach cache.readClock.1 key flight none

theorem endLoader_logsKept (orderly : cache.Orderly) (reach : Reach) (key : Shared K) (flight : Flight) (started : Nat)
    (source : Source) (purpose : Purpose V) (ending : LoaderEnd V) :
    LogsKept False 2 0 0 cache (cache.endLoader reach key flight started source purpose ending).1 := by
  have finished (f : Stats → Stats) (reach : Reach) (loaded : Option (Shared V)) : LogsKept False 2 0 0 cache
      ((cache.readClock.2.count f).finishLoad reach cache.readClock.1 key flight loaded) :=
    ((orderly.readClock.count f).finishLoad_logsKept reach _ key flight loaded).before_shards (shards_count ..)
  cases ending with
  | value | nothing | failed => exact finished _ _ _
  | panicked message =>
      exact ((orderly.readClock.count _).giveUp_logsKept reach key flight).before_shards (shards_count ..)

end Orderly

omit [DecidableEq K] [Clock τ] in
theorem shards_nextReload {reload : Reload K V} {t : Cache K V τ} (next : cache.nextReload? = some (reload, t)) :
    t.shards = cache.shards := by
  obtain ⟨background, rfl, _⟩ := tasks_of_next next
  rfl

namespace Orderly

theorem startRequest_logsKept (orderly : cache.Orderly) (alone : cache.contended = false) (reach : Reach)
    (thread : ThreadId) (request : Request K V) :
    LogsKept True 2 0 0 cache (cache.startRequest reach thread request).1 := by
  cases request with
  | lookup key => exact orderly.lookup_logsKept alone reach key
  | insert key value => exact (orderly.put_logsKept reach key value false).silent
  | insertIfNew key value => exact (orderly.put_logsKept reach key value true).silent
  | remove key => exact (orderly.remove_logsKept reach key).silent
  | refresh key =>
      have renewed := orderly.readClock.operate_logsKept (cache.segmentOf key.data) cache.hash reach cache.readClock.1
        (.claimRefresh thread key true) rfl 0
      dsimp only [startRequest]
      rw [onSegment_snd]
      exact renewed.silent
  | loadAll keys => cases keys <;> exact .still rfl
  | runReload =>
      dsimp only [startRequest]
      cases next : cache.nextReload? with
      | none => exact .still rfl
      | some found =>
          have same := shards_nextReload next
          obtain ⟨moves, -, -⟩ := nextReload?_moves orderly next
          have owned := (moves.orderly orderly).modifyLoad_logsKept found.1.flight (·.setOwner (some thread))
          exact (owned.before_shards same).silent
  | dropReload =>
      dsimp only [startRequest]
      cases next : cache.nextReload? with
      | none => exact .still rfl
      | some found => exact .still (shards_nextReload next)
  | get | load | removeAll | clear | cleanUp | releaseSoft | contains | entries => exact .still rfl

omit [DecidableEq K] in
theorem answer_logsKept (orderly : cache.Orderly) (key : Shared K) (source : Source) (value : Shared V)
    (renewal : Option (Flight × Shared V)) : LogsKept False 2 0 0 cache (cache.answer key source value renewal).1 := by
  rcases renewal with _ | ⟨flight, old⟩
  · exact .still rfl
  · cases source with
    | given => exact .still rfl
    | bound =>
        have disowned := orderly.modifyLoad_logsKept flight (·.setOwner none)
        dsimp only [Cache.answer, reload]
        split
        · exact .still rfl
        · exact disowned
        · exact disowned

theorem work_logsKept (orderly : cache.Orderly) (alone : cache.contended = false) (reach : Reach) (thread : ThreadId)
    (frame : Frame K V) :
    LogsKept True 2 (fun index => if frame.countsFor cache.segmentOf index then 1 else 0)
      (pending cache.segmentOf (cache.work reach thread frame).2) cache (cache.work reach thread frame).1 := by
  have noting {t : Cache K V τ} (kept : LogsKept True 2 0 0 cache t) (frames : List (Frame K V))
      (other : ∀ index, frame.countsFor cache.segmentOf index = false) :
      LogsKept True 2 (fun index => if frame.countsFor cache.segmentOf index then 1 else 0)
        (pending cache.segmentOf frames) cache t :=
    kept.mono id le_rfl (fun index => by simp [other]) fun _ => Nat.zero_le _
  cases frame with
  | start request => exact noting (orderly.startRequest_logsKept alone reach thread request) _ fun _ => rfl
  | find key source => exact orderly.find_logsKept reach key source
  | claim key source now => exact noting (orderly.claim_logsKept reach thread key source now).silent _ fun _ => rfl
  | renew key source now value =>
      -- the refresh is claimed between the note and its being counted, which notes nothing more
      have renewed := orderly.renew_logsKept reach thread key source now value
        fun index => if cache.segmentOf key.data = index then 1 else 0
      exact renewed.mono False.elim le_rfl (fun index => by simp [Frame.countsFor])
        fun index => by simp [work, renew, pending, Frame.countsFor]
  | found key source value renewal =>
      have counted := orderly.countRead_logsKept alone reach (cache.segmentOf key.data)
      exact counted.mono False.elim le_rfl (fun index => by simp [Frame.countsFor]) fun _ => Nat.zero_le _
  | answer key source value renewal =>
      exact noting (orderly.answer_logsKept key source value renewal).silent _ fun _ => rfl
  | claimed key source segment claim =>
      cases claim <;> exact noting (.still (shards_count ..)) _ fun _ => rfl
  | settle flight outcome => exact noting (orderly.modifyLoad_logsKept flight _).silent _ fun _ => rfl
  | conclude source purpose outcome =>
      cases purpose <;> cases outcome <;> exact noting (.still rfl) _ fun _ => rfl
  | cancel key flight => exact noting (orderly.giveUp_logsKept reach key flight).silent _ fun _ => rfl
  | renewed key renewal => cases renewal <;> exact noting (.still rfl) _ fun _ => rfl
  | removing keys =>
      cases keys with
      | nil => exact noting (.still rfl) _ fun _ => rfl
      | cons key rest => exact noting (orderly.remove_logsKept reach key).silent _ fun _ => rfl
  | await key flight =>
      refine noting (.still ?_) _ fun _ => rfl
      rw [work_await_fst]
  | clearing segment =>
      refine noting ?_ _ fun _ => rfl
      dsimp only [work]
      split
      · exact (orderly.operate_logsKept segment cache.hash reach 0 .clear rfl 0).silent
      · exact .still rfl
  | sweeping segment =>
      refine noting ?_ _ fun _ => rfl
      dsimp only [work]
      split
      · have swept := orderly.readClock.operate_logsKept segment cache.hash reach cache.readClock.1 .cleanUp rfl 0
        exact swept.silent
      · exact .still rfl
  | releasing segment =>
      refine noting ?_ _ fun _ => rfl
      dsimp only [work]
      split
      · exact (orderly.operate_logsKept segment cache.hash reach 0 .releaseSoft rfl 0).silent
      · exact .still rfl
  | deliver | delivering =>
      refine noting ?_ _ fun _ => rfl
      dsimp only [work]
      split <;> exact .still rfl
  | _ => exact noting (.still rfl) _ fun _ => rfl

end Orderly

omit [DecidableEq K] [Clock τ] in
theorem shards_passOn (cache : Cache K V τ) (reply : Reply K V) (frame : Frame K V) :
    (cache.passOn reply frame).1.shards = cache.shards := by
  unfold passOn
  repeat' split
  all_goals rfl

namespace Punctual

variable {thread : ThreadId} {arguments : List ObjectId} {frame : Frame K V} {frames frames' rest : List (Frame K V)}
  {outer : List (Call K V)}

omit [DecidableEq K] [Clock τ] in
theorem goOn_logsKept (punctual : cache.Punctual thread) {t : Cache K V τ}
    (here : cache.callsOf thread = ⟨arguments, frames⟩ :: outer) (place : t.segmentOf = cache.segmentOf)
    (kept : LogsKept True 2 (pending cache.segmentOf frames) (pending cache.segmentOf frames') cache t) :
    LogsKept True 2 (cache.uncounted thread) ((t.setCalls thread (⟨arguments, frames'⟩ :: outer)).uncounted thread)
      cache (t.setCalls thread (⟨arguments, frames'⟩ :: outer)) := by
  refine (kept.mono id le_rfl (fun index => (punctual.uncounted_eq here index).le) fun index => ?_).after_shards rfl
  rw [uncounted_setCalls, place, List.map_cons, List.sum_cons]
  exact Nat.le_add_right ..

omit [DecidableEq K] [Clock τ] in
theorem leave_logsKept (punctual : cache.Punctual thread)
    (here : cache.callsOf thread = ⟨arguments, frames⟩ :: outer) (counted : Counted frames) :
    LogsKept True 2 (cache.uncounted thread) ((cache.setCalls thread outer).uncounted thread) cache
      (cache.setCalls thread outer) :=
  .of_shards rfl fun index => by
    rw [punctual.uncounted_eq here, counted.pending]
    exact Nat.zero_le _

theorem step_logsKept (punctual : cache.Punctual thread) (alone : cache.contended = false) (composed : cache.Composed)
    (held : Reach) (event : Event K V τ) (sequential : (⟨cache, held, event⟩ : Moment K V τ).IsSequential thread) :
    LogsKept True 2 (cache.uncounted thread) ((cache.step held event).1.uncounted thread) cache
      (cache.step held event).1 := by
  have happens := cache.step_happens held event
  have arranged := composed.arranged
  have still {t : Cache K V τ} {frames frames' : List (Frame K V)} (same : t.shards = cache.shards)
      (le : ∀ index, pending cache.segmentOf frames index ≤ pending cache.segmentOf frames' index) :
      LogsKept True 2 (pending cache.segmentOf frames) (pending cache.segmentOf frames') cache t :=
    .of_shards same le
  generalize cache.step held event = result at happens ⊢
  cases happens with
  | entered other request =>
      obtain ⟨rfl, -⟩ := sequential
      refine .of_shards rfl fun index => ?_
      rw [uncounted_setCalls, List.map_cons, List.sum_cons]
      exact Nat.le_add_left ..
  | timed | contended | closed | idle | loading | listening | blocked | notLoading | notListening =>
      exact .of_shards rfl fun _ => le_rfl
  | ended here =>
      cases sequential
      exact punctual.leave_logsKept here counted_nil
  | returned here | unwound here =>
      cases sequential
      have counted := (punctual.onTime here).counted_rest ⟨nofun, nofun⟩
      exact punctual.leave_logsKept here (counted_cons.mpr ⟨rfl, counted⟩)
  | @passed _ arguments reply frame rest outer here =>
      cases sequential
      have counted := (punctual.onTime here).counted_rest ⟨nofun, nofun⟩
      refine punctual.goOn_logsKept here (passOn_works cache reply frame).moves.steady.segmentOf
        (still (shards_passOn cache reply frame) fun index => ?_)
      rw [(counted_cons.mpr ⟨rfl, counted⟩ : Counted (.give reply :: frame :: rest)).pending]
      exact Nat.zero_le _
  | @worked _ arguments frame rest outer here busy =>
      cases sequential
      have counted := (punctual.onTime here).counted_rest (by constructor <;> rintro rfl <;> cases busy)
      have fits := (arranged _ _ (here ▸ List.mem_cons_self)).fits (Frame.quiet_of_isWork busy)
      have works := work_works composed.orderly (cache.reach held) thread (fits _ List.mem_cons_self)
      have kept := composed.orderly.work_logsKept alone (cache.reach held) thread frame
      refine punctual.goOn_logsKept here works.moves.steady.segmentOf
        (kept.mono id le_rfl (fun index => ?_) fun index => ?_)
      · rw [pending_cons, counted.pending, Nat.zero_add]
      · rw [pending_append]
        exact Nat.le_add_right ..
  | @loaded _ arguments key flight started source purpose rest outer here ending =>
      cases sequential
      have counted := (punctual.onTime here).counted_rest ⟨nofun, nofun⟩
      have fits := (arranged _ _ (here ▸ List.mem_cons_self)).fits rfl
      have placed := (fits _ List.mem_cons_self).2 _ rfl
      have works := endLoader_works composed.orderly (cache.reach held) placed started source purpose ending
      have kept := composed.orderly.endLoader_logsKept (cache.reach held) key flight started source purpose ending
      refine punctual.goOn_logsKept here works.moves.steady.segmentOf
        (kept.mono False.elim le_rfl (fun index => ?_) fun _ => Nat.zero_le _)
      rw [pending_cons, counted.pending]
      exact le_rfl
  | begun here | skipped here | told here | allTold here | heard here =>
      cases sequential
      refine punctual.goOn_logsKept here rfl (still rfl fun index => ?_)
      simp [pending_cons, Frame.countsFor]

end Punctual

end Calls

end Cache
end SegmentedCache
