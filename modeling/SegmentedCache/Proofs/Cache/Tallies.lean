import SegmentedCache.Proofs.Cache.Handling
import SegmentedCache.Proofs.Cache.Reports

namespace SegmentedCache

/-!
What is counted. A lookup is counted when it finds a value, or when it is clear that there is none. Where a load is
claimed for it that is up to the claim, and it is counted after the listener was told of what the claim removed.
Each piece of work counts one lookup or load at most.
-/

variable {K V τ : Type}

/-- What comes to be counted, but for evictions: lookups that calls are to make, those that were made, and loads. -/
structure Tally where
  asked : Nat := 0
  found : Nat := 0
  missed : Nat := 0
  loaded : Nat := 0
  failed : Nat := 0

def Tally.plus (first second : Tally) : Tally where
  asked := first.asked + second.asked
  found := first.found + second.found
  missed := first.missed + second.missed
  loaded := first.loaded + second.loaded
  failed := first.failed + second.failed

def Request.looksUp : Request K V → Bool
  | .lookup _ | .get _ | .load _ | .loadAll (_ :: _) => true
  | _ => false

namespace Frame

def isQuestion : Frame K V → Bool
  | .start request => request.looksUp
  | .find .. | .claim .. => true
  | _ => false

/-- A claim found a live value after all. The hit is still to be counted. -/
def isLateHit : Frame K V → Bool
  | .claimed _ _ _ (.needless _) => true
  | _ => false

/-- A claim found none either. The miss is still to be counted. -/
def isLateMiss : Frame K V → Bool
  | .claimed _ _ _ (.granted _) | .claimed _ _ _ (.taken _) => true
  | _ => false

def isOpen : Frame K V → Bool
  | .start _ | .find .. | .claim .. | .claimed .. => true
  | _ => false

def asksNext : Frame K V → Reply K V → Bool
  | .gather _ (_ :: _) _, .outcome (.ok _) => true
  | _, _ => false

theorem of_not_isOpen {frame : Frame K V} (closed : frame.isOpen = false) :
    frame.isQuestion = false ∧ frame.isLateHit = false ∧ frame.isLateMiss = false := by
  cases frame with
  | start | find | claim | claimed => cases closed
  | _ => exact ⟨rfl, rfl, rfl⟩

end Frame

def LoaderEnd.isValue : LoaderEnd V → Bool
  | .value _ => true
  | _ => false

def LoaderEnd.tally (ending : LoaderEnd V) : Tally :=
  if ending.isValue then { loaded := 1 } else { failed := 1 }

theorem LoaderEnd.tally_asks (ending : LoaderEnd V) :
    ending.tally.found + ending.tally.missed = 0 + ending.tally.asked := by
  unfold LoaderEnd.tally
  split <;> rfl

structure Stats.Adds (tally : Tally) (evicted : Nat) (stats stats' : Stats) : Prop where
  hits : stats'.hits = stats.hits + .ofNat tally.found
  misses : stats'.misses = stats.misses + .ofNat tally.missed
  loads : stats'.loadSuccesses = stats.loadSuccesses + .ofNat tally.loaded
  failures : stats'.loadFailures = stats.loadFailures + .ofNat tally.failed
  evictions : stats'.evictions = stats.evictions + .ofNat evicted

namespace Stats

theorem Adds.refl (asked : Nat) (stats : Stats) : stats.Adds { asked } 0 stats := by
  constructor <;> simp

theorem Adds.trans {stats between stats' : Stats} {tally tally' : Tally} {evicted evicted' : Nat}
    (first : stats.Adds tally evicted between) (second : between.Adds tally' evicted' stats') :
    stats.Adds (tally.plus tally') (evicted + evicted') stats' where
  hits := by rw [second.hits, first.hits, Tally.plus, UInt64.ofNat_add, UInt64.add_assoc]
  misses := by rw [second.misses, first.misses, Tally.plus, UInt64.ofNat_add, UInt64.add_assoc]
  loads := by rw [second.loads, first.loads, Tally.plus, UInt64.ofNat_add, UInt64.add_assoc]
  failures := by rw [second.failures, first.failures, Tally.plus, UInt64.ofNat_add, UInt64.add_assoc]
  evictions := by rw [second.evictions, first.evictions, UInt64.ofNat_add, UInt64.add_assoc]

end Stats

def evictionsIn (removals : List (Removal K V)) : Nat :=
  removals.countP (·.cause.wasEvicted)

namespace Cache

structure Attends (cache : Cache K V τ) : Prop where
  listens : cache.listens = true
  records : cache.recordsStats = true

structure Counts (tally : Tally) (cache cache' : Cache K V τ) : Prop where
  attends : cache'.Attends
  added : ∃ removals, cache'.undelivered = cache.undelivered ++ removals ∧
    cache.stats.Adds tally (evictionsIn removals) cache'.stats

variable {cache t cache' : Cache K V τ} {tally : Tally}

theorem Attends.still {asked : Nat} (attends : cache.Attends) (listens : cache'.listens = cache.listens)
    (records : cache'.recordsStats = cache.recordsStats) (stats : cache'.stats = cache.stats)
    (undelivered : cache'.undelivered = cache.undelivered) : Counts { asked } cache cache' where
  attends := ⟨listens.trans attends.listens, records.trans attends.records⟩
  added := ⟨[], by rw [undelivered, List.append_nil], stats ▸ .refl asked cache.stats⟩

theorem Counts.trans {tally' : Tally} (first : Counts tally cache t) (second : Counts tally' t cache') :
    Counts (tally.plus tally') cache cache' := by
  obtain ⟨removals, queued, added⟩ := first.added
  obtain ⟨removals', queued', added'⟩ := second.added
  refine ⟨second.attends, removals ++ removals', by rw [queued', queued, List.append_assoc], ?_⟩
  rw [evictionsIn, List.countP_append]
  exact added.trans added'

theorem Counts.after (second : Counts tally t cache') (first : Counts {} cache t) : Counts tally cache cache' := by
  simpa [Tally.plus] using first.trans second

theorem Counts.before (first : Counts tally cache t) (second : Counts {} t cache') : Counts tally cache cache' := by
  simpa [Tally.plus] using first.trans second

theorem Attends.count (attends : cache.Attends) {f : Stats → Stats}
    (adds : cache.stats.Adds tally 0 (f cache.stats)) :
    Counts tally cache (cache.count f) := by
  rw [Cache.count, if_pos attends.records]
  exact ⟨⟨attends.listens, attends.records⟩, [], (List.append_nil _).symm, adds⟩

theorem Attends.countHit (attends : cache.Attends) : Counts { found := 1 } cache (cache.count (·.countHit)) :=
  attends.count ⟨rfl, by simp [Stats.countHit], by simp [Stats.countHit], by simp [Stats.countHit],
    by simp [Stats.countHit]⟩

theorem Attends.countMiss (attends : cache.Attends) : Counts { missed := 1 } cache (cache.count (·.countMiss)) :=
  attends.count ⟨by simp [Stats.countMiss], rfl, by simp [Stats.countMiss], by simp [Stats.countMiss],
    by simp [Stats.countMiss]⟩

theorem Attends.countLoad (attends : cache.Attends) (nanos : Nat) :
    Counts { loaded := 1 } cache (cache.count (·.countLoad nanos)) :=
  attends.count ⟨by simp [Stats.countLoad], by simp [Stats.countLoad], rfl, by simp [Stats.countLoad],
    by simp [Stats.countLoad]⟩

theorem Attends.countLoadFailure (attends : cache.Attends) (nanos : Nat) :
    Counts { failed := 1 } cache (cache.count (·.countLoadFailure nanos)) :=
  attends.count ⟨by simp [Stats.countLoadFailure], by simp [Stats.countLoadFailure], by simp [Stats.countLoadFailure],
    rfl, by simp [Stats.countLoadFailure]⟩

theorem Attends.changeSegment (attends : cache.Attends) (index : Nat) (f : Segment K V → Segment K V) :
    Counts {} cache (cache.changeSegment index f) := by
  cases found : cache.shards[index]? with
  | none =>
      rw [changeSegment_of_none found]
      exact attends.still rfl rfl rfl rfl
  | some shard =>
      have records := attends.records
      simp only [Cache.changeSegment, onSegment, found, collect, Cache.count, if_pos records, if_pos attends.listens]
      refine ⟨⟨attends.listens, records⟩, _, rfl, ?_⟩
      constructor <;> simp [Stats.countEvictions, evictionsIn]

structure Tallies (tally : Tally) (cache : Cache K V τ) (result : Cache K V τ × List (Frame K V)) : Prop where
  counts : Counts tally cache result.1
  closed : result.2.all (!·.isOpen) = true

variable {held reach : Reach} {spent : Flight → Prop} {key : Shared K} {flight : Flight} {thread : ThreadId}

theorem conclude_tallies (attends : cache.Attends) (source : Source) (purpose : Purpose V) (outcome : LoadOutcome V) :
    Tallies {} cache (cache.conclude source purpose outcome) := by
  unfold conclude
  split
  all_goals exact ⟨attends.still rfl rfl rfl rfl, rfl⟩

section Work

variable [Clock τ]

theorem Attends.readClock (attends : cache.Attends) : Counts {} cache cache.readClock.2 :=
  attends.still rfl rfl rfl rfl

theorem runLoader_tallies (attends : cache.Attends) (key : Shared K) (flight : Flight) (source : Source)
    (purpose : Purpose V) : Tallies {} cache (cache.runLoader key flight source purpose) :=
  ⟨attends.readClock, rfl⟩

theorem reload_tallies (attends : cache.Attends) (key : Shared K) (flight : Flight) (old : Shared V) :
    Tallies {} cache (cache.reload key flight old) := by
  unfold reload
  split
  · exact runLoader_tallies attends key flight .bound (.renew old)
  · exact ⟨attends.still rfl rfl rfl rfl, rfl⟩
  · exact ⟨attends.still rfl rfl rfl rfl, rfl⟩

theorem answer_tallies (attends : cache.Attends) (key : Shared K) (source : Source) (value : Shared V)
    (renewal : Option (Flight × Shared V)) : Tallies {} cache (cache.answer key source value renewal) := by
  cases renewal with
  | none => exact ⟨attends.still rfl rfl rfl rfl, rfl⟩
  | some renewal =>
      cases source with
      | given => exact runLoader_tallies attends key renewal.1 .given (.renew renewal.2)
      | bound => exact reload_tallies attends key renewal.1 renewal.2

variable [DecidableEq K]

theorem giveUp_tallies (attends : cache.Attends) (reach : Reach) (key : Shared K) (flight : Flight) :
    Tallies {} cache (cache.giveUp reach key flight) :=
  ⟨(attends.readClock.attends.changeSegment _ _).after attends.readClock, rfl⟩

theorem endLoader_tallies (attends : cache.Attends) (reach : Reach) (key : Shared K) (flight : Flight) (started : Nat)
    (source : Source) (purpose : Purpose V) (ending : LoaderEnd V) :
    Tallies ending.tally cache (cache.endLoader reach key flight started source purpose ending) := by
  have ticked := attends.readClock
  have loaded (nanos : Nat) : Counts { loaded := 1 } cache (cache.readClock.2.count (·.countLoad nanos)) :=
    (ticked.attends.countLoad nanos).after ticked
  have failed (nanos : Nat) : Counts { failed := 1 } cache (cache.readClock.2.count (·.countLoadFailure nanos)) :=
    (ticked.attends.countLoadFailure nanos).after ticked
  cases ending with
  | value => exact ⟨(loaded _).before ((loaded _).attends.changeSegment _ _), rfl⟩
  | nothing | failed => exact ⟨(failed _).before ((failed _).attends.changeSegment _ _), rfl⟩
  | panicked message =>
      have gaveUp := giveUp_tallies (failed (cache.readClock.1 - started)).attends reach key flight
      exact ⟨(failed _).before gaveUp.counts, rfl⟩

def tallyLookup (cache : Cache K V τ) (reach : Reach) (now : Nat) (key : K) : Tally :=
  if cache.holdsAt reach now key then { found := 1 } else { missed := 1 }

/-- A lookup for which a load is to be claimed is decided by the claim. -/
def tallyOf (cache : Cache K V τ) (reach : Reach) : Frame K V → Tally
  | .start (.lookup key) => cache.tallyLookup reach cache.readClock.1 key
  | .find key _ =>
      match cache.finding reach key.data with
      | .nothing => {}
      | _ => cache.tallyLookup reach cache.readClock.1 key.data
  | .claim key _ now => cache.tallyLookup reach now key.data
  | .renewed _ none => { asked := 1 }
  | _ => {}

omit [Clock τ] in
theorem made_tallyLookup (cache : Cache K V τ) (reach : Reach) (now : Nat) (key : K) :
    (cache.tallyLookup reach now key).found + (cache.tallyLookup reach now key).missed =
      1 + (cache.tallyLookup reach now key).asked := by
  unfold tallyLookup
  split <;> rfl

theorem holdsAt_eq_false {key : K} (missed : ∀ value refresh, cache.finding reach key ≠ .live value refresh) :
    cache.holdsAt reach cache.readClock.1 key = false :=
  Bool.eq_false_iff.mpr fun holds => by
    obtain ⟨value, refresh, live⟩ := (cache.live_iff_holdsAt reach key).mpr holds
    exact missed value refresh live

omit [DecidableEq K] in
theorem countRead_tallies (attends : cache.Attends) (reach : Reach) (segment : Nat) :
    Tallies {} cache (cache.countRead reach segment) := by
  have noted : Counts {} cache (cache.readNoted segment) := attends.still rfl rfl rfl rfl
  have counting := cache.counting reach segment
  generalize cache.countRead reach segment = result at counting ⊢
  cases counting with
  | due =>
      have ticked := noted.attends.readClock
      exact ⟨((ticked.attends.changeSegment _ _).after ticked).after noted, rfl⟩
  | busy | waiting => exact ⟨noted, rfl⟩

theorem lookup_tallies (attends : cache.Attends) (reach : Reach) (key : K) :
    Tallies (cache.tallyLookup reach cache.readClock.1 key) cache (cache.lookup reach key) := by
  have ticked := attends.readClock
  have read : Counts {} cache (cache.looked reach key) := (ticked.attends.changeSegment (cache.segmentOf key)
    ((Operation.read key).run cache.hash reach cache.readClock.1)).after ticked
  have looked {f : Stats → Stats} {tally : Tally}
      (counted : Counts tally (cache.looked reach key) ((cache.looked reach key).count f)) (value : Option (Shared V)) :
      Tallies tally cache ((((cache.looked reach key).count f).countRead reach (cache.segmentOf key)).1,
        (((cache.looked reach key).count f).countRead reach (cache.segmentOf key)).2 ++ [.give (.value value)]) := by
    have counted' := countRead_tallies counted.attends reach (cache.segmentOf key)
    refine ⟨(counted.after read).before counted'.counts, ?_⟩
    rw [List.all_append, counted'.closed]
    rfl
  have looking := cache.looking reach key
  generalize cache.lookup reach key = result at looking ⊢
  unfold tallyLookup
  cases looking with
  | served live =>
      rw [(cache.live_iff_holdsAt reach key).mp ⟨_, _, live⟩, if_pos rfl]
      exact looked read.attends.countHit _
  | missed other =>
      rw [holdsAt_eq_false other, if_neg Bool.false_ne_true]
      exact looked read.attends.countMiss _

structure Reckons (tally : Tally) (cache : Cache K V τ) (frame : Frame K V)
    (result : Cache K V τ × List (Frame K V)) : Prop where
  counted : ∃ found missed, Counts { tally with found, missed } cache result.1 ∧
    found + result.2.countP (·.isLateHit) = tally.found + frame.isLateHit.toNat ∧
    missed + result.2.countP (·.isLateMiss) = tally.missed + frame.isLateMiss.toNat
  asked : result.2.countP (·.isQuestion) + (tally.found + tally.missed) = frame.isQuestion.toNat + tally.asked
  secure : result.2.Pairwise fun first later => first.delivers = true ∨ later.isOpen = false

omit [Clock τ] [DecidableEq K] in
theorem closed_iff {frames : List (Frame K V)} :
    frames.all (!·.isOpen) = true ↔ ∀ frame ∈ frames, frame.isOpen = false := by
  simp

omit [Clock τ] [DecidableEq K] in
theorem countP_of_closed {frames : List (Frame K V)} (closed : frames.all (!·.isOpen) = true) :
    frames.countP (·.isQuestion) = 0 ∧ frames.countP (·.isLateHit) = 0 ∧ frames.countP (·.isLateMiss) = 0 := by
  rw [closed_iff] at closed
  refine ⟨?_, ?_, ?_⟩
  · exact List.countP_eq_zero.mpr fun frame member => by simp [(Frame.of_not_isOpen (closed frame member)).1]
  · exact List.countP_eq_zero.mpr fun frame member => by simp [(Frame.of_not_isOpen (closed frame member)).2.1]
  · exact List.countP_eq_zero.mpr fun frame member => by simp [(Frame.of_not_isOpen (closed frame member)).2.2]

omit [Clock τ] [DecidableEq K] in
theorem Tallies.reckons {frame : Frame K V} {found missed : Nat} {result : Cache K V τ × List (Frame K V)}
    (tallies : Tallies { tally with found, missed } cache result)
    (hits : found = tally.found + frame.isLateHit.toNat) (misses : missed = tally.missed + frame.isLateMiss.toNat)
    (asked : tally.found + tally.missed = frame.isQuestion.toNat + tally.asked) : Reckons tally cache frame result := by
  obtain ⟨questions, lateHits, lateMisses⟩ := countP_of_closed tallies.closed
  have closed := closed_iff.mp tallies.closed
  refine ⟨⟨found, missed, tallies.counts, ?_, ?_⟩, ?_, ?_⟩
  · rw [lateHits, hits, Nat.add_zero]
  · rw [lateMisses, misses, Nat.add_zero]
  · rw [questions, asked, Nat.zero_add]
  · exact List.pairwise_of_forall_mem_list fun _ _ later member => .inr (closed later member)

theorem find_reckons (attends : cache.Attends) (reach : Reach) (key : Shared K) (source : Source) :
    Reckons (cache.tallyOf reach (.find key source)) cache (.find key source) (cache.find reach key source) := by
  have ticked := attends.readClock
  have read : Counts {} cache (cache.looked reach key.data) :=
    (ticked.attends.changeSegment (cache.segmentOf key.data)
      ((Operation.read key.data).run cache.hash reach cache.readClock.1)).after ticked
  have live := cache.live_iff_holdsAt reach key.data
  have seeking := cache.seeking reach key source
  generalize cache.find reach key source = result at seeking ⊢
  unfold tallyOf
  cases seeking with
  | served found | overdue found =>
      simp only [found, tallyLookup, live.mp ⟨_, _, found⟩, if_pos]
      exact Tallies.reckons ⟨read.attends.countHit.after read, rfl⟩ rfl rfl rfl
  | joined pending =>
      have missed : cache.holdsAt reach cache.readClock.1 key.data = false := holdsAt_eq_false (by simp [pending])
      simp only [pending, tallyLookup, missed, if_neg Bool.false_ne_true]
      exact Tallies.reckons ⟨read.attends.countMiss.after read, rfl⟩ rfl rfl rfl
  | missed nothing =>
      simp only [nothing]
      exact ⟨⟨0, 0, read, rfl, rfl⟩, rfl, List.pairwise_singleton ..⟩

omit [Clock τ] in
theorem claim_reckons (attends : cache.Attends) (tended : cache.Tended held spent)
    (inside : cache.segmentOf key.data < cache.shards.size) (thread : ThreadId) (source : Source) (now : Nat) :
    Reckons (cache.tallyLookup reach now key.data) cache (.claim key source now)
      (cache.claim reach thread key source now) := by
  have found := Array.getElem?_eq_getElem inside
  generalize cache.shards[cache.segmentOf key.data] = shard at found
  have known := tended _ shard found
  have needless := known.consistent.needless_iff (known.keyed reach) now thread key
  have holds : cache.holdsAt reach now key.data =
      shard.segment.contains reach now (cache.hash key.data) key.data := by
    rw [holdsAt, found]
    rfl
  have counts := attends.changeSegment (cache.segmentOf key.data)
    ((Operation.claim thread key).run cache.hash reach now)
  rw [claim_eq, found, tallyLookup, holds]
  dsimp only [Option.elim_some]
  generalize (shard.segment.claim reach now thread key (cache.hash key.data)).1 = claim at needless ⊢
  cases claim with
  | needless value =>
      rw [needless.mp ⟨value, rfl⟩, if_pos rfl]
      exact ⟨⟨0, 0, counts, rfl, rfl⟩, rfl, by simp [Frame.delivers]⟩
  | granted | taken =>
      have missed : ¬ shard.segment.contains reach now (cache.hash key.data) key.data = true :=
        fun there => by simpa using needless.mpr there
      rw [if_neg missed]
      exact ⟨⟨0, 0, counts, rfl, rfl⟩, rfl, by simp [Frame.delivers]⟩

omit [DecidableEq K] in
theorem takeClaim_reckons (attends : cache.Attends) (key : Shared K) (source : Source) (segment : Nat)
    (claim : Claim V) :
    Reckons {} cache (.claimed key source segment claim) (cache.takeClaim key source segment claim) := by
  cases claim with
  | needless value => exact Tallies.reckons ⟨attends.countHit, rfl⟩ rfl rfl rfl
  | taken load => exact Tallies.reckons ⟨attends.countMiss, rfl⟩ rfl rfl rfl
  | granted load =>
      have ran := runLoader_tallies attends.countMiss.attends key ⟨segment, load⟩ source .fetch
      exact Tallies.reckons ⟨attends.countMiss.before ran.counts, rfl⟩ rfl rfl rfl

omit [Clock τ] in
theorem renew_reckons (attends : cache.Attends) (reach : Reach) (thread : ThreadId) (key : Shared K) (source : Source)
    (now : Nat) (value : Shared V) :
    Reckons {} cache (.renew key source now value) (cache.renew reach thread key source now value) := by
  rw [renew_eq]
  exact Tallies.reckons ⟨attends.changeSegment _ _, rfl⟩ rfl rfl rfl

theorem put_tallies (attends : cache.Attends) (reach : Reach) (key : Shared K) (value : Shared V) (onlyIfNew : Bool) :
    Tallies {} cache (cache.put reach key value onlyIfNew) := by
  have ticked := attends.readClock
  refine ⟨?_, rfl⟩
  rw [put_fst]
  exact (ticked.attends.changeSegment _ _).after ticked

theorem remove_counts (attends : cache.Attends) (reach : Reach) (key : K) :
    Counts {} cache (cache.remove reach key).2 := by
  have ticked := attends.readClock
  rw [remove_snd]
  exact (ticked.attends.changeSegment _ _).after ticked

omit [Clock τ] [DecidableEq K] in
theorem nextReload?_counts (attends : cache.Attends) {reload : Reload K V}
    (next : cache.nextReload? = some (reload, t)) :
    Counts {} cache t := by
  obtain ⟨background, rfl, _⟩ := tasks_of_next next
  exact attends.still rfl rfl rfl rfl

theorem startRequest_reckons (attends : cache.Attends) (reach : Reach) (thread : ThreadId) (request : Request K V) :
    Reckons (cache.tallyOf reach (.start request)) cache (.start request)
      (cache.startRequest reach thread request) := by
  have idle : Counts {} cache cache := attends.still rfl rfl rfl rfl
  have ticked := attends.readClock
  cases request with
  | lookup key => exact (lookup_tallies attends reach key).reckons rfl rfl (cache.made_tallyLookup reach _ key)
  | get | load =>
      exact ⟨⟨0, 0, idle, rfl, rfl⟩, rfl, .cons nofun .nil⟩
  | loadAll keys =>
      cases keys with
      | nil => exact Tallies.reckons ⟨idle, rfl⟩ rfl rfl rfl
      | cons key rest =>
          exact ⟨⟨0, 0, idle, rfl, rfl⟩, rfl, by simp [startRequest, Frame.isOpen]⟩
  | refresh key =>
      dsimp only [startRequest]
      rw [onSegment_snd]
      exact Tallies.reckons ⟨(ticked.attends.changeSegment _ _).after ticked, rfl⟩ rfl rfl rfl
  | insert key value => exact (put_tallies attends reach key value false).reckons rfl rfl rfl
  | insertIfNew key value => exact (put_tallies attends reach key value true).reckons rfl rfl rfl
  | remove key => exact Tallies.reckons ⟨remove_counts attends reach key, rfl⟩ rfl rfl rfl
  | removeAll | clear | cleanUp | releaseSoft => exact Tallies.reckons ⟨idle, rfl⟩ rfl rfl rfl
  | contains | entries => exact Tallies.reckons ⟨ticked, rfl⟩ rfl rfl rfl
  | runReload =>
      dsimp only [startRequest]
      split
      · exact Tallies.reckons ⟨idle, rfl⟩ rfl rfl rfl
      · rename_i reload t next
        have taken := nextReload?_counts attends next
        have owned : Counts {} t (t.modifyLoad reload.flight (·.setOwner (some thread))) :=
          taken.attends.still rfl rfl rfl rfl
        have ran := runLoader_tallies owned.attends reload.key reload.flight .bound (.renewLater reload.old)
        exact Tallies.reckons ⟨(ran.counts.after owned).after taken, ran.closed⟩ rfl rfl rfl
  | dropReload =>
      dsimp only [startRequest]
      split
      · exact Tallies.reckons ⟨idle, rfl⟩ rfl rfl rfl
      · rename_i next
        exact Tallies.reckons ⟨nextReload?_counts attends next, rfl⟩ rfl rfl rfl

theorem work_reckons (attends : cache.Attends) (tended : cache.Tended held spent)
    (chosen : ∀ key, cache.segmentOf key < cache.shards.size) (thread : ThreadId) {frame : Frame K V}
    (busy : frame.isWork = true) :
    Reckons (cache.tallyOf reach frame) cache frame (cache.work reach thread frame) := by
  have idle : Counts {} cache cache := attends.still rfl rfl rfl rfl
  cases frame with
  | deliver | delivering | listening | loading | unwind | give => cases busy
  | start request => exact startRequest_reckons attends reach thread request
  | find key source => exact find_reckons attends reach key source
  | claim key source now => exact claim_reckons attends tended (chosen key.data) thread source now
  | renew key source now value => exact renew_reckons attends reach thread key source now value
  | found key source value renewal =>
      have counted := countRead_tallies attends reach (cache.segmentOf key.data)
      refine Tallies.reckons ⟨counted.counts, ?_⟩ rfl rfl rfl
      rw [work, List.all_append, counted.closed]
      rfl
  | answer key source value renewal => exact (answer_tallies attends key source value renewal).reckons rfl rfl rfl
  | claimed key source segment claim => exact takeClaim_reckons attends key source segment claim
  | await key flight =>
      dsimp only [work]
      repeat' split
      all_goals exact Tallies.reckons ⟨idle, rfl⟩ rfl rfl rfl
  | settle | holding | gather | renewing | fetching =>
      exact Tallies.reckons ⟨attends.still rfl rfl rfl rfl, rfl⟩ rfl rfl rfl
  | conclude source purpose outcome => exact (conclude_tallies attends source purpose outcome).reckons rfl rfl rfl
  | cancel key flight => exact (giveUp_tallies attends reach key flight).reckons rfl rfl rfl
  | renewed key renewal =>
      cases renewal with
      | none =>
          exact ⟨⟨0, 0, attends.still rfl rfl rfl rfl, rfl, rfl⟩, rfl, by simp [work, Frame.isOpen]⟩
      | some renewal => exact Tallies.reckons ⟨idle, rfl⟩ rfl rfl rfl
  | removing keys =>
      cases keys with
      | nil => exact Tallies.reckons ⟨idle, rfl⟩ rfl rfl rfl
      | cons key rest => exact Tallies.reckons ⟨remove_counts attends reach key, rfl⟩ rfl rfl rfl
  | clearing segment =>
      dsimp only [work]
      split
      · exact Tallies.reckons ⟨attends.changeSegment _ _, rfl⟩ rfl rfl rfl
      · exact Tallies.reckons ⟨attends.still rfl rfl rfl rfl, rfl⟩ rfl rfl rfl
  | sweeping segment =>
      dsimp only [work]
      split
      · have ticked := attends.readClock
        exact Tallies.reckons ⟨(ticked.attends.changeSegment _ _).after ticked, rfl⟩ rfl rfl rfl
      · exact Tallies.reckons ⟨idle, rfl⟩ rfl rfl rfl
  | releasing segment =>
      dsimp only [work]
      split
      · exact Tallies.reckons ⟨attends.changeSegment _ _, rfl⟩ rfl rfl rfl
      · exact Tallies.reckons ⟨idle, rfl⟩ rfl rfl rfl

omit [Clock τ] [DecidableEq K] in
theorem passOn_reckons (attends : cache.Attends) (reply : Reply K V) (frame : Frame K V) :
    Reckons { asked := (frame.asksNext reply).toNat } cache (.give reply) (cache.passOn reply frame) := by
  have idle : Counts {} cache cache := attends.still rfl rfl rfl rfl
  cases frame with
  | gather key rest gathered =>
      cases rest with
      | nil =>
          cases reply with
          | outcome outcome => cases outcome <;> exact Tallies.reckons ⟨idle, rfl⟩ rfl rfl rfl
          | done | flag | value | entries | gathered => exact Tallies.reckons ⟨idle, rfl⟩ rfl rfl rfl
      | cons next rest =>
          cases reply with
          | outcome outcome =>
              cases outcome with
              | error => exact Tallies.reckons ⟨idle, rfl⟩ rfl rfl rfl
              | ok value =>
                  exact ⟨⟨0, 0, attends.still rfl rfl rfl rfl, rfl, rfl⟩, rfl, by simp [passOn, Frame.isOpen]⟩
          | done | flag | value | entries | gathered => exact Tallies.reckons ⟨idle, rfl⟩ rfl rfl rfl
  | fetching =>
      dsimp only [passOn]
      split
      all_goals exact Tallies.reckons ⟨attends.still rfl rfl rfl rfl, rfl⟩ rfl rfl rfl
  | _ => exact Tallies.reckons ⟨idle, rfl⟩ rfl rfl rfl

end Work

end Cache
end SegmentedCache
