import SegmentedCache.Proofs.Cache.Moves

namespace SegmentedCache.Cache

/-!
What the requests to a cache come to. Lookups go by what their read finds.
-/

variable {K V τ : Type} [Clock τ] [DecidableEq K]

def looked (cache : Cache K V τ) (reach : Reach) (key : K) : Cache K V τ :=
  cache.readClock.2.changeSegment (cache.segmentOf key)
    ((Operation.read key).run cache.hash reach cache.readClock.1)

def finding (cache : Cache K V τ) (reach : Reach) (key : K) : Finding V :=
  (cache.shards[cache.segmentOf key]?).elim .nothing fun shard =>
    (shard.segment.read reach cache.readClock.1 (cache.hash key) key).1

theorem onSegment_read (cache : Cache K V τ) (reach : Reach) (key : K) :
    cache.readClock.2.onSegment (cache.segmentOf key) .nothing
      (·.read reach cache.readClock.1 (cache.hash key) key) = (cache.finding reach key, cache.looked reach key) :=
  Prod.ext (onSegment_fst ..) (onSegment_snd ..)

theorem finding_eq {cache : Cache K V τ} {key : K} {shard : Shard K V}
    (found : cache.shards[cache.segmentOf key]? = some shard) (reach : Reach) :
    cache.finding reach key = (shard.segment.read reach cache.readClock.1 (cache.hash key) key).1 := by
  rw [finding, found, Option.elim_some]

def holdsAt (cache : Cache K V τ) (reach : Reach) (now : Nat) (key : K) : Bool :=
  (cache.shards[cache.segmentOf key]?).any fun shard => shard.segment.contains reach now (cache.hash key) key

theorem live_iff_holdsAt (cache : Cache K V τ) (reach : Reach) (key : K) :
    (∃ value refresh, cache.finding reach key = .live value refresh) ↔
      cache.holdsAt reach cache.readClock.1 key = true := by
  rw [finding, holdsAt]
  cases cache.shards[cache.segmentOf key]? with
  | none => simp
  | some shard => exact Segment.read_live_iff ..

def readNoted (cache : Cache K V τ) (index : Nat) : Cache K V τ :=
  { cache with shards := cache.shards.modify index fun shard => { shard with reads := shard.reads + 1 } }

inductive Counting (cache : Cache K V τ) (reach : Reach) (index : Nat) :
    Cache K V τ × List (Frame K V) → Prop where
  | due (free : cache.contended = false) (due : cache.isDue index = true) :
      Counting cache reach index
        ((cache.readNoted index).readClock.2.changeSegment index (·.cleanUp reach cache.readClock.1), [.deliver])
  | busy (taken : cache.contended = true) (due : cache.isDue index = true) :
      Counting cache reach index (cache.readNoted index, [.deliver])
  | waiting (waiting : cache.isDue index = false) : Counting cache reach index (cache.readNoted index, [])

omit [DecidableEq K] in
theorem counting (cache : Cache K V τ) (reach : Reach) (index : Nat) :
    Counting cache reach index (cache.countRead reach index) := by
  unfold countRead
  dsimp only
  split
  · rename_i due
    split
    · rename_i taken
      exact .busy taken due
    · rename_i free
      exact .due (Bool.not_eq_true _ ▸ free) due
  · rename_i waiting
    exact .waiting (Bool.not_eq_true _ ▸ waiting)

theorem small_reads (reads : Nat) : reads % readsPerCleanUp < readsPerCleanUp :=
  Nat.mod_lt reads (by decide)

omit [Clock τ] [DecidableEq K] in
theorem reads_of_waiting {cache : Cache K V τ} {index : Nat}
    (waiting : cache.isDue index = false) {shard : Shard K V} (found : cache.shards[index]? = some shard) :
    (shard.reads + 1) % readsPerCleanUp = shard.reads % readsPerCleanUp + 1 := by
  have small := small_reads shard.reads
  simp only [isDue, found, Option.any_some, decide_eq_false_iff_not] at waiting
  unfold readsPerCleanUp at *
  omega

inductive Looking (cache : Cache K V τ) (reach : Reach) (key : K) : Cache K V τ × List (Frame K V) → Prop where
  | served {value : Shared V} {refresh : Bool} (live : cache.finding reach key = .live value refresh) :
      Looking cache reach key
        ((((cache.looked reach key).count (·.countHit)).countRead reach (cache.segmentOf key)).1,
          (((cache.looked reach key).count (·.countHit)).countRead reach (cache.segmentOf key)).2 ++
            [.give (.value (some value))])
  | missed (other : ∀ value refresh, cache.finding reach key ≠ .live value refresh) :
      Looking cache reach key
        ((((cache.looked reach key).count (·.countMiss)).countRead reach (cache.segmentOf key)).1,
          (((cache.looked reach key).count (·.countMiss)).countRead reach (cache.segmentOf key)).2 ++
            [.give (.value none)])

theorem looking (cache : Cache K V τ) (reach : Reach) (key : K) :
    Looking cache reach key (cache.lookup reach key) := by
  unfold lookup
  dsimp only
  rw [onSegment_read]
  cases found : cache.finding reach key with
  | live value refresh => exact .served found
  | pending | nothing => exact .missed fun _ _ live => by cases found.symm.trans live

inductive Seeking (cache : Cache K V τ) (reach : Reach) (key : Shared K) (source : Source) :
    Cache K V τ × List (Frame K V) → Prop where
  | served {value : Shared V} (live : cache.finding reach key.data = .live value false) :
      Seeking cache reach key source
        ((cache.looked reach key.data).count (·.countHit), [.found key source value none])
  | overdue {value : Shared V} (live : cache.finding reach key.data = .live value true) :
      Seeking cache reach key source
        ((cache.looked reach key.data).count (·.countHit), [.renew key source cache.readClock.1 value])
  | joined {load : LoadId} (pending : cache.finding reach key.data = .pending load) :
      Seeking cache reach key source
        ((cache.looked reach key.data).count (·.countMiss), [.await key ⟨cache.segmentOf key.data, load⟩])
  | missed (nothing : cache.finding reach key.data = .nothing) :
      Seeking cache reach key source (cache.looked reach key.data, [.claim key source cache.readClock.1])

theorem seeking (cache : Cache K V τ) (reach : Reach) (key : Shared K) (source : Source) :
    Seeking cache reach key source (cache.find reach key source) := by
  unfold find
  dsimp only
  rw [onSegment_read]
  cases found : cache.finding reach key.data with
  | live value refresh =>
      cases refresh with
      | false => exact .served found
      | true => exact .overdue found
  | pending load => exact .joined found
  | nothing => exact .missed found

omit [Clock τ] in
theorem claim_eq (cache : Cache K V τ) (reach : Reach) (thread : ThreadId) (key : Shared K) (source : Source)
    (now : Nat) : cache.claim reach thread key source now =
      (cache.changeSegment (cache.segmentOf key.data) ((Operation.claim thread key).run cache.hash reach now),
        (cache.shards[cache.segmentOf key.data]?).elim [] fun shard => [.deliver, .claimed key source
          (cache.segmentOf key.data) (shard.segment.claim reach now thread key (cache.hash key.data)).1]) := by
  unfold claim
  dsimp only
  rw [onSegment_fst, onSegment_snd]
  cases cache.shards[cache.segmentOf key.data]? <;> rfl

omit [Clock τ] in
theorem renew_eq (cache : Cache K V τ) (reach : Reach) (thread : ThreadId) (key : Shared K) (source : Source)
    (now : Nat) (value : Shared V) : cache.renew reach thread key source now value =
      (cache.changeSegment (cache.segmentOf key.data)
          ((Operation.claimRefresh thread key false).run cache.hash reach now),
        [.deliver, .found key source value
          ((cache.onSegment (cache.segmentOf key.data) none
            (·.claimRefresh reach now thread key (cache.hash key.data) false)).1.map fun renewal =>
              (⟨cache.segmentOf key.data, renewal.1⟩, renewal.2))]) := by
  unfold renew
  dsimp only
  rw [onSegment_snd]
  rfl

theorem put_fst (cache : Cache K V τ) (reach : Reach) (key : Shared K) (value : Shared V) (onlyIfNew : Bool) :
    (cache.put reach key value onlyIfNew).1 = cache.readClock.2.changeSegment (cache.segmentOf key.data)
      ((Operation.insert key value onlyIfNew).run cache.hash reach cache.readClock.1) :=
  onSegment_snd cache.readClock.2 _ none (·.insert reach cache.readClock.1 key (cache.hash key.data) value onlyIfNew)

theorem remove_snd (cache : Cache K V τ) (reach : Reach) (key : K) :
    (cache.remove reach key).2 = cache.readClock.2.changeSegment (cache.segmentOf key)
      ((Operation.remove key).run cache.hash reach cache.readClock.1) :=
  onSegment_snd ..

end SegmentedCache.Cache
