import SegmentedCache.Proofs.Cache.Pending
import SegmentedCache.Proofs.Cache.Serving
import SegmentedCache.Proofs.Cache.Settlement
import SegmentedCache.Proofs.Cache.Weights
import SegmentedCache.Proofs.Segment.Recency

namespace SegmentedCache

/-!
Runs in which entries are evicted in the order of use. One thread does everything, the clock does not go back, and where
entries do not grow too old, no value is written while reads of other keys wait to be replayed.
-/

variable {K V τ : Type}

def Frame.put? : Frame K V → Option (Shared K × Shared V × Bool)
  | .start (.insert key value) => some (key, value, false)
  | .start (.insertIfNew key value) => some (key, value, true)
  | _ => none

namespace Cache

section Ranked

variable [Clock τ]

/-- The queues of all segments are in order, and the clock does not go back behind `now`. Of the reads of a segment no
more wait to be replayed than were counted since its last housekeeping, and some `extra` ones. -/
structure Ranked (now : Nat) (extra : Nat → Nat) (cache : Cache K V τ) : Prop where
  alone : cache.contended = false
  forward : Clock.Forward cache.clock
  ahead : now ≤ (Clock.read cache.clock).1
  shards : cache.Each fun index shard =>
    shard.segment.Ranked now (shard.reads % readsPerCleanUp + extra index)

namespace Ranked

variable {cache cache' : Cache K V τ} {now : Nat} {extra extra' : Nat → Nat} {index : Nat} {reach : Reach}

theorem sameStore (ranked : cache.Ranked now extra) (same : SameStore cache cache') : cache'.Ranked now extra := by
  refine ⟨same.contended ▸ ranked.alone, same.clock ▸ ranked.forward, same.clock ▸ ranked.ahead,
    fun index shard found => ?_⟩
  exact ranked.shards index shard (same.shards ▸ found)

theorem mono (ranked : cache.Ranked now extra) (le : ∀ index, extra index ≤ extra' index) :
    cache.Ranked now extra' :=
  { ranked with
    shards := fun index shard found =>
      (ranked.shards index shard found).mono le_rfl (Nat.add_le_add_left (le index) _) }

theorem readClock (ranked : cache.Ranked now extra) : cache.readClock.2.Ranked cache.readClock.1 extra where
  alone := ranked.alone
  forward := ranked.forward.next.2
  ahead := ranked.forward.next.1
  shards index shard found := (ranked.shards index shard found).mono ranked.ahead le_rfl

theorem count (ranked : cache.Ranked now extra) (f : Stats → Stats) : (cache.count f).Ranked now extra := by
  obtain ⟨stats, counted⟩ := count_eq cache f
  rw [counted]
  exact ranked.sameStore ⟨rfl, rfl, rfl, rfl, rfl⟩

theorem modifyLoad (ranked : cache.Ranked now extra) (flight : Flight) (f : Load K V → Load K V) :
    (cache.modifyLoad flight f).Ranked now extra := by
  refine ⟨ranked.alone, ranked.forward, ranked.ahead,
    ranked.shards.modify flight.segment fun index shard holds => ?_⟩
  exact holds.rebooked (holds.consistent.modifyLoad flight.load f) rfl rfl

theorem changeSegment (ranked : cache.Ranked now extra) {f : Segment K V → Segment K V}
    (others : ∀ other, other ≠ index → extra' other = extra other)
    (kept : ∀ shard, cache.shards[index]? = some shard →
      (f shard.segment).Ranked now (shard.reads % readsPerCleanUp + extra' index)) :
    (cache.changeSegment index f).Ranked now extra' := by
  cases found : cache.shards[index]? with
  | none =>
      rw [changeSegment_of_none found]
      refine ⟨ranked.alone, ranked.forward, ranked.ahead, fun other shard found' => ?_⟩
      dsimp only
      rw [others other fun same => by cases (same ▸ found').symm.trans found]
      exact ranked.shards other shard found'
  | some shard =>
      obtain ⟨stats, log, changed⟩ := changeSegment_eq found f
      rw [changed]
      refine ⟨ranked.alone, ranked.forward, ranked.ahead, fun other shard' found' => ?_⟩
      rw [Array.getElem?_setIfInBounds] at found'
      split at found'
      · rename_i here
        split at found'
        · cases found'
          subst here
          have after := kept shard found
          exact after.rebooked after.consistent.collected rfl rfl
        · cases found'
      · rename_i different
        rw [others other (Ne.symm different)]
        exact ranked.shards other shard' found'

theorem operate (ranked : cache.Ranked now extra) (index : Nat) {f : Segment K V → Segment K V}
    (kept : ∀ s noted, Segment.Ranked now noted s → (f s).Ranked now noted) :
    (cache.changeSegment index f).Ranked now extra :=
  ranked.changeSegment (fun _ _ => rfl) fun shard found => kept _ _ (ranked.shards index shard found)

theorem looked [DecidableEq K] (ranked : cache.Ranked now extra) {key : K}
    (room : extra (cache.segmentOf key) ≤ 1) (reach : Reach) :
    (cache.looked reach key).Ranked cache.readClock.1
      fun other => (if cache.segmentOf key = other then 1 else 0) + extra other := by
  have ticked := ranked.readClock
  refine ticked.changeSegment (fun other different => ?_) fun shard found => ?_
  · rw [if_neg (Ne.symm different), Nat.zero_add]
  · have noted : shard.reads % readsPerCleanUp + extra (cache.segmentOf key) < Segment.readLogLimit := by
      have small := Nat.mod_lt shard.reads (show 0 < readsPerCleanUp by decide)
      exact (Nat.add_lt_add_of_lt_of_le small room).trans_le (by decide)
    rw [if_pos rfl, Nat.add_left_comm, Nat.add_comm 1]
    exact (ticked.shards _ shard found).read reach (cache.hash key) key noted

theorem noteRead (ranked : cache.Ranked now extra) (index : Nat)
    (others : ∀ other, other ≠ index → extra' other = extra other)
    (enough : ∀ shard, cache.shards[index]? = some shard →
      shard.reads % readsPerCleanUp + extra index ≤ (shard.reads + 1) % readsPerCleanUp + extra' index) :
    (cache.readNoted index).Ranked now extra' := by
  refine ⟨ranked.alone, ranked.forward, ranked.ahead, fun other shard found => ?_⟩
  rw [readNoted, Array.getElem?_modify] at found
  split at found
  · rename_i here
    subst here
    obtain ⟨earlier, found', rfl⟩ := Option.map_eq_some_iff.mp found
    exact (ranked.shards index earlier found').mono le_rfl (enough earlier found')
  · rename_i different
    rw [others other (Ne.symm different)]
    exact ranked.shards other shard found

theorem countRead (ranked : cache.Ranked now fun other => (if index = other then 1 else 0) + extra other)
    (reach : Reach) : ∃ later, (cache.countRead reach index).1.Ranked later extra := by
  have counting := cache.counting reach index
  generalize cache.countRead reach index = result at counting ⊢
  cases counting with
  | due =>
      -- what waits before housekeeping does not matter after it
      have noted : (cache.readNoted index).Ranked now
          (fun other => (if index = other then readsPerCleanUp else 0) + extra other) := by
        apply ranked.noteRead index (fun other different => by simp [Ne.symm different])
        intro shard _
        have small := small_reads shard.reads
        simp only [↓reduceIte]
        omega
      refine ⟨_, noted.readClock.changeSegment (fun other different => ?_) fun shard found => ?_⟩
      · simp [Ne.symm different]
      · exact ((noted.readClock.shards index shard found).cleanUp reach).mono le_rfl (Nat.zero_le _)
  | busy taken => cases ranked.alone.symm.trans taken
  | waiting waiting =>
      refine ⟨now, ranked.noteRead index (fun other different => ?_) fun shard found => ?_⟩
      · rw [if_neg (Ne.symm different), Nat.zero_add]
      · have counted := reads_of_waiting waiting found
        simp only [↓reduceIte]
        omega

theorem looked_missed [DecidableEq K] (ranked : cache.Ranked now extra) {reach : Reach} {key : K}
    (missed : ∀ value refresh, cache.finding reach key ≠ .live value refresh) :
    (cache.looked reach key).Ranked cache.readClock.1 extra := by
  refine ranked.readClock.changeSegment (fun _ _ => rfl) fun shard found => ?_
  have found : cache.shards[cache.segmentOf key]? = some shard := found
  rw [finding_eq found] at missed
  rw [show Operation.run cache.hash reach cache.readClock.1 (.read key) shard.segment = shard.segment from
    Segment.read_of_missed missed]
  exact ranked.readClock.shards _ shard found

end Ranked

end Ranked

structure Managed (cache : Cache K V τ) : Prop where
  keyed : cache.Each fun _ shard => ∀ reach, shard.segment.Keyed cache.hash reach
  tracks : cache.Each fun _ shard => shard.segment.bound.isBounded = true → shard.segment.policy.tracksReads = true

section Searches

variable [DecidableEq K] [Clock τ] {cache cache' : Cache K V τ} {now : Nat} {extra extra' : Nat → Nat}
  {reach : Reach} {place : K → Nat}

namespace Ranked

omit [DecidableEq K] in
theorem leaves (ranked : cache.Ranked now extra) (frames : List (Frame K V)) :
    cache.Ranked now fun index => pending place frames index + extra index :=
  ranked.mono fun _ => Nat.le_add_left ..

theorem lookup (ranked : cache.Ranked now extra) (few : ∀ index, extra index ≤ 1) (reach : Reach) (key : K) :
    ∃ later, (cache.lookup reach key).1.Ranked later extra := by
  have noted := ranked.looked (few (cache.segmentOf key)) reach
  have looking := cache.looking reach key
  generalize cache.lookup reach key = result at looking ⊢
  cases looking with
  | served | missed => exact (noted.count _).countRead reach

theorem find (ranked : cache.Ranked now extra) (few : ∀ index, extra index ≤ 1) (reach : Reach) (key : Shared K)
    (source : Source) :
    (cache.find reach key source).1.Ranked cache.readClock.1
        (fun index => pending cache.segmentOf (cache.find reach key source).2 index + extra index) ∧
      ∀ frame ∈ (cache.find reach key source).2, ∀ stamp, frame.stamp? = some stamp →
        stamp = cache.readClock.1 := by
  have noted := ranked.looked (few (cache.segmentOf key.data)) reach
  have seeking := cache.seeking reach key source
  generalize cache.find reach key source = result at seeking ⊢
  cases seeking with
  | served => exact ⟨(noted.count _).mono fun index => by simp [pending, Frame.countsFor], by simp [Frame.stamp?]⟩
  | overdue => exact ⟨(noted.count _).mono fun index => by simp [pending, Frame.countsFor], by simp [Frame.stamp?]⟩
  | joined pending =>
      exact ⟨((ranked.looked_missed (by simp [pending])).count (·.countMiss)).leaves _, by simp [Frame.stamp?]⟩
  | missed nothing => exact ⟨(ranked.looked_missed (by simp [nothing])).leaves _, by simp [Frame.stamp?]⟩

end Ranked

end Searches

/-- No read of another key is still to be replayed where this one belongs, or it is before anything is written. -/
def CaughtUp (cache : Cache K V τ) (key : K) : Prop :=
  ∀ shard, cache.shards[cache.segmentOf key]? = some shard → shard.segment.CaughtUp key

instance [DecidableEq K] (cache : Cache K V τ) (key : K) : Decidable (cache.CaughtUp key) :=
  inferInstanceAs (Decidable (∀ shard ∈ cache.shards[cache.segmentOf key]?, shard.segment.CaughtUp key))

/-- The segment of the key writes the value and evicts others for it in the order of use, and what it reports is to be
delivered. The other segments stay as they are. -/
structure Writes (write : Write K V) (cache cache' : Cache K V τ) : Prop where
  here : ∀ shard, cache.shards[cache.segmentOf write.key.data]? = some shard →
    ∃ s shard', Segment.Written write shard.segment s ∧
      cache'.shards[cache.segmentOf write.key.data]? = some shard' ∧
      shard'.segment = { s with removals := [], growths := [] } ∧
      cache'.undelivered = if cache.listens then cache.undelivered ++ s.removals else cache.undelivered
  elsewhere : ∀ index, index ≠ cache.segmentOf write.key.data → cache'.shards[index]? = cache.shards[index]?

theorem Writes.setCalls {write : Write K V} {cache cache' : Cache K V τ} (writes : Writes write cache cache')
    (thread : ThreadId) (calls : List (Call K V)) : Writes write cache (cache'.setCalls thread calls) :=
  ⟨writes.here, writes.elsewhere⟩

def loaded [Clock τ] (cache : Cache K V τ) (reach : Reach) (key : Shared K) (flight : Flight) (value : Shared V) :
    Write K V :=
  ⟨fun object => reach object || value.id = object, cache.readClock.1, key, value, .load flight.load⟩

section Writes

variable [DecidableEq K] [Clock τ] {cache cache' : Cache K V τ} {now : Nat} {extra extra' : Nat → Nat}
  {reach : Reach} {key : Shared K} {value : Shared V}

namespace Ranked

omit [DecidableEq K] in
theorem writes (ranked : cache.Ranked now extra) (write : Write K V) {f : Segment K V → Segment K V}
    (written : ∀ shard, cache.shards[cache.segmentOf write.key.data]? = some shard → ∀ noted,
      shard.segment.Ranked now noted →
        Segment.Written write shard.segment (f shard.segment) ∧ (f shard.segment).Ranked now noted) :
    Writes write cache (cache.changeSegment (cache.segmentOf write.key.data) f) ∧
      (cache.changeSegment (cache.segmentOf write.key.data) f).Ranked now extra := by
  constructor
  · refine ⟨fun shard found => ?_, fun index different => getElem?_changeSegment_of_ne cache different f⟩
    obtain ⟨shard', found', segment⟩ := getElem?_changeSegment found f
    obtain ⟨_, _, changed⟩ := changeSegment_eq found f
    exact ⟨_, shard', (written shard found _ (ranked.shards _ shard found)).1, found', segment, by rw [changed]⟩
  · refine ranked.changeSegment (fun _ _ => rfl) fun shard found => ?_
    exact (written shard found _ (ranked.shards _ shard found)).2

theorem put (ranked : cache.Ranked now extra) (managed : cache.Managed) (caught : cache.CaughtUp key.data)
    (onlyIfNew : Bool) :
    Writes ⟨reach, cache.readClock.1, key, value, .put onlyIfNew⟩ cache (cache.put reach key value onlyIfNew).1 ∧
      (cache.put reach key value onlyIfNew).1.Ranked cache.readClock.1 extra := by
  have writes := ranked.readClock.writes ⟨reach, cache.readClock.1, key, value, .put onlyIfNew⟩
    (f := (Operation.insert key value onlyIfNew).run cache.hash reach cache.readClock.1)
    fun shard found noted ranked => ranked.insert (managed.keyed _ shard found reach) (managed.tracks _ shard found)
      (caught shard found) onlyIfNew
  rw [put_fst]
  exact ⟨⟨writes.1.here, writes.1.elsewhere⟩, writes.2⟩

theorem claim (ranked : cache.Ranked now extra) (managed : cache.Managed)
    (caught : cache.holdsAt reach now key.data = true → cache.CaughtUp key.data) (thread : ThreadId)
    (source : Source) :
    (cache.claim reach thread key source now).1.Ranked now extra := by
  rw [claim_eq]
  refine ranked.changeSegment (fun _ _ => rfl) fun shard found => ?_
  refine (ranked.shards _ shard found).claim (managed.keyed _ shard found reach) thread fun there => ?_
  exact caught (by rw [holdsAt, found]; exact there) shard found

theorem renew (ranked : cache.Ranked now extra) (reach : Reach) (thread : ThreadId) (key : Shared K) (source : Source)
    (value : Shared V) : (cache.renew reach thread key source now value).1.Ranked now extra := by
  rw [renew_eq]
  exact ranked.operate _ fun _ _ ranked => ranked.claimRefresh thread key _ false

omit [DecidableEq K] in
theorem logged (ranked : cache.Ranked now extra) (event : LogEvent) : (cache.logged event).Ranked now extra :=
  ranked.sameStore ⟨rfl, rfl, rfl, rfl, rfl⟩

theorem remove (ranked : cache.Ranked now extra) (reach : Reach) (key : K) :
    (cache.remove reach key).2.Ranked cache.readClock.1 extra := by
  rw [remove_snd]
  exact ranked.readClock.operate _ fun _ _ ranked => ranked.remove _ key

theorem finishLoad (ranked : cache.Ranked now extra) (managed : cache.Managed) (reach : Reach) {flight : Flight}
    (placed : flight.segment = cache.segmentOf key.data) (caught : cache.CaughtUp key.data) (value : Shared V) :
    Writes ⟨reach, now, key, value, .load flight.load⟩ cache
      (cache.finishLoad reach now key flight (some value)) ∧
      (cache.finishLoad reach now key flight (some value)).Ranked now extra := by
  rw [Cache.finishLoad, placed]
  exact ranked.writes ⟨reach, now, key, value, .load flight.load⟩ fun shard found noted ranked =>
    ranked.finishLoad (managed.keyed _ shard found reach) (managed.tracks _ shard found) (caught shard found)
      flight.load

theorem dropLoad (ranked : cache.Ranked now extra) (reach : Reach) (key : Shared K) (flight : Flight) :
    (cache.finishLoad reach now key flight none).Ranked now extra :=
  ranked.operate flight.segment fun _ _ ranked => ranked.giveUp flight.load

theorem giveUp (ranked : cache.Ranked now extra) (reach : Reach) (key : Shared K) (flight : Flight) :
    (cache.giveUp reach key flight).1.Ranked cache.readClock.1 extra :=
  ranked.readClock.dropLoad reach key flight

theorem endLoader (ranked : cache.Ranked now extra) (managed : cache.Managed) (reach : Reach) {flight : Flight}
    (placed : flight.segment = cache.segmentOf key.data) (started : Nat) (source : Source) (purpose : Purpose V)
    (ending : LoaderEnd V) (caught : ∀ value, ending = .value value → cache.CaughtUp key.data) :
    (∀ value, ending = .value value →
        Writes (cache.loaded reach key flight value) cache
          (cache.endLoader reach key flight started source purpose ending).1) ∧
      ∃ later, (cache.endLoader reach key flight started source purpose ending).1.Ranked later extra := by
  have ticked (f : Stats → Stats) := ranked.readClock.count f
  cases ending with
  | value value =>
      obtain ⟨stats, counted⟩ := count_eq cache.readClock.2 (·.countLoad (cache.readClock.1 - started))
      have ranked' := ticked (·.countLoad (cache.readClock.1 - started))
      unfold Cache.endLoader
      dsimp only
      rw [counted] at ranked' ⊢
      have written := ranked'.finishLoad ⟨managed.keyed, managed.tracks⟩
        (fun object => reach object || value.id = object) placed (caught value rfl) value
      refine ⟨fun value' same => ?_, _, written.2⟩
      cases same
      exact ⟨written.1.here, written.1.elsewhere⟩
  | nothing => exact ⟨nofun, _, (ticked _).dropLoad _ key flight⟩
  | failed failure => exact ⟨nofun, _, (ticked _).dropLoad _ key flight⟩
  | panicked message => exact ⟨nofun, _, (ticked _).giveUp reach key flight⟩

omit [DecidableEq K] in
theorem nextReload (ranked : cache.Ranked now extra) {reload : Reload K V}
    (next : cache.nextReload? = some (reload, cache')) : cache'.Ranked now extra := by
  obtain ⟨background, rfl, _⟩ := tasks_of_next next
  exact ranked.sameStore ⟨rfl, rfl, rfl, rfl, rfl⟩

theorem startRequest (ranked : cache.Ranked now extra) (managed : cache.Managed) (few : ∀ index, extra index ≤ 1)
    (request : Request K V) (caught : ∀ key value onlyIfNew,
      (Frame.start request).put? = some (key, value, onlyIfNew) → cache.CaughtUp key.data) (reach : Reach)
    (thread : ThreadId) : ∃ later, (cache.startRequest reach thread request).1.Ranked later extra := by
  cases request with
  | lookup key => exact ranked.lookup few reach key
  | loadAll keys => cases keys <;> exact ⟨_, ranked⟩
  | refresh key =>
      have renewing := ranked.readClock.operate (cache.segmentOf key.data)
        (f := fun s => (s.claimRefresh reach cache.readClock.1 thread key (cache.hash key.data) true).2)
        fun _ _ ranked => ranked.claimRefresh thread key _ true
      rw [← onSegment_snd _ _ none] at renewing
      exact ⟨_, renewing⟩
  | insert key value => exact ⟨_, (ranked.put managed (caught key value false rfl) false).2⟩
  | insertIfNew key value => exact ⟨_, (ranked.put managed (caught key value true rfl) true).2⟩
  | remove key => exact ⟨_, ranked.remove reach key⟩
  | contains | entries => exact ⟨_, ranked.readClock⟩
  | runReload =>
      dsimp only [Cache.startRequest]
      cases next : cache.nextReload? with
      | none => exact ⟨_, ranked⟩
      | some => exact ⟨_, ((ranked.nextReload next).modifyLoad _ _).readClock⟩
  | dropReload =>
      dsimp only [Cache.startRequest]
      cases next : cache.nextReload? with
      | none => exact ⟨_, ranked⟩
      | some => exact ⟨_, ranked.nextReload next⟩
  | _ => exact ⟨_, ranked⟩

omit [DecidableEq K] in
theorem answer (ranked : cache.Ranked now extra) (key : Shared K) (source : Source) (value : Shared V)
    (renewal : Option (Flight × Shared V)) :
    ∃ later, (cache.answer key source value renewal).1.Ranked later extra := by
  rcases renewal with _ | ⟨flight, old⟩
  · exact ⟨_, ranked⟩
  · cases source with
    | given => exact ⟨_, ranked.readClock⟩
    | bound =>
        have disowned := ranked.modifyLoad flight (·.setOwner none)
        dsimp only [Cache.answer, reload]
        split
        · exact ⟨_, ranked.readClock⟩
        · exact ⟨_, disowned.sameStore ⟨rfl, rfl, rfl, rfl, rfl⟩⟩
        · exact ⟨_, disowned⟩

omit [DecidableEq K] in
theorem conclude (ranked : cache.Ranked now extra) (source : Source) (purpose : Purpose V)
    (outcome : LoadOutcome V) : (cache.conclude source purpose outcome).1.Ranked now extra := by
  cases purpose with
  | fetch => exact ranked
  | renew | renewLater =>
      cases outcome with
      | ok => exact ranked
      | error => exact ranked.logged _

theorem work_other {frame : Frame K V} (other : frame.finds = false)
    (ranked : cache.Ranked now fun index => (if frame.countsFor cache.segmentOf index then 1 else 0) + extra index)
    (managed : cache.Managed) (few : ∀ index, extra index ≤ 1)
    (caught : ∀ key value onlyIfNew, frame.put? = some (key, value, onlyIfNew) → cache.CaughtUp key.data)
    (current : ∀ stamp, frame.stamp? = some stamp → stamp = now) (thread : ThreadId)
    (claimed : ∀ key source, frame = .claim key source now → cache.holdsAt reach now key.data = true →
      cache.CaughtUp key.data) : ∃ later, (cache.work reach thread frame).1.Ranked later extra := by
  have settled (quiet : ∀ index, frame.countsFor cache.segmentOf index = false) : cache.Ranked now extra := by
    simpa [quiet] using ranked
  cases frame with
  | found key source value renewal =>
      have noted : cache.Ranked now fun other => (if cache.segmentOf key.data = other then 1 else 0) + extra other := by
        simpa [Frame.countsFor] using ranked
      exact noted.countRead reach
  | start request =>
      exact (settled fun _ => rfl).startRequest managed few request caught reach thread
  | find | renew => cases other
  | claim key source stamp =>
      obtain rfl := current stamp rfl
      exact ⟨_, (settled fun _ => rfl).claim managed (claimed key source rfl) thread source⟩
  | answer key source value renewal => exact (settled fun _ => rfl).answer key source value renewal
  | claimed key source segment claim =>
      have counted (f : Stats → Stats) := (settled fun _ => rfl).count f
      cases claim with
      | granted => exact ⟨_, (counted _).readClock⟩
      | needless | taken => exact ⟨_, counted _⟩
  | settle flight outcome => exact ⟨_, (settled fun _ => rfl).modifyLoad flight _⟩
  | conclude source purpose outcome => exact ⟨_, (settled fun _ => rfl).conclude source purpose outcome⟩
  | cancel key flight => exact ⟨_, (settled fun _ => rfl).giveUp reach key flight⟩
  | renewed key renewal => cases renewal <;> exact ⟨_, settled fun _ => rfl⟩
  | removing keys =>
      cases keys with
      | nil => exact ⟨_, settled fun _ => rfl⟩
      | cons key keys => exact ⟨_, (settled fun _ => rfl).remove reach key⟩
  | clearing segment =>
      dsimp only [Cache.work]
      split
      · exact ⟨_, (settled fun _ => rfl).operate segment fun _ _ ranked => ranked.clear reach⟩
      · exact ⟨_, (settled fun _ => rfl).logged _⟩
  | releasing segment =>
      dsimp only [Cache.work]
      split
      · exact ⟨_, (settled fun _ => rfl).operate segment fun _ _ ranked => ranked.releaseSoft reach⟩
      · exact ⟨_, settled fun _ => rfl⟩
  | sweeping segment =>
      dsimp only [Cache.work]
      split
      · exact ⟨_, (settled fun _ => rfl).readClock.operate segment fun _ _ ranked =>
          (ranked.cleanUp reach).mono le_rfl (Nat.zero_le _)⟩
      · exact ⟨_, settled fun _ => rfl⟩
  | await key flight =>
      dsimp only [Cache.work]
      repeat' split
      all_goals exact ⟨_, settled fun _ => rfl⟩
  | deliver | delivering =>
      dsimp only [Cache.work]
      split
      all_goals exact ⟨_, (settled fun _ => rfl).sameStore ⟨rfl, rfl, rfl, rfl, rfl⟩⟩
  | _ => exact ⟨_, settled fun _ => rfl⟩

theorem work (reach : Reach) (frame : Frame K V)
    (ranked : cache.Ranked now fun index => (if frame.countsFor cache.segmentOf index then 1 else 0) + extra index)
    (managed : cache.Managed) (few : ∀ index, extra index ≤ 1)
    (caught : ∀ key value onlyIfNew, frame.put? = some (key, value, onlyIfNew) → cache.CaughtUp key.data)
    (current : ∀ stamp, frame.stamp? = some stamp → stamp = now) (thread : ThreadId)
    (claimed : ∀ key source, frame = .claim key source now → cache.holdsAt reach now key.data = true →
      cache.CaughtUp key.data) :
    ∃ later, (cache.work reach thread frame).1.Ranked later
        (fun index => pending cache.segmentOf (cache.work reach thread frame).2 index + extra index) ∧
      ∀ new ∈ (cache.work reach thread frame).2, ∀ stamp, new.stamp? = some stamp → stamp = later := by
  cases finds : frame.finds with
  | false =>
      obtain ⟨later, left⟩ := ranked.work_other finds managed few caught current thread claimed
      refine ⟨later, left.leaves _, fun new member stamp stamped => ?_⟩
      cases ((work_counted cache reach thread finds).stamp? new member).symm.trans stamped
  | true =>
      cases frame with
      | find key source =>
          have settled : cache.Ranked now extra := by simpa [Frame.countsFor] using ranked
          exact ⟨_, settled.find few reach key source⟩
      | renew key source stamp value =>
          obtain rfl := current stamp rfl
          refine ⟨_, (ranked.renew reach thread key source value).mono fun index => ?_, ?_⟩
          · simp [Cache.work, Cache.renew, pending, Frame.countsFor]
          · simp [Cache.work, Cache.renew, Frame.stamp?]
      | _ => cases finds

omit [DecidableEq K] in
theorem passOn (ranked : cache.Ranked now extra) (reply : Reply K V) (frame : Frame K V) :
    (cache.passOn reply frame).1.Ranked now extra := by
  unfold Cache.passOn
  split
  · split <;> exact ranked
  · exact ranked
  · split
    · exact ranked.logged _
    · exact ranked
  · exact ranked

theorem work_writes (ranked : cache.Ranked now extra) (managed : cache.Managed) {frame : Frame K V} {onlyIfNew : Bool}
    (puts : frame.put? = some (key, value, onlyIfNew)) (caught : cache.CaughtUp key.data) (reach : Reach)
    (thread : ThreadId) :
    Writes ⟨reach, cache.readClock.1, key, value, .put onlyIfNew⟩ cache (cache.work reach thread frame).1 := by
  unfold Frame.put? at puts
  split at puts
  · cases puts
    exact (ranked.put managed caught false).1
  · cases puts
    exact (ranked.put managed caught true).1
  · cases puts

end Ranked

end Writes

section Runs

variable [DecidableEq K] [Clock τ] {cache : Cache K V τ} {thread : ThreadId} {now : Nat}

def write? (cache : Cache K V τ) (held : Reach) : Event K V τ → Option (Write K V)
  | .proceed thread =>
      match cache.callsOf thread with
      | ⟨_, frame :: _⟩ :: _ =>
          frame.put?.map fun (key, value, onlyIfNew) =>
            ⟨cache.reach held, cache.readClock.1, key, value, .put onlyIfNew⟩
      | _ => none
  | .loaderEnded thread (.value value) =>
      match cache.callsOf thread with
      | ⟨_, .loading key flight _ _ _ :: _⟩ :: _ =>
          some (cache.loaded (cache.reach held) key flight value)
      | _ => none
  | _ => none

/-- The key that a claim finds a value for, though it was read before and there was none. -/
def refound? (cache : Cache K V τ) (held : Reach) : Event K V τ → Option K
  | .proceed thread =>
      match cache.callsOf thread with
      | ⟨_, .claim key _ now :: _⟩ :: _ =>
          if cache.holdsAt (cache.reach held) now key.data then some key.data else none
      | _ => none
  | _ => none

/-- How many reads of a segment the thread has noted and is still to count. -/
def uncounted (cache : Cache K V τ) (thread : ThreadId) (index : Nat) : Nat :=
  ((cache.callsOf thread).map fun call => pending cache.segmentOf call.frames index).sum

omit [DecidableEq K] [Clock τ] in
theorem uncounted_setCalls (cache : Cache K V τ) (thread : ThreadId) (calls : List (Call K V)) (index : Nat) :
    (cache.setCalls thread calls).uncounted thread index =
      (calls.map fun call => pending cache.segmentOf call.frames index).sum := by
  rw [uncounted, callsOf_setCalls, if_pos rfl]
  rfl

theorem Ranked.step_writes {extra : Nat → Nat} (ranked : cache.Ranked now extra) (managed : cache.Managed)
    (composed : cache.Composed) {held : Reach} {event : Event K V τ} {write : Write K V}
    (writes : cache.write? held event = some write) (caught : cache.CaughtUp write.key.data) :
    Writes write cache (cache.step held event).1 := by
  cases event with
  | proceed thread =>
      dsimp only [write?] at writes
      split at writes
      · rename_i arguments frame rest outer here
        obtain ⟨⟨key, value, onlyIfNew⟩, puts, rfl⟩ := Option.map_eq_some_iff.mp writes
        have written := ranked.work_writes managed puts caught (cache.reach held) thread
        have worked : (cache.step held (.proceed thread)).1 =
            (cache.work (cache.reach held) thread frame).1.setCalls thread
              (⟨arguments, (cache.work (cache.reach held) thread frame).2 ++ rest⟩ :: outer) := by
          simp only [step, proceed, here]
          cases frame with
          | start request => rfl
          | _ => cases puts
        rw [worked]
        exact written.setCalls thread _
      · cases writes
  | loaderEnded thread ending =>
      cases ending with
      | value value =>
          dsimp only [write?] at writes
          split at writes
          · rename_i arguments key flight started source purpose rest outer here
            cases writes
            have fits := (composed.arranged thread _ (here ▸ List.mem_cons_self)).fits rfl
            have placed := (fits _ List.mem_cons_self).2 _ rfl
            simp only [step, here]
            have written := (ranked.endLoader managed (cache.reach held) placed started source purpose
              (.value value) fun _ _ => caught).1 value rfl
            exact written.setCalls thread _
          · cases writes
      | nothing | failed | panicked => cases writes
  | _ => cases writes

omit [DecidableEq K] in
theorem Ranked.goOn {t : Cache K V τ} {extra : Nat → Nat} (ranked : t.Ranked now extra)
    (place : t.segmentOf = cache.segmentOf) {calls : List (Call K V)}
    (kept : ∀ index, extra index ≤ (calls.map fun call => pending cache.segmentOf call.frames index).sum) :
    (t.setCalls thread calls).Ranked now ((t.setCalls thread calls).uncounted thread) := by
  have same : (t.setCalls thread calls).Ranked now extra := ranked.sameStore ⟨rfl, rfl, rfl, rfl, rfl⟩
  refine same.mono fun index => ?_
  rw [uncounted_setCalls, place]
  exact kept index

omit [DecidableEq K] in
theorem Ranked.turn {t : Cache K V τ} {call call' : Call K V} {outer : List (Call K V)}
    (ranked : t.Ranked now (cache.uncounted thread)) (place : t.segmentOf = cache.segmentOf)
    (here : cache.callsOf thread = call :: outer)
    (kept : ∀ index, pending cache.segmentOf call.frames index ≤ pending cache.segmentOf call'.frames index) :
    (t.setCalls thread (call' :: outer)).Ranked now ((t.setCalls thread (call' :: outer)).uncounted thread) := by
  refine ranked.goOn place fun index => ?_
  rw [uncounted, here, List.map_cons, List.sum_cons, List.map_cons, List.sum_cons]
  exact Nat.add_le_add_right (kept index) _

omit [DecidableEq K] in
theorem Ranked.leave {call : Call K V} {outer : List (Call K V)}
    (ranked : cache.Ranked now (cache.uncounted thread)) (here : cache.callsOf thread = call :: outer)
    (counted : Counted call.frames) :
    (cache.setCalls thread outer).Ranked now ((cache.setCalls thread outer).uncounted thread) := by
  refine ranked.goOn rfl fun index => ?_
  rw [uncounted, here, List.map_cons, List.sum_cons, counted.pending, Nat.zero_add]

/-- What the thread is to do by a reading of the clock goes by the one at this time. -/
def Current (now : Nat) (thread : ThreadId) (cache : Cache K V τ) : Prop :=
  ∀ call ∈ cache.callsOf thread, ∀ frame ∈ call.frames, ∀ stamp, frame.stamp? = some stamp → stamp = now

omit [DecidableEq K] [Clock τ] in
theorem Paced.current_of_stamps {t : Cache K V τ} {call call' : Call K V} {outer : List (Call K V)}
    (paced : cache.Paced thread) (here : cache.callsOf thread = call :: outer)
    (stamps : ∀ frame ∈ call'.frames, ∀ stamp, frame.stamp? = some stamp → stamp = now) :
    (t.setCalls thread (call' :: outer)).Current now thread := by
  rw [Current, callsOf_setCalls, if_pos rfl]
  refine List.forall_mem_cons.mpr ⟨stamps, fun call member frame inside stamp stamped => ?_⟩
  cases (paced.outer_stamp? here call member frame inside).symm.trans stamped

omit [DecidableEq K] [Clock τ] in
theorem Paced.current {t : Cache K V τ} {call call' : Call K V} {outer : List (Call K V)}
    (paced : cache.Paced thread) (here : cache.callsOf thread = call :: outer)
    (unstamped : ∀ frame ∈ call'.frames, frame.stamp? = none) :
    (t.setCalls thread (call' :: outer)).Current now thread :=
  paced.current_of_stamps here fun frame member stamp stamped => by
    cases (unstamped frame member).symm.trans stamped

omit [DecidableEq K] [Clock τ] in
theorem Paced.current_of_leave {call : Call K V} {outer : List (Call K V)} (paced : cache.Paced thread)
    (here : cache.callsOf thread = call :: outer) : (cache.setCalls thread outer).Current now thread := by
  rw [Current, callsOf_setCalls, if_pos rfl]
  intro call member frame inside stamp stamped
  cases (paced.outer_stamp? here call member frame inside).symm.trans stamped

/-- Only the frame that is worked on may be about to count a read, and only this may note another. -/
theorem Ranked.resume (ranked : cache.Ranked now (cache.uncounted thread)) (current : cache.Current now thread)
    (managed : cache.Managed) (paced : cache.Paced thread) (composed : cache.Composed) (held : Reach)
    {arguments : List ObjectId} {frame : Frame K V} {rest : List (Frame K V)} {outer : List (Call K V)}
    (here : cache.callsOf thread = ⟨arguments, frame :: rest⟩ :: outer) (busy : frame.isWork = true)
    (caught : ∀ write, cache.write? held (.proceed thread) = some write → cache.CaughtUp write.key.data)
    (refound : ∀ key, cache.refound? held (.proceed thread) = some key → cache.CaughtUp key) :
    let worked := cache.work (cache.reach held) thread frame
    let next := worked.1.setCalls thread (⟨arguments, worked.2 ++ rest⟩ :: outer)
    ∃ later, next.Ranked later (next.uncounted thread) ∧ next.Current later thread := by
  have quiet := Frame.quiet_of_isWork busy
  have counted_rest := (paced.soon here).counted_rest quiet
  have fits := (composed.arranged _ _ (here ▸ List.mem_cons_self)).fits quiet
  have steady := (work_works composed.orderly (cache.reach held) thread (fits _ List.mem_cons_self)).moves.steady
  have ranked' : cache.Ranked now fun index => (if frame.countsFor cache.segmentOf index then 1 else 0) +
      (outer.map fun call => pending cache.segmentOf call.frames index).sum := by
    refine ranked.mono fun index => ?_
    rw [uncounted, here, List.map_cons, List.sum_cons, pending_cons, counted_rest.pending, Nat.zero_add]
  have stores (key : Shared K) (value : Shared V) (onlyIfNew : Bool)
      (puts : frame.put? = some (key, value, onlyIfNew)) : cache.write? held (.proceed thread) =
        some ⟨cache.reach held, cache.readClock.1, key, value, .put onlyIfNew⟩ := by
    simp only [write?, here, puts, Option.map_some]
  obtain ⟨later, left, stamps⟩ := ranked'.work (cache.reach held) frame managed (paced.pending_le here _)
    (fun key value onlyIfNew puts => caught _ (stores key value onlyIfNew puts))
    (current _ (here ▸ List.mem_cons_self) frame List.mem_cons_self) thread
    (fun key source same there => refound _ (by simp [refound?, here, same, there]))
  refine ⟨later, left.goOn steady.segmentOf fun index => ?_, paced.current_of_stamps here ?_⟩
  · rw [List.map_cons, List.sum_cons, pending_append, counted_rest.pending, Nat.add_zero]
  · refine List.forall_mem_append.mpr ⟨stamps, fun frame member stamp stamped => ?_⟩
    cases ((paced.soon here).rest_stamp? frame member).symm.trans stamped

theorem Ranked.step (ranked : cache.Ranked now (cache.uncounted thread)) (current : cache.Current now thread)
    (managed : cache.Managed) (paced : cache.Paced thread) (composed : cache.Composed) (held : Reach)
    (event : Event K V τ) (sequential : (⟨cache, held, event⟩ : Moment K V τ).IsSequential thread)
    (timely : ∀ clock', event = .setClock clock' → Clock.Passes cache.clock clock')
    (caught : ∀ write, cache.write? held event = some write → cache.CaughtUp write.key.data)
    (refound : ∀ key, cache.refound? held event = some key → cache.CaughtUp key) :
    ∃ later, (cache.step held event).1.Ranked later ((cache.step held event).1.uncounted thread) ∧
      (cache.step held event).1.Current later thread := by
  have happens := cache.step_happens held event
  have none_left {arguments : List ObjectId} {frame : Frame K V} {rest : List (Frame K V)} {outer : List (Call K V)}
      (here : cache.callsOf thread = ⟨arguments, frame :: rest⟩ :: outer) (quiet : frame.delivers = false)
      (other : frame.follows = false) : Counted (frame :: rest) :=
    counted_cons.mpr ⟨other, (paced.soon here).counted_rest quiet⟩
  generalize cache.step held event = result at happens ⊢
  cases happens with
  | entered other request =>
      obtain ⟨rfl, -⟩ := sequential
      refine ⟨now, ranked.goOn rfl fun index => ?_, ?_⟩
      · rw [List.map_cons, List.sum_cons]
        exact Nat.le_add_left ..
      · rw [Current, callsOf_setCalls, if_pos rfl]
        exact List.forall_mem_cons.mpr ⟨by simp [Frame.stamp?], current⟩
  | timed clock =>
      have passes := timely clock rfl
      exact ⟨now, ⟨ranked.alone, passes.forward, ranked.ahead.trans passes.le, ranked.shards⟩, current⟩
  | contended contended => exact ⟨now, ⟨sequential, ranked.forward, ranked.ahead, ranked.shards⟩, current⟩
  | closed => exact ⟨now, ranked.sameStore ⟨rfl, rfl, rfl, rfl, rfl⟩, current⟩
  | idle | loading | listening | blocked | notLoading | notListening => exact ⟨now, ranked, current⟩
  | ended here =>
      cases sequential
      exact ⟨now, ranked.leave here counted_nil, paced.current_of_leave here⟩
  | returned here | unwound here =>
      cases sequential
      exact ⟨now, ranked.leave here (none_left here rfl rfl), paced.current_of_leave here⟩
  | @passed _ arguments reply frame rest outer here =>
      cases sequential
      have steady := (cache.passOn_works reply frame).moves.steady
      refine ⟨now, (ranked.passOn reply frame).turn steady.segmentOf here fun index => ?_, paced.current here ?_⟩
      · exact ((none_left here rfl rfl).pending ..).trans_le (Nat.zero_le _)
      · exact List.forall_mem_append.mpr ⟨(passOn_counted cache reply frame).stamp?,
          (List.forall_mem_cons.mp (paced.soon here).rest_stamp?).2⟩
  | worked here busy =>
      cases sequential
      exact ranked.resume current managed paced composed held here busy caught refound
  | begun here | skipped here | told here | allTold here | heard here =>
      cases sequential
      refine ⟨now, .turn (ranked.sameStore ⟨rfl, rfl, rfl, rfl, rfl⟩) rfl here fun index => ?_,
        paced.current here ?_⟩
      · simp [pending_cons, Frame.countsFor]
      · simpa [Frame.stamp?] using (paced.soon here).rest_stamp?
  | @loaded _ arguments key flight started source purpose rest outer here ending =>
      cases sequential
      have fits := (composed.arranged _ _ (here ▸ List.mem_cons_self)).fits rfl
      have placed := (fits _ List.mem_cons_self).2 _ rfl
      have steady := (endLoader_works composed.orderly (cache.reach held) placed started source purpose
        ending).moves.steady
      have stores (value : Shared V) : cache.write? held (.loaderEnded thread (.value value)) =
          some (cache.loaded (cache.reach held) key flight value) := by
        simp only [write?, here]
      obtain ⟨-, later, left⟩ := ranked.endLoader managed (cache.reach held) placed started source purpose ending
        fun value ended => caught _ (ended ▸ stores value)
      refine ⟨later, left.turn steady.segmentOf here fun index => ?_, paced.current here ?_⟩
      · exact ((none_left here rfl rfl).pending ..).trans_le (Nat.zero_le _)
      · exact List.forall_mem_append.mpr
          ⟨(endLoader_counted cache _ key flight started source purpose ending).stamp?,
            (paced.soon here).rest_stamp?⟩

end Runs

end Cache

def Event.isLater (clock : ManualClock) : Event K V ManualClock → Bool
  | .setClock clock' => clock'.step == 0 && clock.nanos ≤ clock'.nanos
  | _ => true

namespace Moment

variable [DecidableEq K] [Clock τ]

def IsTimely (moment : Moment K V τ) : Prop :=
  ∀ clock, moment.event = .setClock clock → Clock.Passes moment.cache.clock clock

/-- Before anything is written, or a claim finds a value after all, the reads of other keys that came first are
replayed. -/
def IsCaughtUp (moment : Moment K V τ) : Prop :=
  (∀ write, moment.cache.write? moment.held moment.event = some write → moment.cache.CaughtUp write.key.data) ∧
    ∀ key, moment.cache.refound? moment.held moment.event = some key → moment.cache.CaughtUp key

instance (moment : Moment K V τ) : Decidable moment.IsCaughtUp :=
  inferInstanceAs (Decidable (
    (∀ write ∈ moment.cache.write? moment.held moment.event, moment.cache.CaughtUp write.key.data) ∧
      ∀ key ∈ moment.cache.refound? moment.held moment.event, moment.cache.CaughtUp key))

omit [DecidableEq K] in
theorem isTimely_of_isLater {moment : Moment K V ManualClock} (later : moment.event.isLater moment.cache.clock = true) :
    moment.IsTimely := by
  intro clock set
  rw [set] at later
  exact ManualClock.passes later

end Moment

namespace Cache

section History

variable [DecidableEq K] [Clock τ] {config : Config K V} {hash : K → UInt64} {clock : τ}
  {past : List (Moment K V τ)} {cache : Cache K V τ} {thread : ThreadId}

theorem History.managed (history : History config hash clock past cache)
    (proper : ∀ moment ∈ past, moment.IsProper) : cache.Managed where
  keyed index shard found reach :=
    ((history.supervised proper).tended_spared (fun _ => true) index shard found).keyed reach
  tracks index shard found bounded := by
    have weighed := history.recorded.weighed index shard found
    rw [weighed.bound, Bound.isBounded, Bound.share, Option.isSome_map] at bounded
    rw [weighed.policy]
    simp [Cache.create, bounded]

theorem History.ranked (history : History config hash clock past cache) (proper : ∀ moment ∈ past, moment.IsProper)
    (sequential : ∀ moment ∈ past, moment.IsSequential thread) (forward : Clock.Forward clock)
    (timely : ∀ moment ∈ past, moment.IsTimely) (caught : ∀ moment ∈ past, moment.IsCaughtUp) :
    ∃ now, cache.Ranked now (cache.uncounted thread) ∧ cache.Current now thread := by
  induction history with
  | create =>
      refine ⟨0, ⟨rfl, forward, Nat.zero_le _, fun index shard found => ?_⟩, nofun⟩
      obtain ⟨exponent, rfl⟩ := shard_create found
      exact .of_vacant (Segment.consistent_create ..) (fun _ => Segment.bare?_create ..) (Nat.zero_le _)
  | step history held event ih =>
      have proper := List.forall_mem_append.mp proper
      have sequential := List.forall_mem_append.mp sequential
      have timely := List.forall_mem_append.mp timely
      have caught := List.forall_mem_append.mp caught
      obtain ⟨now, ranked, current⟩ := ih proper.1 sequential.1 timely.1 caught.1
      have last := caught.2 _ List.mem_cons_self
      exact ranked.step current (history.managed proper.1) (history.paced sequential.1) history.recorded.composed held
        event (sequential.2 _ List.mem_cons_self) (timely.2 _ List.mem_cons_self) last.1 last.2

/-- In a run of one thread, with a clock that does not go back, whatever is evicted for a value that is written is what
was not used for longest then. The reads that came before are to be replayed first, which is what happens where entries
grow too old. -/
theorem evicts_least_recent_of_history (history : History config hash clock past cache)
    (proper : ∀ moment ∈ past, moment.IsProper) (sequential : ∀ moment ∈ past, moment.IsSequential thread)
    (forward : Clock.Forward clock) (timely : ∀ moment ∈ past, moment.IsTimely)
    (caught : ∀ moment ∈ past, moment.IsCaughtUp) :
    ∀ moment ∈ past, ∀ write, moment.cache.write? moment.held moment.event = some write →
      Writes write moment.cache moment.next := by
  intro moment member write writes
  obtain ⟨earlier, later, rfl⟩ := List.append_of_mem member
  have history' := (history.of_append rfl).1
  have before {P : Moment K V τ → Prop} (all : ∀ moment' ∈ earlier ++ moment :: later, P moment') :
      ∀ moment' ∈ earlier, P moment' := fun moment' inside => all moment' (List.mem_append_left _ inside)
  obtain ⟨now, ranked, -⟩ := history'.ranked (before proper) (before sequential) forward (before timely)
    (before caught)
  exact ranked.step_writes (history'.managed (before proper)) history'.recorded.composed writes
    ((caught moment member).1 write writes)

theorem evicts_least_recent_after_clean_up :
    let moves (steps : Nat) : List (Event Nat Nat ManualClock) := .replicate steps (.proceed 0)
    let events := .setClock { nanos := 1 } :: .call 0 (.insert ⟨0, 7⟩ ⟨1, 70⟩) :: moves 4 ++
      .setClock { nanos := 2 } :: .call 0 (.insert ⟨2, 8⟩ ⟨3, 80⟩) :: moves 4 ++
      .setClock { nanos := 3 } :: .call 0 (.lookup 7) :: moves 3 ++ .call 0 .cleanUp :: moves 6 ++
      .setClock { nanos := 4 } :: .call 0 (.insert ⟨4, 9⟩ ⟨5, 90⟩) :: moves 1
    let run := (create { initialCapacity := 1, concurrencyLevel := 1, maximum := some 2, listens := true }
      (fun _ => 3) {}).run (fun _ => true) events
    ∃ moment ∈ run.1, moment.next.undelivered.map (fun removal => (removal.value.object, removal.cause)) =
        [(⟨3, 80⟩, .size)] ∧
      ∃ write, moment.cache.write? moment.held moment.event = some write ∧
        Writes write moment.cache moment.next := by
  intro moves events run
  have history : History _ _ _ run.1 run.2 := History.create.run (fun _ => true) events
  have sequential : run.1.all (fun moment => decide (moment.IsSequential 0)) = true := by decide +kernel
  have timely : run.1.all (fun moment => moment.event.isLater moment.cache.clock) = true := by decide +kernel
  have passes : Clock.Passes ({} : ManualClock) {} := ManualClock.passes (by decide)
  have caught : run.1.all (fun moment => decide moment.IsCaughtUp) = true := by decide +kernel
  have found : run.1.any (fun moment => (moment.cache.write? moment.held moment.event).isSome &&
      decide (moment.next.undelivered.map (fun removal => (removal.value.object, removal.cause)) =
        [(⟨3, 80⟩, .size)])) = true := by decide +kernel
  have evicts := evicts_least_recent_of_history history
    (proper_of_run fun event asked closing => by simp [closing, events, moves] at asked)
    (by simpa using sequential) passes.forward
    (fun moment member => Moment.isTimely_of_isLater (List.all_eq_true.mp timely moment member)) (by simpa using caught)
  obtain ⟨moment, member, writes⟩ := List.any_eq_true.mp found
  rw [Bool.and_eq_true, Option.isSome_iff_exists, decide_eq_true_eq] at writes
  obtain ⟨⟨write, writes⟩, evicted⟩ := writes
  exact ⟨moment, member, evicted, write, writes, evicts moment member write writes⟩

theorem evicts_newest_behind_a_read :
    let moves (steps : Nat) : List (Event Nat Nat ManualClock) := .replicate steps (.proceed 0)
    let events := .setClock { nanos := 1 } :: .call 0 (.insert ⟨0, 7⟩ ⟨1, 70⟩) :: moves 4 ++
      .setClock { nanos := 2 } :: .call 0 (.lookup 7) :: moves 3 ++
      .setClock { nanos := 3 } :: .call 0 (.insert ⟨2, 8⟩ ⟨3, 80⟩) :: moves 1
    let run := (create { initialCapacity := 1, concurrencyLevel := 1, maximum := some 1, listens := true }
      (fun _ => 3) {}).run (fun _ => true) events
    (∀ moment ∈ run.1, moment.IsProper ∧ moment.IsSequential 0 ∧ moment.IsTimely) ∧
      ∃ moment ∈ run.1, moment.next.undelivered.map (fun removal => (removal.value.object, removal.cause)) =
          [(⟨3, 80⟩, .size)] ∧
        ∃ write, moment.cache.write? moment.held moment.event = some write ∧
          ¬ Writes write moment.cache moment.next := by
  intro moves events run
  have history : History _ _ _ run.1 run.2 := History.create.run (fun _ => true) events
  have proper : ∀ moment ∈ run.1, moment.IsProper :=
    proper_of_run fun event asked closing => by simp [closing, events, moves] at asked
  have sequential : run.1.all (fun moment => decide (moment.IsSequential 0)) = true := by decide +kernel
  have timely : run.1.all (fun moment => moment.event.isLater moment.cache.clock) = true := by decide +kernel
  -- the new entry is gone, though it is light enough, and the one that was read earlier is left
  have found : ∃ moment ∈ run.1,
      moment.next.undelivered.map (fun removal => (removal.value.object, removal.cause)) = [(⟨3, 80⟩, .size)] ∧
      ∃ write ∈ moment.cache.write? moment.held moment.event, write.way = .put false ∧
        (∃ shard ∈ moment.cache.shards[moment.cache.segmentOf write.key.data]?,
          shard.segment.bound.isExceededBy (shard.segment.policy.weigh write.key.data write.value.data) = false) ∧
        ∃ shard ∈ moment.next.shards[moment.cache.segmentOf write.key.data]?,
          (∀ stored ∈ shard.segment.records, stored.2.key.data ≠ write.key.data) ∧
          ∃ stored ∈ shard.segment.records, 0 < stored.2.weighs ∧
            stored.2.accessed < write.now := by decide +kernel
  obtain ⟨moment, member, evicted, write, writes, way, ⟨shard, before, light⟩, left, after, gone, stored, there,
    heavy, earlier⟩ := found
  refine ⟨fun moment' inside => ⟨proper moment' inside, ?_, ?_⟩, moment, member, evicted, write, writes, ?_⟩
  · simpa using List.all_eq_true.mp sequential moment' inside
  · exact Moment.isTimely_of_isLater (List.all_eq_true.mp timely moment' inside)
  · intro written
    obtain ⟨_, _, split⟩ := List.append_of_mem member
    have consistent := ((history.of_append split).1.recorded.weighed _ shard before).segment.consistent
    obtain ⟨s, left', written, after', segment, -⟩ := written.here shard before
    cases Option.some.inj (after.symm.trans after')
    have same (handle : Handle) (record : Entry Nat Nat) :
        (handle, record) ∈ left.segment.records ↔ s.bare? handle = some record := by
      rw [Segment.mem_records, segment]
      rfl
    rcases written.outlives consistent way ((same _ _).mp there) heavy earlier with ⟨handle, fresh, stays, own⟩ |
      exceeds
    · exact gone (handle, fresh) ((same _ _).mpr stays) own
    · cases light.symm.trans exceeds

end History

end Cache
end SegmentedCache
