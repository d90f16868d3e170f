import SegmentedCache.Proofs.Cache.Refinement
import SegmentedCache.Proofs.Cache.Weights
import SegmentedCache.Proofs.Segment.ReadBack

namespace SegmentedCache

/-!
A value that was stored is what the next lookup of its key gives, as long as it is not too old. It has to fit into the
share of the bound that its segment has. Where entries do not grow too old, it also has to fit beside the entries that
were read since the segment last replayed reads.
-/

variable {K V τ : Type}

namespace Config

def weigh (config : Config K V) (key : K) (value : V) : Nat :=
  config.weigher.elim 1 fun weigher => weigher key value

def IsYoung (config : Config K V) (age : Nat) : Prop :=
  ∀ span, config.expireAfterWrite = some span ∨ config.expireAfterAccess = some span → age < span.toNanos

theorem IsYoung.isOver {config : Config K V} {later now : Nat} (young : config.IsYoung (later - now)) :
    config.limits.isOver later now now = false := by
  have below {expiration : Option Span} (set : ∀ span, expiration = some span →
      config.expireAfterWrite = some span ∨ config.expireAfterAccess = some span) :
      ¬ ∃ limit ∈ expiration.map Span.toNanos, limit ≤ later - now := by
    rintro ⟨limit, member, reached⟩
    obtain ⟨span, given, rfl⟩ := Option.map_eq_some_iff.mp member
    exact Nat.not_le_of_lt (young span (set span given)) reached
  rw [Lifetime.isOver, Bool.or_eq_false_iff, ← Bool.not_eq_true, ← Bool.not_eq_true, Option.any_eq_true,
    Option.any_eq_true]
  simp only [decide_eq_true_eq]
  exact ⟨below fun _ => .inl, below fun _ => .inr⟩

end Config

def Purpose.reply (value : Shared V) : Purpose V → Reply K V
  | .fetch | .renew _ => .outcome (.ok value)
  | .renewLater _ => .done

namespace Cache

def Fits (config : Config K V) (cache : Cache K V τ) (key : K) (value : V) : Prop :=
  (Bound.share config.bound (Sizing.segments config.concurrencyLevel config.bound) (cache.segmentOf key)).isExceededBy
    (config.weigh key value) = false

/-- The segment of the key replays reads before every write, or there is room for the value beside the other entries
that were read there since. -/
def Calm [DecidableEq K] (config : Config K V) (cache : Cache K V τ) (key : K) (value : V) : Prop :=
  ∀ shard, cache.shards[cache.segmentOf key]? = some shard → shard.segment.Calm key (config.weigh key value)

/-- The load was not displaced: an entry of the key still waits for it, and if that holds a value already, it is not too
old. -/
def Awaits (cache : Cache K V τ) (key : K) (flight : Flight) (now : Nat) : Prop :=
  ∃ shard handle record, cache.shards[flight.segment]? = some shard ∧ shard.segment.bare? handle = some record ∧
    record.key.data = key ∧ record.load? = some flight.load ∧
    (record.isReserved = true ∨ shard.segment.policy.isExpired now record = false)

variable [DecidableEq K] [Clock τ]

/-- A value that was stored then is what a lookup gives until it is too old. -/
def ReadsBack (config : Config K V) (now : Nat) (key : K) (value : Shared V) (cache : Cache K V τ) : Prop :=
  ∀ clock : τ, config.IsYoung ((Clock.read clock).1 - now) → ∀ held thread,
    Completes held thread (fun _ reply _ => reply = .value (some value))
      ({ cache with clock }.step held (.call thread (.lookup key))).1

variable {config : Config K V} {hash : K → UInt64} {clock : τ} {cache cache' : Cache K V τ}
  {accepted : List (K × Shared V)} {notified : List (Removal K V)} {key : Shared K} {value : Shared V} {now : Nat}

theorem lasting_sound (hash : K → UInt64) (place : K → Nat) :
    Lasting hash place (fun _ (shard : Shard K V) => shard.segment.Sound hash) where
  read _ _ sound := sound
  modifyLoad load f _ _ sound := sound.rebooked (sound.consistent.modifyLoad load f) rfl
  operate reach now op _ _ _ sound :=
    have run := sound.run reach now op
    run.rebooked run.consistent.collected rfl

theorem Recorded.sound (recorded : Recorded config hash clock cache accepted notified)
    (keys : config.keyStrength = .strong) (values : config.valueStrength = .strong) :
    cache.Each fun _ shard => shard.segment.Sound hash := by
  refine recorded.each (lasting_sound hash _) fun index shard found => ?_
  obtain ⟨exponent, rfl⟩ := shard_create found
  refine ⟨Segment.consistent_create _ _ exponent, ?_, fun reach => Segment.keyed_create _ _ _⟩
  simp [Segment.create, Cache.create, Policy.isStrong, keys, values]

def At (key : K) (P : (K → UInt64) → Segment K V → Prop) (cache : Cache K V τ) : Prop :=
  ∃ shard, cache.shards[cache.segmentOf key]? = some shard ∧ P cache.hash shard.segment

omit [DecidableEq K] [Clock τ] in
theorem At.steadfast (key : K) (P : (K → UInt64) → Segment K V → Prop) :
    Steadfast fun cache : Cache K V τ => cache.At key P := by
  refine ⟨fun cache cache' same ⟨shard, found, holds⟩ => ⟨shard, ?_, ?_⟩⟩
  · rwa [segmentOf, same.shards, same.shift, same.hash]
  · rwa [same.hash]

def Keeps (lifetime : Lifetime) (now : Nat) (key : Shared K) (value : Shared V) : Cache K V τ → Prop :=
  At key.data fun hash s => s.Sound hash ∧ s.policy.lifetime = lifetime ∧ s.Keeps now key value

def Ready (lifetime : Lifetime) (key : Shared K) (value : Shared V) : Cache K V τ → Prop :=
  At key.data fun hash s => s.Sound hash ∧ s.policy.lifetime = lifetime ∧
    s.Calm key.data (s.policy.weigh key.data value.data) ∧
      s.bound.isExceededBy (s.policy.weigh key.data value.data) = false

omit [DecidableEq K] [Clock τ] in
theorem weigh_create (config : Config K V) (hash : K → UInt64) (clock : τ) (key : K) (value : V) :
    (create config hash clock).policy.weigh key value = config.weigh key value := by
  rw [Policy.weigh, Config.weigh, Cache.create]
  cases config.weigher <;> rfl

theorem Recorded.ready (recorded : Recorded config hash clock cache accepted notified)
    (keys : config.keyStrength = .strong) (values : config.valueStrength = .strong)
    (something : config.keepsNothing = false) (fits : cache.Fits config key.data value.data)
    (calm : cache.Calm config key.data value.data) : cache.Ready config.limits key value := by
  obtain ⟨shard, found⟩ : ∃ shard, cache.shards[cache.segmentOf key.data]? = some shard :=
    ⟨_, Array.getElem?_eq_getElem (recorded.composed.orderly.chosen key.data)⟩
  have weighed := recorded.weighed _ _ found
  have weigh : shard.segment.policy.weigh key.data value.data = config.weigh key.data value.data := by
    rw [weighed.policy, weigh_create]
  refine ⟨shard, found, recorded.hash_eq ▸ recorded.sound keys values _ _ found, ?_, ?_, ?_⟩
  · rw [weighed.policy]
    exact Config.limits_eq something
  · rw [weigh]
    exact calm _ found
  · rw [weigh, weighed.bound]
    exact fits

variable {lifetime : Lifetime}

omit [Clock τ] in
theorem keeps_of_operate (cache : Cache K V τ) {shard : Shard K V}
    (found : cache.shards[cache.segmentOf key.data]? = some shard) (sound : shard.segment.Sound cache.hash)
    {reach : Reach} {later : Nat} (op : Operation K V)
    (keeps : (op.run cache.hash reach later shard.segment).Keeps now key value) :
    (cache.changeSegment (cache.segmentOf key.data) (op.run cache.hash reach later)).Keeps
      shard.segment.policy.lifetime now key value := by
  obtain ⟨inside, _⟩ := Array.getElem?_eq_some_iff.mp found
  obtain ⟨stats, log, changed⟩ := changeSegment_eq found (op.run cache.hash reach later)
  have run := sound.run reach later op
  have policy := ((sound.consistent.runs cache.hash reach later op).rules sound.consistent).1
  rw [changed]
  refine ⟨_, Array.getElem?_setIfInBounds_self_of_lt inside, ?_, ?_, ?_⟩
  · exact run.rebooked run.consistent.collected rfl
  · exact congrArg Policy.lifetime policy
  · exact keeps.rebooked run.consistent.collected rfl

theorem Ready.put (ready : cache.Ready lifetime key value) (reach : Reach) :
    (cache.put reach key value false).1.Keeps lifetime cache.readClock.1 key value := by
  obtain ⟨shard, found, sound, rfl, calm, light⟩ := ready
  rw [put_fst]
  exact keeps_of_operate cache.readClock.2 found sound _ (sound.insert_keeps calm light reach _)

theorem Ready.finishLoad (ready : cache.Ready lifetime key value) {flight : Flight}
    (placed : flight.segment = cache.segmentOf key.data) (awaits : cache.Awaits key.data flight cache.readClock.1)
    (f : Stats → Stats) (reach : Reach) :
    ((cache.readClock.2.count f).finishLoad reach cache.readClock.1 key flight (some value)).Keeps lifetime
      cache.readClock.1 key value := by
  obtain ⟨shard, found, sound, rfl, calm, light⟩ := ready
  obtain ⟨shard', handle, record, found', stored, same, own, young⟩ := awaits
  cases found.symm.trans (placed ▸ found')
  have strong := sound.strong
  simp only [Policy.isStrong, Bool.and_eq_true, decide_eq_true_eq] at strong
  have fresh : shard.segment.policy.stale? reach cache.readClock.1 record = none := by
    unfold Policy.stale?
    rcases young with reserved | young
    · simp [reserved]
    · cases visible : record.visible? <;> simp [young, Policy.isLost, visible, strong, Strength.reaches]
  obtain ⟨stats, counted⟩ := count_eq cache.readClock.2 f
  rw [counted, Cache.finishLoad, placed]
  exact keeps_of_operate { cache.readClock.2 with stats } found sound (.finishLoad key flight.load (some value))
    (sound.finishLoad_keeps calm light stored own same fresh)

namespace Keeps

omit [DecidableEq K] [Clock τ] in
theorem modifyLoad (keeps : cache.Keeps lifetime now key value) (flight : Flight) (f : Load K V → Load K V) :
    (cache.modifyLoad flight f).Keeps lifetime now key value := by
  obtain ⟨shard, found, sound, rules, kept⟩ := keeps
  have place : (cache.modifyLoad flight f).segmentOf = cache.segmentOf := rfl
  by_cases same : flight.segment = cache.segmentOf key.data
  · have rebooked := sound.consistent.modifyLoad flight.load f
    refine ⟨{ shard with segment := shard.segment.modifyLoad flight.load f }, ?_, sound.rebooked rebooked rfl, rules,
      kept.rebooked rebooked rfl⟩
    rw [place, Cache.modifyLoad, Array.getElem?_modify, if_pos same, found, Option.map_some]
  · refine ⟨shard, ?_, sound, rules, kept⟩
    rwa [place, Cache.modifyLoad, Array.getElem?_modify, if_neg same]

theorem lookup (keeps : cache.Keeps lifetime now key value)
    (young : lifetime.isOver cache.readClock.1 now now = false) (reach : Reach) :
    ∃ due, Due due ∧ (cache.lookup reach key.data).2 = due ++ [.give (.value (some value))] := by
  obtain ⟨shard, found, sound, rfl, kept⟩ := keeps
  obtain ⟨refresh, read⟩ := sound.read_of_keeps kept young reach
  have live : cache.finding reach key.data = .live value refresh := (finding_eq found reach).trans read
  have looking := cache.looking reach key.data
  generalize cache.lookup reach key.data = result at looking ⊢
  cases looking with
  | served live' =>
      cases live.symm.trans live'
      exact ⟨_, countRead_due .., rfl⟩
  | missed other => exact absurd live (other _ _)

theorem readsBack (keeps : cache.Keeps config.limits now key value) : cache.ReadsBack config now key.data value := by
  intro clock young held thread
  have anything : Steadfast fun _ : Cache K V τ => True := ⟨fun _ _ _ _ => trivial⟩
  have asked : Goes held thread (fun _ reply _ => reply = .value (some value))
      (fun t : Cache K V τ => t.Keeps config.limits now key value ∧ t.clock = clock)
      [.start (.lookup key.data)] := by
    apply Goes.work rfl
    rintro t reach ⟨kept, rfl⟩
    obtain ⟨due, isDue, frames⟩ := kept.lookup young.isOver reach
    refine ⟨_, anything, trivial, ?_⟩
    show Goes held thread _ _ ((t.lookup reach key.data).2 ++ [])
    rw [frames, List.append_nil]
    exact isDue.goes anything (Goes.give anything fun _ _ => rfl)
  exact asked.call ((At.steadfast ..).timed clock) ⟨keeps, rfl⟩

end Keeps

section Goes

variable {held : Reach} {thread : ThreadId}

theorem goes_insert (clock : τ) :
    Goes held thread (fun _ _ t => t.Keeps lifetime (Clock.read clock).1 key value)
      (fun t : Cache K V τ => t.Ready lifetime key value ∧ t.clock = clock) [.start (.insert key value)] := by
  apply Goes.work rfl
  rintro t reach ⟨ready, rfl⟩
  exact ⟨_, At.steadfast .., ready.put reach, Goes.deliver (At.steadfast ..)
    (Goes.give (At.steadfast ..) fun _ kept => kept)⟩

theorem goes_concluded {holds : Cache K V τ → Prop} (steadfast : Steadfast holds) {flight : Flight}
    (settled : ∀ t : Cache K V τ, holds t → holds (t.modifyLoad flight (·.settle (.ok value)))) {source : Source}
    {purpose : Purpose V} {objects : List ObjectId} :
    Goes held thread (fun _ reply t => reply = purpose.reply value ∧ holds t) holds
      [.deliver, .settle flight (.ok value), .conclude source purpose (.ok value), .holding objects] := by
  apply Goes.deliver steadfast
  apply Goes.work rfl
  intro t reach now
  refine ⟨holds, steadfast, settled t now, ?_⟩
  apply Goes.work rfl
  intro t reach now
  have concluded : t.work reach thread (.conclude source purpose (.ok value)) = (t, [.give (purpose.reply value)]) := by
    cases purpose <;> rfl
  rw [concluded]
  exact ⟨holds, steadfast, now, Goes.giveHolding steadfast (Goes.give steadfast fun _ now => ⟨rfl, now⟩)⟩

theorem goes_ended {flight : Flight} {source : Source} {purpose : Purpose V} {objects : List ObjectId} :
    Goes held thread (fun _ reply t => reply = purpose.reply value ∧ t.Keeps lifetime now key value)
      (fun t : Cache K V τ => t.Keeps lifetime now key value)
      [.deliver, .settle flight (.ok value), .conclude source purpose (.ok value), .holding objects] :=
  goes_concluded (At.steadfast ..) fun _ kept => Keeps.modifyLoad kept flight _

end Goes

/-- Once an insertion returns, or the caller of a load that was not displaced, the value is read back until it is too
old. -/
theorem reads_back_of_recorded (recorded : Recorded config hash clock cache accepted notified)
    (keys : config.keyStrength = .strong) (values : config.valueStrength = .strong)
    (something : config.keepsNothing = false) (key : Shared K) (value : Shared V)
    (fits : cache.Fits config key.data value.data) (calm : cache.Calm config key.data value.data) (held : Reach)
    (thread : ThreadId) :
    Completes held thread (fun _ _ t => t.ReadsBack config cache.readClock.1 key.data value)
        (cache.step held (.call thread (.insert key value))).1 ∧
      ∀ flight started source (purpose : Purpose V) arguments objects calls,
        cache.callsOf thread =
            ⟨arguments, [.loading key flight started source purpose, .holding objects]⟩ :: calls →
          cache.Awaits key.data flight cache.readClock.1 →
            Completes held thread
              (fun _ reply t => reply = purpose.reply value ∧ t.ReadsBack config cache.readClock.1 key.data value)
              (cache.step held (.loaderEnded thread (.value value))).1 := by
  have ready := recorded.ready keys values something fits calm
  constructor
  · have inserted : Completes held thread _ (cache.step held (.call thread (.insert key value))).1 :=
      (goes_insert cache.clock).call ((At.steadfast ..).timed cache.clock) ⟨ready, rfl⟩
    exact inserted.imp fun _ _ _ kept => kept.readsBack
  · intro flight started source purpose arguments objects calls running awaits
    have arranged := recorded.composed.arranged thread _ (running ▸ List.mem_cons_self)
    have placed : flight.segment = cache.segmentOf key.data := (arranged.fits rfl _ List.mem_cons_self).2 _ rfl
    have kept := ready.finishLoad placed awaits (·.countLoad (cache.readClock.1 - started))
      fun object => cache.reach held object || (some value).any (·.id = object)
    have ended : Completes held thread
        (fun _ reply t => reply = purpose.reply value ∧ t.Keeps config.limits cache.readClock.1 key value)
        (cache.step held (.loaderEnded thread (.value value))).1 := by
      simp only [step, running]
      exact goes_ended.resume (At.steadfast ..) kept ⟨rfl, rfl, rfl, rfl, rfl⟩ arguments calls
    exact ended.imp fun _ _ _ after => ⟨after.1, after.2.readsBack⟩

def fetched? : List (Call K V) → Option (Shared K × Flight)
  | ⟨_, [.loading key flight _ _ .fetch, .holding _]⟩ :: _ => some (key, flight)
  | _ => none

omit [DecidableEq K] in
theorem running_of_fetched {calls : List (Call K V)} {flight : Flight} (fetched : fetched? calls = some (key, flight)) :
    ∃ arguments started source objects rest,
      calls = ⟨arguments, [.loading key flight started source .fetch, .holding objects]⟩ :: rest := by
  unfold fetched? at fetched
  split at fetched
  · cases fetched
    exact ⟨_, _, _, _, _, rfl⟩
  · cases fetched

theorem reads_back_beside_a_read :
    let config : Config Nat Nat := { initialCapacity := 1, concurrencyLevel := 1, maximum := some 2 }
    let held : Reach := fun _ => true
    ∃ (cache : Cache Nat Nat ManualClock) (accepted : List (Nat × Shared Nat)) (notified : List (Removal Nat Nat)),
      Recorded config (fun _ => 3) {} cache accepted notified ∧ accepted = [(7, ⟨1, 70⟩), (8, ⟨3, 80⟩)] ∧
        Completes held 0 (fun _ _ t => t.ReadsBack config cache.readClock.1 9 ⟨5, 90⟩)
          (cache.step held (.call 0 (.insert ⟨4, 9⟩ ⟨5, 90⟩))).1 ∧
        Completes held 0
          (fun _ reply t => reply = .outcome (.ok ⟨5, 90⟩) ∧ t.ReadsBack config cache.readClock.1 9 ⟨5, 90⟩)
          (cache.step held (.loaderEnded 0 (.value ⟨5, 90⟩))).1 := by
  intro config held
  have created : Recorded config (fun _ => 3) ({} : ManualClock) _ _ _ := .create
  have stored := (created.step held (.call 1 (.insert ⟨0, 7⟩ ⟨1, 70⟩))).step held (.proceed 1)
  have full := (stored.step held (.call 2 (.insert ⟨2, 8⟩ ⟨3, 80⟩))).step held (.proceed 2)
  have read := (full.step held (.call 3 (.lookup 7))).step held (.proceed 3)
  have missed := ((read.step held (.call 0 (.get ⟨4, 9⟩))).step held (.proceed 0)).step held (.proceed 0)
  have loading := ((missed.step held (.proceed 0)).step held (.proceed 0)).step held (.proceed 0)
  obtain ⟨cache, accepted, notified, recorded, all, fits, room, asked, awaited⟩ :
      ∃ (cache : Cache Nat Nat ManualClock) (accepted : List (Nat × Shared Nat)) (notified : List (Removal Nat Nat)),
        Recorded config (fun _ => 3) {} cache accepted notified ∧ accepted = [(7, ⟨1, 70⟩), (8, ⟨3, 80⟩)] ∧
        cache.Fits config 9 90 ∧
        (cache.shards[cache.segmentOf 9]?).all (fun shard => !shard.segment.bound.isExceededBy
          (1 + shard.segment.weightOf fun record =>
            record.1 ∈ shard.segment.readLog.toList && record.2.key.data ≠ 9)) = true ∧
        fetched? (cache.callsOf 0) = some (⟨4, 9⟩, ⟨0, 0⟩) ∧
        (cache.shards[0]?).any (fun shard => shard.segment.records.any fun record =>
          record.2.key.data = 9 && record.2.load? = some 0 && record.2.isReserved) = true :=
    ⟨_, _, _, loading, by decide +kernel, by unfold Cache.Fits; decide +kernel, by decide +kernel, by decide +kernel,
      by decide +kernel⟩
  have calm : cache.Calm config 9 90 := by
    intro shard found
    rw [found, Option.all_some, Bool.not_eq_true'] at room
    exact .inr room
  obtain ⟨inserts, loads⟩ := reads_back_of_recorded recorded rfl rfl rfl ⟨4, 9⟩ ⟨5, 90⟩ fits calm held 0
  obtain ⟨arguments, started, source, objects, calls, running⟩ := running_of_fetched asked
  refine ⟨cache, accepted, notified, recorded, all, inserts, loads _ _ _ _ _ _ _ running ?_⟩
  obtain ⟨shard, found, waiting⟩ := (Option.any_eq_true _ _).mp awaited
  obtain ⟨⟨handle, record⟩, stored, waits⟩ := List.any_eq_true.mp waiting
  simp only [Bool.and_eq_true, decide_eq_true_eq] at waits
  exact ⟨shard, handle, record, found, Segment.mem_records.mp stored, waits.1.1, waits.1.2, .inl waits.2⟩

theorem lost_behind_a_read :
    let config : Config Nat Nat := { initialCapacity := 1, concurrencyLevel := 1, maximum := some 1 }
    let held : Reach := fun _ => true
    ∃ (cache : Cache Nat Nat ManualClock) (accepted : List (Nat × Shared Nat)) (notified : List (Removal Nat Nat)),
      Recorded config (fun _ => 3) {} cache accepted notified ∧ config.keepsNothing = false ∧
        cache.Fits config 8 80 ∧ cache.callsOf 0 = [] ∧
          ¬ Completes held 0 (fun _ _ t => t.ReadsBack config cache.readClock.1 8 ⟨3, 80⟩)
            (cache.step held (.call 0 (.insert ⟨2, 8⟩ ⟨3, 80⟩))).1 := by
  intro config held
  have created : Recorded config (fun _ => 3) ({} : ManualClock) _ _ _ := .create
  have storing := (created.step held (.call 0 (.insert ⟨0, 7⟩ ⟨1, 70⟩))).step held (.proceed 0)
  have stored := (storing.step held (.proceed 0)).step held (.proceed 0)
  have read := ((stored.step held (.call 0 (.lookup 7))).step held (.proceed 0)).step held (.proceed 0)
  obtain ⟨cache, accepted, notified, ⟨_, _, t⟩, ⟨_, reply, _⟩, recorded, fits, idle, inserted,
      looked_up, lost⟩ :
      ∃ (cache : Cache Nat Nat ManualClock) (accepted : List (Nat × Shared Nat)) (notified : List (Removal Nat Nat))
        (stored looked : List (LoaderEnd Nat × Nat) × Reply Nat Nat × Cache Nat Nat ManualClock),
        Recorded config (fun _ => 3) {} cache accepted notified ∧ cache.Fits config 8 80 ∧
        (cache.callsOf 0).isEmpty = true ∧
        (cache.step held (.call 0 (.insert ⟨2, 8⟩ ⟨3, 80⟩))).1.serve (fun _ _ => false) held 0 9 [] =
          some stored ∧
        ({ stored.2.2 with clock := stored.2.2.clock }.step held (.call 0 (.lookup 8))).1.serve
          (fun _ _ => false) held 0 9 [] = some looked ∧
        Reply.data? looked.2.1 = none :=
    ⟨_, _, _, _, _, read, by unfold Cache.Fits; decide +kernel, by decide +kernel,
      (Option.some_get (by decide +kernel)).symm, (Option.some_get (by decide +kernel)).symm, by decide +kernel⟩
  refine ⟨cache, accepted, notified, recorded, rfl, fits, List.isEmpty_iff.mp idle, fun completes => ?_⟩
  have readsBack := completes.of_serves (serves_of_serve (by simp) inserted)
  have young : config.IsYoung ((Clock.read t.clock).1 - cache.readClock.1) := by
    rintro _ (set | set) <;> cases set
  have found := (readsBack t.clock young held 0).of_serves (serves_of_serve (by simp) looked_up)
  cases found
  cases lost

end Cache
end SegmentedCache
