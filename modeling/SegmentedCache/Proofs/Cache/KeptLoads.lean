import SegmentedCache.Proofs.Cache.ReadBack
import SegmentedCache.Proofs.Cache.Tending
import SegmentedCache.Proofs.Segment.KeptLoads

namespace SegmentedCache.Cache

/-!
A loaded value whose entry still waits for it when the loader returns. In a cache without a bound it is kept, unless the
entry was being refreshed and its old value is swept away for its age before the new one arrives.
-/

variable {K V τ : Type} [DecidableEq K] [Clock τ]

/-- The thread goes on by itself, with a listener that makes no calls, until it has these calls left, and then this
holds. -/
inductive Arrives (held : Reach) (thread : ThreadId) (calls : List (Call K V)) (goal : Cache K V τ → Prop) :
    Cache K V τ → Prop where
  | there {cache : Cache K V τ} (here : cache.callsOf thread = calls) (reached : goal cache) :
      Arrives held thread calls goal cache
  | progress {cache t : Cache K V τ} (proceeds : cache.proceed held thread = (t, .progress))
      (rest : Arrives held thread calls goal t) : Arrives held thread calls goal cache
  | listener {cache t : Cache K V τ} {notice : Notice K V} (proceeds : cache.proceed held thread = (t, .notify notice))
      (rest : ∀ ending, Arrives held thread calls goal (t.step held (.listenerEnded thread ending)).1) :
      Arrives held thread calls goal cache

namespace Arrives

variable {held : Reach} {thread : ThreadId} {calls outer : List (Call K V)} {goal holds : Cache K V τ → Prop}
  {cache : Cache K V τ} {arguments : List ObjectId} {frame : Frame K V} {rest : List (Frame K V)}

theorem work (active : frame.isActive = true) (here : cache.callsOf thread = ⟨arguments, frame :: rest⟩ :: outer)
    (next : Arrives held thread calls goal
      ((cache.work (cache.reach held) thread frame).1.setCalls thread
        (⟨arguments, (cache.work (cache.reach held) thread frame).2 ++ rest⟩ :: outer))) :
    Arrives held thread calls goal cache :=
  .progress (proceed_of_active here active held) next

theorem delivering (steadfast : Steadfast holds)
    (next : ∀ t, holds t → t.callsOf thread = ⟨arguments, rest⟩ :: outer → Arrives held thread calls goal t)
    (now : holds cache) (here : cache.callsOf thread = ⟨arguments, .delivering :: rest⟩ :: outer) :
    Arrives held thread calls goal cache := by
  generalize waiting : cache.undelivered = undelivered
  induction undelivered generalizing cache with
  | nil =>
      apply work rfl here
      simp only [Cache.work, waiting]
      exact next _ (steadfast.kept cache _ ⟨rfl, rfl, rfl, rfl, rfl⟩ now) (by simp)
  | cons removal later ih =>
      apply work rfl here
      simp only [Cache.work, waiting, List.cons_append, List.nil_append]
      generalize told : ({ cache with undelivered := later }.setCalls thread
        (⟨arguments, .listening removal :: .delivering :: rest⟩ :: outer)) = t
      have now' : holds t := told ▸ steadfast.kept cache _ ⟨rfl, rfl, rfl, rfl, rfl⟩ now
      have here' : t.callsOf thread = ⟨arguments, .listening removal :: .delivering :: rest⟩ :: outer := by
        rw [← told]
        simp
      have left : t.undelivered = later := told ▸ rfl
      have notifies : t.proceed held thread = (t, .notify removal.notice) := by simp only [proceed, here']
      apply Arrives.listener notifies
      intro ending
      simp only [step, here']
      cases ending with
      | quiet | panicked => exact ih (steadfast.kept t _ ⟨rfl, rfl, rfl, rfl, rfl⟩ now') (by simp) left

theorem deliver (steadfast : Steadfast holds)
    (next : ∀ t, holds t → t.callsOf thread = ⟨arguments, rest⟩ :: outer → Arrives held thread calls goal t)
    (now : holds cache) (here : cache.callsOf thread = ⟨arguments, .deliver :: rest⟩ :: outer) :
    Arrives held thread calls goal cache := by
  apply work rfl here
  simp only [Cache.work]
  split
  · exact delivering steadfast next (steadfast.kept cache _ ⟨rfl, rfl, rfl, rfl, rfl⟩ now) (by simp)
  · exact next _ (steadfast.kept cache _ ⟨rfl, rfl, rfl, rfl, rfl⟩ now) (by simp)

end Arrives

variable {config : Config K V} {hash : K → UInt64} {clock : τ} {cache : Cache K V τ}
  {accepted : List (K × Shared V)} {notified : List (Removal K V)} {key : Shared K} {flight : Flight}
  {shard : Shard K V} {handle : Handle} {record : Entry K V}

structure Waits (cache : Cache K V τ) (key : K) (flight : Flight) (shard : Shard K V) (handle : Handle)
    (record : Entry K V) : Prop where
  found : cache.shards[flight.segment]? = some shard
  stored : shard.segment.bare? handle = some record
  same : record.key.data = key
  own : record.load? = some flight.load

/-- What may be reported when a load gives its value to an entry: the value that it takes the place of, and values of
other entries that can not be read any more. -/
def Supersedes (shard : Shard K V) (reach : Reach) (now : Nat) (handle : Handle) (record : Entry K V)
    (removal : Removal K V) : Prop :=
  record.visible? = some removal.value.object ∧ removal.cause = .replaced ∨
    ∃ other record', other ≠ handle ∧ shard.segment.bare? other = some record' ∧
      record'.visible? = some removal.value.object ∧
      shard.segment.policy.stale? reach now record' = some removal.cause

theorem endLoader_value (cache : Cache K V τ) (reach : Reach) (key : Shared K) (flight : Flight) (started : Nat)
    (source : Source) (purpose : Purpose V) (value : Shared V) :
    ∃ stats, cache.endLoader reach key flight started source purpose (.value value) =
      ({ cache.readClock.2 with stats }.changeSegment flight.segment
          ((Operation.finishLoad key flight.load (some value)).run cache.hash
            (fun object => reach object || value.id = object) cache.readClock.1),
        [.deliver, .settle flight (.ok value), .conclude source purpose (.ok value)]) := by
  obtain ⟨stats, counted⟩ := count_eq cache.readClock.2 (·.countLoad (cache.readClock.1 - started))
  have hash : (cache.readClock.2.count (·.countLoad (cache.readClock.1 - started))).hash = cache.hash := by
    rw [counted]
    rfl
  refine ⟨stats, ?_⟩
  rw [← counted, ← hash]
  rfl

theorem step_loaderEnded_value {thread : ThreadId} {arguments : List ObjectId} {started : Nat} {source : Source}
    {purpose : Purpose V} {rest : List (Frame K V)} {outer : List (Call K V)}
    (running : cache.callsOf thread = ⟨arguments, .loading key flight started source purpose :: rest⟩ :: outer)
    (placed : flight.segment = cache.segmentOf key.data) (found : cache.shards[flight.segment]? = some shard)
    (value : Shared V) (held : Reach) :
    let now := cache.readClock.1
    let ended := (cache.step held (.loaderEnded thread (.value value))).1
    let reach : Reach := fun object => cache.reach held object || value.id = object
    ∃ u t : Cache K V τ, u.hash = cache.hash ∧ flight.segment = u.segmentOf key.data ∧
      u.shards[u.segmentOf key.data]? = some shard ∧
      t = u.changeSegment (u.segmentOf key.data)
        ((Operation.finishLoad key flight.load (some value)).run u.hash reach now) ∧
      ended = t.setCalls thread
        (⟨arguments, .deliver :: .settle flight (.ok value) :: .conclude source purpose (.ok value) :: rest⟩ ::
          outer) ∧
      ended.undelivered = if cache.listens then cache.undelivered ++
        (shard.segment.finishLoad reach now key (cache.hash key.data) flight.load (some value)).removals
        else cache.undelivered := by
  intro now ended reach
  obtain ⟨stats, ending⟩ := cache.endLoader_value (cache.reach held) key flight started source purpose value
  obtain ⟨u, timed⟩ : ∃ u : Cache K V τ, u = { cache.readClock.2 with stats } := ⟨_, rfl⟩
  rw [← timed] at ending
  have hash_eq : u.hash = cache.hash := by
    rw [timed]
    rfl
  have place : flight.segment = u.segmentOf key.data := by
    rw [placed, timed]
    rfl
  have found' : u.shards[u.segmentOf key.data]? = some shard := by
    rw [← place, ← found, timed]
    rfl
  have ended_eq : ended = (u.changeSegment (u.segmentOf key.data)
      ((Operation.finishLoad key flight.load (some value)).run u.hash reach now)).setCalls thread
        (⟨arguments, .deliver :: .settle flight (.ok value) :: .conclude source purpose (.ok value) :: rest⟩ ::
          outer) := by
    rw [hash_eq, ← place]
    simp only [ended, step, running, ending]
    rfl
  refine ⟨u, _, hash_eq, place, found', rfl, ended_eq, ?_⟩
  obtain ⟨_, _, changed⟩ := changeSegment_eq found'
    ((Operation.finishLoad key flight.load (some value)).run u.hash reach now)
  rw [ended_eq, changed, hash_eq, timed]
  rfl

theorem Keeps.arrives {now : Nat} {value : Shared V} (kept : cache.Keeps config.limits now key value) (held : Reach)
    (thread : ThreadId) (arguments : List ObjectId) (flight : Flight) (outcome : LoadOutcome V)
    (rest : List (Frame K V)) (outer : List (Call K V)) :
    (cache.setCalls thread (⟨arguments, .deliver :: .settle flight outcome :: rest⟩ :: outer)).Arrives held thread
      (⟨arguments, rest⟩ :: outer) (·.ReadsBack config now key.data value) := by
  obtain ⟨t, t_eq⟩ : ∃ t, t = cache.setCalls thread
    (⟨arguments, .deliver :: .settle flight outcome :: rest⟩ :: outer) := ⟨_, rfl⟩
  have kept' : t.Keeps config.limits now key value := by
    rw [t_eq]
    exact (At.steadfast ..).kept cache _ ⟨rfl, rfl, rfl, rfl, rfl⟩ kept
  have here : t.callsOf thread = ⟨arguments, .deliver :: .settle flight outcome :: rest⟩ :: outer := by
    rw [t_eq]
    simp
  rw [← t_eq]
  refine Arrives.deliver (At.steadfast ..) (fun t' kept here => ?_) kept' here
  apply Arrives.work rfl here
  have settled : (t'.modifyLoad flight (·.settle outcome)).Keeps config.limits now key value :=
    Keeps.modifyLoad kept flight _
  exact .there (by simp [Cache.work])
    (Keeps.readsBack ((At.steadfast ..).kept _ _ ⟨rfl, rfl, rfl, rfl, rfl⟩ settled))

/-- When a loader returns a value and an entry of its key still waits for it, that is kept if the entry was reserved for
it, or its old value is not too old, or that is sheltered from the sweep. Otherwise the loaded value is lost. -/
theorem loaded_value_kept (recorded : Recorded config hash clock cache accepted notified)
    (keys : config.keyStrength = .strong) (values : config.valueStrength = .strong) (unbounded : config.bound = none)
    {thread : ThreadId} {arguments : List ObjectId} {started : Nat} {source : Source} {purpose : Purpose V}
    {rest : List (Frame K V)} {outer : List (Call K V)}
    (running : cache.callsOf thread = ⟨arguments, .loading key flight started source purpose :: rest⟩ :: outer)
    (waits : cache.Waits key.data flight shard handle record) (value : Shared V) (held : Reach) :
    let now := cache.readClock.1
    let ended := (cache.step held (.loaderEnded thread (.value value))).1
    let reach : Reach := fun object => cache.reach held object || value.id = object
    (record.isReserved = true ∨ shard.segment.policy.isExpired now record = false ∨
        shard.segment.Sheltered reach now handle →
      ended.Arrives held thread (⟨arguments, .conclude source purpose (.ok value) :: rest⟩ :: outer)
          (·.ReadsBack config now key.data value) ∧
        ∀ removal ∈ ended.undelivered, removal ∈ cache.undelivered ∨
          Supersedes shard reach now handle record removal) ∧
    (¬ shard.segment.Sheltered reach now handle →
      (∀ shard', ended.shards[flight.segment]? = some shard' → ∀ other record',
          shard'.segment.bare? other = some record' → record'.key.data ≠ key.data) ∧
        (cache.listens = true →
          ∃ cause, { key := ⟨key, true⟩, value := ⟨value, true⟩, cause } ∈ ended.undelivered)) := by
  intro now ended reach
  obtain ⟨found, stored, same, own⟩ := waits
  have arranged := recorded.composed.arranged thread _ (running ▸ List.mem_cons_self)
  have placed : flight.segment = cache.segmentOf key.data := (arranged.fits rfl _ List.mem_cons_self).2 _ rfl
  have sound := recorded.hash_eq ▸ recorded.sound keys values _ _ found
  have weighed := recorded.weighed _ _ found
  have limits : shard.segment.policy.lifetime = config.limits := by
    have something : config.keepsNothing = false := by
      unfold Config.bound at unbounded
      cases nothing : config.keepsNothing <;> simp [nothing] at unbounded ⊢
    rw [weighed.policy]
    exact Config.limits_eq something
  have light (weight : Nat) : shard.segment.bound.isExceededBy weight = false := by
    rw [weighed.bound, unbounded]
    rfl
  obtain ⟨u, t, hash_eq, place, found', t_eq, (ended_eq : ended = _), (told : ended.undelivered = _)⟩ :=
    step_loaderEnded_value running placed found value held
  constructor
  · intro spared
    -- A reserved entry or a young one is never swept, so shelter is what all three cases come to.
    have sheltered : shard.segment.Sheltered reach now handle := by
      rcases spared with reserved | young | sheltered
      · exact sound.consistent.sheltered_of_reserved stored reserved
      · exact Segment.sheltered_of_fresh stored (by
          simp [Policy.stale?, young, Policy.isLost_of_strong sound.strong])
      · exact sheltered
    constructor
    · have left := sound.prepare_bare?.mpr ⟨stored, sheltered⟩
      have kept : t.Keeps config.limits now key value := by
        rw [t_eq, ← limits]
        refine keeps_of_operate u found' (hash_eq ▸ sound) _ ?_
        rw [hash_eq]
        exact sound.finishLoad_keeps_of_left (.inr (light _)) (light _) left own same
      rw [ended_eq]
      exact kept.arrives held thread arguments flight (.ok value) _ outer
    · intro removal reported
      rw [told] at reported
      split at reported
      · rcases List.mem_append.mp reported with earlier | new
        · exact .inl earlier
        · have nothing := (recorded.composed.orderly.shards _ _ found).2
          have supersedes := sound.finishLoad_reports (by rw [weighed.bound, unbounded]; rfl) stored own same sheltered
            removal new
          rw [nothing] at supersedes
          exact .inr (supersedes.resolve_left List.not_mem_nil)
      · exact .inl reported
  · intro exposed
    obtain ⟨gone, cause, reported⟩ := sound.finishLoad_of_exposed stored same exposed
    constructor
    · intro shard' found'' other record' stored'
      obtain ⟨after, here, emptied⟩ := getElem?_changeSegment found'
        ((Operation.finishLoad key flight.load (some value)).run u.hash reach now)
      rw [← t_eq, ← place] at here
      rw [ended_eq] at found''
      cases here.symm.trans found''
      rw [emptied, hash_eq] at stored'
      exact gone other record' stored'
    · intro listens
      rw [told, if_pos listens]
      exact ⟨cause, List.mem_append_right _ reported⟩

def renewed? : List (Call K V) → Option (Shared K × Flight × Shared V)
  | ⟨_, .loading key flight _ _ (.renew old) :: _⟩ :: _ => some (key, flight, old)
  | _ => none

omit [DecidableEq K] in
theorem running_of_renewed {calls : List (Call K V)} {old : Shared V}
    (renewed : renewed? calls = some (key, flight, old)) :
    ∃ arguments started source rest outer,
      calls = ⟨arguments, .loading key flight started source (.renew old) :: rest⟩ :: outer := by
  unfold renewed? at renewed
  split at renewed
  · cases renewed
    exact ⟨_, _, _, _, _, rfl⟩
  · cases renewed

theorem refreshed_in_time :
    let config : Config Nat Nat := { initialCapacity := 1, concurrencyLevel := 1,
                                     expireAfterWrite := some (.ofNanos 10) }
    let held : Reach := fun _ => true
    ∃ (cache : Cache Nat Nat ManualClock) (accepted : List (Nat × Shared Nat)) (notified : List (Removal Nat Nat))
      (calls : List (Call Nat Nat)),
      Recorded config (fun _ => 3) {} cache accepted notified ∧
        renewed? (cache.callsOf 0) = some (⟨2, 7⟩, ⟨0, 0⟩, ⟨1, 70⟩) ∧ cache.readClock.1 = 9 ∧
        (cache.step held (.loaderEnded 0 (.value ⟨3, 71⟩))).1.Arrives held 0 calls
          (·.ReadsBack config 9 7 ⟨3, 71⟩) := by
  intro config held
  have created : Recorded config (fun _ => 3) ({} : ManualClock) _ _ _ := .create
  have storing := (created.step held (.call 0 (.insert ⟨0, 7⟩ ⟨1, 70⟩))).step held (.proceed 0)
  have asked := ((storing.step held (.proceed 0)).step held (.proceed 0)).step held (.call 0 (.refresh ⟨2, 7⟩))
  have renewed := ((asked.step held (.proceed 0)).step held (.proceed 0)).step held (.proceed 0)
  have loading := (renewed.step held (.proceed 0)).step held (.setClock { nanos := 9 })
  obtain ⟨cache, accepted, notified, recorded, renews, now, awaited⟩ :
      ∃ (cache : Cache Nat Nat ManualClock) (accepted : List (Nat × Shared Nat)) (notified : List (Removal Nat Nat)),
        Recorded config (fun _ => 3) {} cache accepted notified ∧
        renewed? (cache.callsOf 0) = some (⟨2, 7⟩, ⟨0, 0⟩, ⟨1, 70⟩) ∧ cache.readClock.1 = 9 ∧
        (cache.shards[0]?).any (fun shard => shard.segment.records.any fun record =>
          record.2.key.data = 7 && record.2.load? = some 0 && !shard.segment.policy.isExpired 9 record.2) = true :=
    ⟨_, _, _, loading, by decide +kernel, by decide +kernel, by decide +kernel⟩
  obtain ⟨shard, found, waiting⟩ := (Option.any_eq_true _ _).mp awaited
  obtain ⟨⟨handle, record⟩, stored, waits⟩ := List.any_eq_true.mp waiting
  simp only [Bool.and_eq_true, Bool.not_eq_true', decide_eq_true_eq] at waits
  obtain ⟨arguments, started, source, rest, outer, running⟩ := running_of_renewed renews
  have kept := loaded_value_kept recorded rfl rfl rfl running
    ⟨found, Segment.mem_records.mp stored, waits.1.1, waits.1.2⟩ ⟨3, 71⟩ held
  exact ⟨cache, accepted, notified, _, recorded, renews, now, now ▸ (kept.1 (.inr (.inl (now ▸ waits.2)))).1⟩

theorem refreshed_too_late :
    let config : Config Nat Nat := { initialCapacity := 1, concurrencyLevel := 1, listens := true,
                                     expireAfterWrite := some (.ofNanos 10) }
    let held : Reach := fun _ => true
    ∃ (cache : Cache Nat Nat ManualClock) (accepted : List (Nat × Shared Nat)) (notified : List (Removal Nat Nat))
      (shard : Shard Nat Nat) (handle : Handle) (record : Entry Nat Nat),
      Recorded config (fun _ => 3) {} cache accepted notified ∧
        renewed? (cache.callsOf 0) = some (⟨2, 7⟩, ⟨0, 0⟩, ⟨1, 70⟩) ∧
        cache.Waits 7 ⟨0, 0⟩ shard handle record ∧
        let ended := (cache.step held (.loaderEnded 0 (.value ⟨3, 71⟩))).1
        ended.undelivered.map (fun removal => (removal.value.object, removal.cause)) =
            [(⟨1, 70⟩, .expired), (⟨3, 71⟩, .expired)] ∧
          ¬ Completes held 0 (fun _ _ t => t.ReadsBack config cache.readClock.1 7 ⟨3, 71⟩) ended := by
  intro config held
  have created : Recorded config (fun _ => 3) ({} : ManualClock) _ _ _ := .create
  have storing := (created.step held (.call 0 (.insert ⟨0, 7⟩ ⟨1, 70⟩))).step held (.proceed 0)
  have stored := ((storing.step held (.proceed 0)).step held (.proceed 0)).step held (.proceed 0)
  have asked := (stored.step held (.call 0 (.refresh ⟨2, 7⟩))).step held (.proceed 0)
  have renewed := ((asked.step held (.proceed 0)).step held (.proceed 0)).step held (.proceed 0)
  have loading := (renewed.step held (.proceed 0)).step held (.setClock { nanos := 20 })
  obtain ⟨cache, accepted, notified, ⟨_, _, t⟩, ⟨_, reply, _⟩, recorded, renews, awaited, reported,
    ended, looked_up,
      lost⟩ :
      ∃ (cache : Cache Nat Nat ManualClock) (accepted : List (Nat × Shared Nat)) (notified : List (Removal Nat Nat))
        (completed looked : List (LoaderEnd Nat × Nat) × Reply Nat Nat × Cache Nat Nat ManualClock),
        Recorded config (fun _ => 3) {} cache accepted notified ∧
        renewed? (cache.callsOf 0) = some (⟨2, 7⟩, ⟨0, 0⟩, ⟨1, 70⟩) ∧
        (cache.shards[0]?).any (fun shard => shard.segment.records.any fun record =>
          record.2.key.data = 7 && record.2.load? = some 0) = true ∧
        (cache.step held (.loaderEnded 0 (.value ⟨3, 71⟩))).1.undelivered.map
          (fun removal => (removal.value.object, removal.cause)) =
          [(⟨1, 70⟩, .expired), (⟨3, 71⟩, .expired)] ∧
        (cache.step held (.loaderEnded 0 (.value ⟨3, 71⟩))).1.serve (fun _ _ => false) held 0 15 [] =
          some completed ∧
        ({ completed.2.2 with clock := cache.clock }.step held (.call 0 (.lookup 7))).1.serve
          (fun _ _ => false) held 0 9 [] = some looked ∧
        Reply.data? looked.2.1 = none :=
    ⟨_, _, _, _, _, loading, by decide +kernel, by decide +kernel, by decide +kernel,
      (Option.some_get (by decide +kernel)).symm, (Option.some_get (by decide +kernel)).symm, by decide +kernel⟩
  obtain ⟨shard, found, waiting⟩ := (Option.any_eq_true _ _).mp awaited
  obtain ⟨⟨handle, record⟩, held_there, waits⟩ := List.any_eq_true.mp waiting
  simp only [Bool.and_eq_true, decide_eq_true_eq] at waits
  refine ⟨cache, accepted, notified, shard, handle, record, recorded, renews,
    ⟨found, Segment.mem_records.mp held_there, waits.1, waits.2⟩, reported, fun completes => ?_⟩
  have readsBack := completes.of_serves (serves_of_serve (by simp) ended)
  have young : config.IsYoung ((Clock.read cache.clock).1 - cache.readClock.1) := by
    rintro span (set | set)
    · cases set
      exact Nat.lt_of_le_of_lt (Nat.sub_self _).le (by decide)
    · cases set
  have found := (readsBack cache.clock young held 0).of_serves (serves_of_serve (by simp) looked_up)
  cases found
  cases lost

end SegmentedCache.Cache
