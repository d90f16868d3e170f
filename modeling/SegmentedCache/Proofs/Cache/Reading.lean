import SegmentedCache.Proofs.Cache.Deeds
import SegmentedCache.Proofs.Cache.Refinement
import SegmentedCache.Proofs.Cache.Tallies
import SegmentedCache.Proofs.Segment.Listing

namespace SegmentedCache

/-!
Runs in which all ways to read a cache agree. A lookup and a test go to the segment of their key, a listing goes
over all segments, and what they find at one time is the same.
-/

variable {K V τ : Type}

def valueIn [DecidableEq K] (listed : List (Shared K × Shared V)) (key : K) : Option (Shared V) :=
  (listed.find? (·.1.data = key)).map (·.2)

theorem valueIn_eq_some [DecidableEq K] {listed : List (Shared K × Shared V)}
    (distinct : (listed.map (·.1.data)).Nodup) {key : K} {value : Shared V} :
    valueIn listed key = some value ↔ ∃ pair ∈ listed, pair.1.data = key ∧ pair.2 = value := by
  rw [valueIn, Option.map_eq_some_iff]
  constructor
  · rintro ⟨pair, found, rfl⟩
    exact ⟨pair, List.mem_of_find?_eq_some found, by simpa using List.find?_some found, rfl⟩
  · rintro ⟨pair, member, rfl, rfl⟩
    obtain ⟨other, found⟩ : ∃ other, listed.find? (·.1.data = pair.1.data) = some other :=
      Option.isSome_iff_exists.mp (List.find?_isSome.mpr ⟨pair, member, by simp⟩)
    have same : other.1.data = pair.1.data := by simpa using List.find?_some found
    have here : other = pair := List.inj_on_of_nodup_map distinct (List.mem_of_find?_eq_some found) member same
    exact ⟨pair, here ▸ found, rfl⟩

def Request.replyFrom? [DecidableEq K] (listed : List (Shared K × Shared V)) : Request K V → Option (Reply K V)
  | .lookup key => some (.value (valueIn listed key))
  | .contains key => some (.flag (valueIn listed key).isSome)
  | .entries => some (.entries listed)
  | _ => none

namespace Cache

def Sorted (place : K → Nat) (cache : Cache K V τ) : Prop :=
  cache.Each fun index shard => shard.segment.Only fun key => place key = index

theorem lasting_only [DecidableEq K] (hash : K → UInt64) (place : K → Nat) :
    Lasting hash place fun index (shard : Shard K V) =>
      shard.segment.Consistent ∧ shard.segment.Only fun key => place key = index where
  read _ _ holds := holds
  modifyLoad load f _ _ holds := ⟨(holds.1.modifyLoad load f).consistent, holds.2⟩
  operate reach now op _ _ placed holds :=
    have runs := holds.1.runs hash reach now op
    ⟨(runs.consistent holds.1).collected.consistent, runs.only holds.1 placed holds.2⟩

section Reading

variable [DecidableEq K] [Clock τ] {config : Config K V} {hash : K → UInt64} {clock : τ}
  {past : List (Moment K V τ)} {cache : Cache K V τ} {kept held reach : Reach} {thread : ThreadId}
  {spent : Flight → Prop}

theorem Recorded.sorted {accepted : List (K × Shared V)} {notified : List (Removal K V)}
    (recorded : Recorded config hash clock cache accepted notified) : cache.Sorted cache.segmentOf := by
  intro index shard found
  rw [recorded.segmentOf_eq]
  refine (recorded.each (lasting_only hash _) ?_ index shard found).2
  intro index shard found
  obtain ⟨exponent, rfl⟩ := shard_create found
  refine ⟨Segment.consistent_create _ _ exponent, fun handle record there => ?_⟩
  cases (Segment.bare?_create _ _ _ handle).symm.trans there

def listed (cache : Cache K V τ) (reach : Reach) : List (Shared K × Shared V) :=
  cache.shards.toList.flatMap fun shard => shard.segment.toList reach cache.readClock.1

omit [DecidableEq K] in
theorem mem_listed {pair : Shared K × Shared V} :
    pair ∈ cache.listed reach ↔ ∃ (index : Nat) (shard : Shard K V), cache.shards[index]? = some shard ∧
      pair ∈ shard.segment.toList reach cache.readClock.1 := by
  rw [listed, List.mem_flatMap]
  constructor
  · rintro ⟨shard, member, shown⟩
    obtain ⟨index, found⟩ := Array.mem_iff_getElem?.mp (Array.mem_toList_iff.mp member)
    exact ⟨index, shard, found, shown⟩
  · rintro ⟨index, shard, found, shown⟩
    exact ⟨shard, List.mem_of_getElem? (Array.getElem?_toList.trans found), shown⟩

theorem lookup_frames (cache : Cache K V τ) (reach : Reach) (key : K) :
    ∃ due, Due due ∧ (cache.lookup reach key).2 = due ++ [.give (.value (cache.finding reach key).value?)] := by
  have looking := cache.looking reach key
  generalize cache.lookup reach key = result at looking ⊢
  cases looking with
  | served live =>
      rw [live]
      exact ⟨_, countRead_due .., rfl⟩
  | missed other =>
      have nothing : (cache.finding reach key).value? = none := by
        cases found : cache.finding reach key with
        | live value refresh => exact absurd found (other value refresh)
        | pending | nothing => rfl
      rw [nothing]
      exact ⟨_, countRead_due .., rfl⟩

theorem holdsAt_eq (cache : Cache K V τ) (reach : Reach) (key : K) :
    cache.holdsAt reach cache.readClock.1 key = (cache.finding reach key).value?.isSome := by
  rw [holdsAt, finding]
  cases cache.shards[cache.segmentOf key]? with
  | none => rfl
  | some shard => exact shard.segment.contains_eq ..

section Tended

variable (tended : cache.Tended kept spent) (sorted : cache.Sorted cache.segmentOf)

include tended sorted

omit [DecidableEq K] in
theorem nodup_listed (reach : Reach) : ((cache.listed reach).map (·.1.data)).Nodup := by
  rw [listed, List.map_flatMap, List.nodup_flatMap]
  constructor
  · intro shard member
    obtain ⟨index, found⟩ := Array.mem_iff_getElem?.mp (Array.mem_toList_iff.mp member)
    exact ((tended index shard found).keyed reach).nodup_toList _
  · rw [List.pairwise_iff_getElem]
    intro first second inside inside' before key member member'
    obtain ⟨pair, shown, rfl⟩ := List.mem_map.mp member
    obtain ⟨pair', shown', same⟩ := List.mem_map.mp member'
    have here := (sorted first _ (by simp)).listed shown
    have there := (sorted second _ (by simp)).listed shown'
    rw [same, here] at there
    exact Nat.ne_of_lt before there

omit [DecidableEq K] tended in
theorem mem_listed_iff {pair : Shared K × Shared V} {key : K} (same : pair.1.data = key) :
    pair ∈ cache.listed reach ↔ ∃ shard, cache.shards[cache.segmentOf key]? = some shard ∧
      pair ∈ shard.segment.toList reach cache.readClock.1 := by
  rw [mem_listed]
  constructor
  · rintro ⟨index, shard, found, shown⟩
    cases (sorted index shard found).listed shown
    exact ⟨shard, same ▸ found, shown⟩
  · rintro ⟨shard, found, shown⟩
    exact ⟨_, shard, found, shown⟩

theorem value?_finding (reach : Reach) (key : K) :
    (cache.finding reach key).value? = valueIn (cache.listed reach) key := by
  ext value
  have there : (∃ pair ∈ cache.listed reach, pair.1.data = key ∧ pair.2 = value) ↔
      ∃ shard, cache.shards[cache.segmentOf key]? = some shard ∧
        ∃ pair ∈ shard.segment.toList reach cache.readClock.1, pair.1.data = key ∧ pair.2 = value := by
    constructor
    · rintro ⟨pair, member, same, shown⟩
      obtain ⟨shard, found, inside⟩ := (mem_listed_iff sorted same).mp member
      exact ⟨shard, found, pair, inside, same, shown⟩
    · rintro ⟨shard, found, pair, inside, same, shown⟩
      exact ⟨pair, (mem_listed_iff sorted same).mpr ⟨shard, found, inside⟩, same, shown⟩
  rw [valueIn_eq_some (nodup_listed tended sorted reach), there, finding]
  cases here : cache.shards[cache.segmentOf key]? with
  | none => simp [Finding.value?]
  | some shard =>
      have inside := tended _ shard here
      rw [Option.elim_some, (inside.keyed reach).read_value?_eq_some inside.consistent.toLinked]
      simp

theorem startRequest_of_reading {request : Request K V} {reply : Reply K V}
    (reads : request.replyFrom? (cache.listed reach) = some reply) (thread : ThreadId) :
    ∃ due, Due due ∧ (cache.startRequest reach thread request).2 = due ++ [.give reply] := by
  cases request with
  | lookup key =>
      cases reads
      rw [← value?_finding tended sorted]
      exact cache.lookup_frames reach key
  | contains key =>
      cases reads
      rw [← value?_finding tended sorted, ← holdsAt_eq]
      exact ⟨[], .inl rfl, rfl⟩
  | entries =>
      cases reads
      exact ⟨[], .inl rfl, rfl⟩
  | _ => cases reads

end Tended

omit [DecidableEq K] in
theorem length_listed_le (published : cache.Each fun _ shard => shard.published = shard.segment.counted.length)
    (reach : Reach) : (cache.listed reach).length ≤ cache.size := by
  rw [listed, List.length_flatMap, size_eq_sum]
  refine List.sum_le_sum fun shard member => ?_
  obtain ⟨index, found⟩ := Array.mem_iff_getElem?.mp (Array.mem_toList_iff.mp member)
  rw [published index shard found]
  exact shard.segment.length_toList_le reach _

omit [DecidableEq K] [Clock τ] in
theorem reach_enter (cache : Cache K V τ) (thread : ThreadId) {request : Request K V} (nothing : request.objects = [])
    (held : Reach) :
    (cache.setCalls thread (⟨request.objects, [.start request]⟩ :: cache.callsOf thread)).reach held =
      cache.reach held := by
  generalize entered : cache.setCalls thread (⟨request.objects, [.start request]⟩ :: cache.callsOf thread) = t
  have policy : t.policy = cache.policy := by rw [← entered, setCalls]
  have needs : t.callObjects = cache.callObjects := by
    rw [← entered]
    rfl
  have same (object : ObjectId) : object ∈ t.objects ↔ object ∈ cache.objects := by
    rw [mem_objects_iff, mem_objects_iff, needs, ← entered]
    refine or_congr_right (or_congr_right (exists_congr fun other => ?_))
    rw [callsOf_setCalls]
    split
    · rename_i here
      subst here
      simp [callObjects, nothing, Frame.objects, awaitedObjects, Frame.awaited?]
    · rfl
  funext object
  simp only [reach, policy, List.contains_eq_mem]
  split
  · simp [same]
  · rfl

section Tended

variable (tended : cache.Tended kept spent) (sorted : cache.Sorted cache.segmentOf)

include tended sorted

theorem proceed_of_reading {arguments : List ObjectId} {request : Request K V} {rest : List (Frame K V)}
    {outer : List (Call K V)} {reply : Reply K V}
    (here : cache.callsOf thread = ⟨arguments, .start request :: rest⟩ :: outer)
    (reads : request.replyFrom? (cache.listed (cache.reach held)) = some reply) :
    ∃ (due : List (Frame K V)) (t : Cache K V τ), Due due ∧
      cache.proceed held thread =
        (t.setCalls thread (⟨arguments, due ++ .give reply :: rest⟩ :: outer), .progress) := by
  obtain ⟨due, isDue, frames⟩ := startRequest_of_reading tended sorted reads thread
  refine ⟨due, (cache.startRequest (cache.reach held) thread request).1, isDue, ?_⟩
  rw [proceed_of_active here rfl, work, frames, List.append_assoc, List.singleton_append]

theorem completes_of_reading (held : Reach) (thread : ThreadId) {request : Request K V} {reply : Reply K V}
    (reads : request.replyFrom? (cache.listed (cache.reach held)) = some reply) :
    Completes held thread (fun _ given _ => given = reply) (cache.step held (.call thread request)).1 := by
  have nothing : request.objects = [] := by
    cases request with
    | lookup | contains | entries => rfl
    | _ => cases reads
  rw [← cache.reach_enter thread nothing held] at reads
  have here := cache.callsOf_setCalls thread thread (⟨request.objects, [.start request]⟩ :: cache.callsOf thread)
  rw [if_pos rfl] at here
  have tended :
      (cache.setCalls thread (⟨request.objects, [.start request]⟩ :: cache.callsOf thread)).Tended kept spent :=
    tended
  obtain ⟨due, t, isDue, proceeds⟩ := proceed_of_reading tended sorted here reads
  have anything : Steadfast fun _ : Cache K V τ => True := ⟨fun _ _ _ _ => trivial⟩
  have gives : Goes held thread (fun _ given _ => given = reply) (fun _ : Cache K V τ => True) [.give reply] :=
    Goes.give anything fun _ _ => rfl
  exact .progress proceeds ((isDue.goes anything gives).resume anything trivial ⟨rfl, rfl, rfl, rfl, rfl⟩ _ _)

end Tended

structure Agrees (held : Reach) (cache : Cache K V τ) (listed : List (Shared K × Shared V)) : Prop where
  begun : ∀ thread arguments request rest outer reply,
    cache.callsOf thread = ⟨arguments, .start request :: rest⟩ :: outer →
    request.replyFrom? listed = some reply →
      ∃ due, Due due ∧ (cache.step held (.proceed thread)).1.callsOf thread =
        ⟨arguments, due ++ .give reply :: rest⟩ :: outer
  answered : ∀ thread request reply, request.replyFrom? listed = some reply →
    Completes held thread (fun _ given _ => given = reply) (cache.step held (.call thread request)).1
  views : ∀ thread, Completes held thread
    (fun _ reply _ => reply.listed = listed ∧ reply.keys = listed.map (·.1) ∧ reply.values = listed.map (·.2))
    (cache.step held (.call thread .entries)).1
  value : ∀ key value, valueIn listed key = some value ↔ ∃ pair ∈ listed, pair.1.data = key ∧ pair.2 = value
  distinct : (listed.map (·.1.data)).Nodup
  reserved : cache.Each fun _ shard => ∀ handle record, shard.segment.bare? handle = some record →
    record.isReserved = true → ∀ pair ∈ listed, pair.1.data ≠ record.key.data
  few : listed.length ≤ cache.size

/-- What a cache holds is where it belongs and counted, and all ways to read it agree at all times. -/
structure Coherent (cache : Cache K V τ) : Prop where
  agrees : ∀ held (clock : τ), Agrees held { cache with clock }
    (Cache.listed { cache with clock } (cache.reach held))
  placed : cache.Each fun index shard => ∀ handle record, shard.segment.bare? handle = some record →
    record.hash = cache.hash record.key.data ∧ Sizing.segmentAt cache.shift record.hash = index
  published : cache.Each fun _ shard => shard.published = shard.segment.counted.length
  size : cache.size = cache.total fun segment => segment.counted.length

theorem Recorded.published {accepted : List (K × Shared V)} {notified : List (Removal K V)}
    (recorded : Recorded config hash clock cache accepted notified) :
    cache.Each fun _ shard => shard.published = shard.segment.counted.length := by
  intro index shard found
  obtain ⟨segment, _, _, published⟩ := recorded.weighed index shard found
  rw [published, segment.consistent.count_eq, Segment.length_counted]

theorem Agrees.of_tended (tended : cache.Tended kept spent) (sorted : cache.Sorted cache.segmentOf)
    (published : cache.Each fun _ shard => shard.published = shard.segment.counted.length) (held : Reach) :
    Agrees held cache (cache.listed (cache.reach held)) where
  begun thread arguments request rest outer reply here reads := by
    obtain ⟨due, t, isDue, proceeds⟩ := proceed_of_reading tended sorted here reads
    exact ⟨due, isDue, by rw [step, proceeds, callsOf_setCalls, if_pos rfl]⟩
  answered thread _ _ reads := completes_of_reading tended sorted held thread reads
  views thread := by
    refine (completes_of_reading tended sorted held thread rfl).imp fun _ reply _ given => ?_
    subst given
    exact ⟨rfl, rfl, rfl⟩
  value _ _ := valueIn_eq_some (nodup_listed tended sorted _)
  distinct := nodup_listed tended sorted _
  reserved index shard found handle record there reserved pair member := by
    intro same
    obtain ⟨shard', found', shown⟩ := (mem_listed_iff sorted same).mp member
    rw [sorted index shard found handle record there, found] at found'
    cases found'
    exact (tended index shard found).flights.not_listed there reserved shown same
  few := length_listed_le published _

theorem reads_agree_of_history (history : History config hash clock past cache)
    (proper : ∀ moment ∈ past, moment.IsProper) : Coherent cache := by
  have recorded := history.recorded
  have tended := (history.supervised proper).tended
  refine ⟨fun held clock => ?_, ?_, recorded.published, ?_⟩
  · have timed : Cache.Tended (fun _ => true) _ { cache with clock } := tended
    exact .of_tended timed recorded.sorted recorded.published held
  · intro index shard found handle record there
    have hashed := (tended index shard found).hashed handle record there
    refine ⟨hashed, ?_⟩
    rw [hashed]
    exact recorded.sorted index shard found handle record there
  · rw [size_eq_sum, total]
    refine congrArg List.sum (List.map_congr_left fun shard member => ?_)
    obtain ⟨index, found⟩ := Array.mem_iff_getElem?.mp (Array.mem_toList_iff.mp member)
    exact recorded.published index shard found

theorem reads_agree_beside_loads :
    let moves (thread : ThreadId) (steps : Nat) : List (Event Nat Nat ManualClock) := .replicate steps (.proceed thread)
    let events := .setClock { nanos := 1 } :: .call 0 (.insert ⟨0, 7⟩ ⟨1, 70⟩) :: moves 0 3 ++
      .call 0 (.insert ⟨2, 8⟩ ⟨3, 80⟩) :: moves 0 3 ++ .setClock { nanos := 2 } ::
      .call 0 (.insert ⟨4, 10⟩ ⟨5, 100⟩) :: moves 0 3 ++ .call 1 (.get ⟨6, 9⟩) :: moves 1 3 ++
      .call 2 (.refresh ⟨7, 7⟩) :: moves 2 3
    let run := (create { initialCapacity := 1, concurrencyLevel := 2, valueStrength := .weak,
                         expireAfterWrite := some (.ofNanos 5) }
      (fun key => UInt64.ofNat key <<< 62) {}).run (fun _ => true) events
    let listed (clock : ManualClock) (lost : ObjectId) :=
      (Cache.listed { run.2 with clock } (run.2.reach (· ≠ lost))).map fun pair => (pair.1.data, pair.2.data)
    run.2.shards.size = 2 ∧ run.2.size = 3 ∧ listed { nanos := 5 } 3 = [(7, 70), (10, 100)] ∧
      listed { nanos := 6 } 3 = [(10, 100)] ∧ Coherent run.2 := by
  intro moves events run listed
  have history : History _ _ _ run.1 run.2 := History.create.run (fun _ => true) events
  exact ⟨by decide +kernel, by decide +kernel, by decide +kernel, by decide +kernel,
    reads_agree_of_history history
    (proper_of_run fun event asked closing => by simp [closing, events, moves] at asked)⟩

end Reading

end Cache
end SegmentedCache
