import SegmentedCache.Proofs.Cache.Requests
import SegmentedCache.Proofs.Cache.Mirror

namespace SegmentedCache.Cache

/-!
What calls do to a cache, beside a map that forgets.
-/

variable {K V τ : Type} [DecidableEq K] [Clock τ] {layout : Layout K} {reference : Reference K V} {now : Nat}
  {cache : Cache K V τ}

def Due (frames : List (Frame K V)) : Prop :=
  frames = [] ∨ frames = [.deliver]

omit [DecidableEq K] in
theorem countRead_due (cache : Cache K V τ) (reach : Reach) (segment : Nat) :
    Due (cache.countRead reach segment).2 := by
  have counting := cache.counting reach segment
  generalize cache.countRead reach segment = result at counting ⊢
  cases counting with
  | due | busy => exact .inr rfl
  | waiting => exact .inl rfl

namespace Mirrors

theorem noteRead {loads : K → Option LoadId} {index : Nat}
    (mirrors : cache.Mirrors layout reference loads (Function.update settled index 1) now) (more : Nat)
    (enough : ∀ shard, cache.shards[index]? = some shard →
      shard.reads % readsPerCleanUp + 1 ≤ (shard.reads + 1) % readsPerCleanUp + more) :
    (cache.readNoted index).Mirrors layout reference loads (Function.update settled index more) now := by
  refine ⟨mirrors.hash, mirrors.shift, ?_, mirrors.forward, mirrors.ahead, mirrors.alone,
    fun other shard found => ?_⟩
  · simpa [readNoted] using mirrors.chosen
  · rw [readNoted, Array.getElem?_modify] at found
    split at found
    · rename_i here
      subst here
      obtain ⟨earlier, found', rfl⟩ := Option.map_eq_some_iff.mp found
      obtain ⟨holds, few⟩ := mirrors.shards index earlier found'
      refine ⟨holds, ?_⟩
      have step := enough earlier found'
      rw [Function.update_self] at few ⊢
      exact few.trans step
    · rename_i different
      have kept := mirrors.shards other shard found
      rwa [Function.update_of_ne (Ne.symm different)] at kept ⊢

theorem countRead {loads : K → Option LoadId} {key : K}
    (mirrors : cache.Mirrors layout reference loads (Function.update settled (layout.place key) 1) now)
    (reach : Reach) :
    ∃ later, (cache.countRead reach (layout.place key)).1.Mirrors layout reference loads settled later ∧
      Due (cache.countRead reach (layout.place key)).2 := by
  have counting := cache.counting reach (layout.place key)
  generalize cache.countRead reach (layout.place key) = result at counting ⊢
  cases counting with
  | due =>
      have noted := mirrors.noteRead readsPerCleanUp fun shard _ =>
        (small_reads shard.reads).trans_le (Nat.le_add_left ..)
      have ticked := noted.readClock
      obtain ⟨shard, found⟩ := ticked.found key
      obtain ⟨swept, empty⟩ := (ticked.shards _ shard found).1.cleanUp reach
      refine ⟨_, ticked.operate found (fun _ _ => ⟨rfl, rfl⟩) (fun other different => ?_) swept ?_, .inr rfl⟩
      · exact (Function.update_of_ne different ..).symm
      · exact (congrArg Array.size empty).trans_le (Nat.zero_le _)
  | busy taken => cases mirrors.alone.symm.trans taken
  | waiting waiting =>
      have noted := mirrors.noteRead 0 fun shard found => (reads_of_waiting waiting found).ge
      have all : Function.update settled (layout.place key) 0 = settled := Function.update_eq_self _ settled
      rw [all] at noted
      exact ⟨now, noted, .inl rfl⟩

theorem looked (mirrors : cache.Mirrors layout reference idle settled now) (reach : Reach) (key : K) :
    (reference.find? layout.limits cache.readClock.1 key = none ∧ cache.finding reach key = .nothing ∧
          (cache.looked reach key).Mirrors layout reference idle settled cache.readClock.1 ∨
        ∃ value, reference.find? layout.limits cache.readClock.1 key = some value ∧
          cache.finding reach key = .live value false) ∧
      (cache.looked reach key).Mirrors layout (reference.touch layout.limits cache.readClock.1 key) idle
        (Function.update settled (layout.place key) 1) cache.readClock.1 := by
  have ticked := mirrors.readClock
  obtain ⟨shard, found⟩ := ticked.found key
  obtain ⟨holds, few⟩ := ticked.shards _ shard found
  have room : shard.segment.readLog.size < Segment.readLogLimit := by
    have small := Nat.mod_lt shard.reads (show 0 < readsPerCleanUp by decide)
    exact few.trans_lt (small.trans_le (by decide))
  have looked := holds.read (layout.part_idle_apply (layout.place key) key) reach room
  rw [Layout.find?_part rfl, Layout.touch_part rfl] at looked
  have others (other : K) (apart : layout.place other ≠ layout.place key) :
      reference.touch layout.limits cache.readClock.1 key other = reference other ∧ idle other = idle other :=
    ⟨Reference.touch_of_ne (Layout.ne_of_place_ne apart), rfl⟩
  have counted (other : Nat) (different : other ≠ layout.place key) :
      Function.update settled (layout.place key) 1 other = settled other := Function.update_of_ne different ..
  have finding := finding_eq (show cache.shards[cache.segmentOf key]? = some shard by rwa [mirrors.segmentOf]) reach
  rw [finding, Cache.looked, mirrors.segmentOf, mirrors.hash]
  rcases looked with ⟨missing, gives⟩ | ⟨value, s, present, gives, after, noted⟩
  · have unread : (cache.readClock.2.changeSegment (layout.place key)
        ((Operation.read key).run layout.hash reach cache.readClock.1)).Mirrors layout reference idle settled
        cache.readClock.1 := by
      apply ticked.operate found (fun _ _ => ⟨rfl, rfl⟩) (fun _ _ => rfl) <;> rwa [Operation.run, gives]
    refine ⟨.inl ⟨missing, by rw [gives], unread⟩, ?_⟩
    rw [Reference.touch_of_missing missing]
    exact unread.widen fun _ => Nat.zero_le _
  · refine ⟨.inr ⟨value, present, by rw [gives]⟩, ticked.operate found others counted ?_ ?_⟩
    · rwa [Operation.run, gives]
    · rw [Operation.run, gives, Function.update_self]
      exact noted.trans (Nat.succ_le_succ few)

theorem lookup (mirrors : cache.Mirrors layout reference idle settled now) (reach : Reach) (key : K) :
    ∃ later due, (cache.lookup reach key).1.Mirrors layout
        (reference.touch layout.limits cache.readClock.1 key) idle settled later ∧ Due due ∧
      (cache.lookup reach key).2 = due ++ [.give (.value (reference.find? layout.limits cache.readClock.1 key))] := by
  obtain ⟨found, after⟩ := mirrors.looked reach key
  have looking := cache.looking reach key
  generalize cache.lookup reach key = result at looking ⊢
  cases looking with
  | served live =>
      rcases found with ⟨_, nothing, _⟩ | ⟨value, present, live'⟩
      · cases nothing.symm.trans live
      · cases live'.symm.trans live
        obtain ⟨later, counted, due⟩ := (after.count (·.countHit)).countRead reach
        rw [present, mirrors.segmentOf]
        exact ⟨later, _, counted, due, rfl⟩
  | missed other =>
      rcases found with ⟨missing, _⟩ | ⟨value, _, live⟩
      · obtain ⟨later, counted, due⟩ := (after.count (·.countMiss)).countRead reach
        rw [missing, mirrors.segmentOf]
        exact ⟨later, _, counted, due, rfl⟩
      · exact absurd live (other value false)

theorem find (mirrors : cache.Mirrors layout reference idle settled now) (reach : Reach) (key : Shared K)
    (source : Source) :
    (∃ value, reference.find? layout.limits cache.readClock.1 key.data = some value ∧
        (cache.find reach key source).2 = [.found key source value none] ∧
        (cache.find reach key source).1.Mirrors layout (reference.touch layout.limits cache.readClock.1 key.data) idle
          (Function.update settled (layout.place key.data) 1) cache.readClock.1) ∨
      reference.find? layout.limits cache.readClock.1 key.data = none ∧
        (cache.find reach key source).2 = [.claim key source cache.readClock.1] ∧
        (cache.find reach key source).1.Mirrors layout reference idle settled cache.readClock.1 := by
  obtain ⟨found, after⟩ := mirrors.looked reach key.data
  have seeking := cache.seeking reach key source
  generalize cache.find reach key source = result at seeking ⊢
  rcases found with ⟨missing, nothing, unread⟩ | ⟨value, present, live⟩
  · cases seeking with
    | served live | overdue live | joined live => cases nothing.symm.trans live
    | missed => exact .inr ⟨missing, rfl, unread⟩
  · cases seeking with
    | served live' =>
        cases live.symm.trans live'
        exact .inl ⟨value, present, rfl, after.count _⟩
    | overdue live' | joined live' | missed live' => cases live.symm.trans live'

theorem claim (mirrors : cache.Mirrors layout reference idle settled now) (reach : Reach) (thread : ThreadId)
    {key : Shared K} (missing : reference.find? layout.limits now key.data = none) (source : Source) :
    ∃ load, (cache.claim reach thread key source now).2 =
        [.deliver, .claimed key source (layout.place key.data) (.granted load)] ∧
      (cache.claim reach thread key source now).1.Mirrors layout reference (Function.update idle key.data (some load))
        settled now := by
  obtain ⟨shard, found⟩ := mirrors.found key.data
  obtain ⟨holds, few⟩ := mirrors.shards _ shard found
  obtain ⟨load, s, claims, claimed, empty⟩ := holds.claim reach thread
    (layout.part_idle_apply _ key.data) (by rwa [Layout.find?_part rfl])
  rw [Layout.part_update rfl] at claimed
  rw [claim_eq, mirrors.segmentOf, found, mirrors.hash, Option.elim_some, claims]
  refine ⟨load, rfl, mirrors.operate found ?_ ?_ ?_ ?_⟩
  · exact fun other apart => ⟨rfl, Function.update_of_ne (Layout.ne_of_place_ne apart) ..⟩
  · exact fun _ _ => rfl
  · rwa [Operation.run, claims]
  · rw [Operation.run, claims, empty]
    exact Nat.zero_le _

theorem contains (mirrors : cache.Mirrors layout reference idle settled now) (reach : Reach) (key : K) :
    ((cache.shards[cache.segmentOf key]?).any fun shard => shard.segment.contains reach now (cache.hash key) key) =
      (reference.find? layout.limits now key).isSome := by
  obtain ⟨shard, found⟩ := mirrors.found key
  have holds := (mirrors.shards _ shard found).1
  rw [mirrors.segmentOf, found, Option.any_some, mirrors.hash,
    holds.contains (by rw [Layout.part_idle]; rfl) reach, Layout.find?_part rfl]

theorem entries (mirrors : cache.Mirrors layout reference idle settled now) (reach : Reach) (key : K)
    (value : Shared V) :
    (∃ object, (object, value) ∈ cache.shards.toList.flatMap (fun shard => shard.segment.toList reach now) ∧
        object.data = key) ↔ reference.find? layout.limits now key = some value := by
  have listed (index : Nat) (shard : Shard K V) (found : cache.shards[index]? = some shard) (key : K) :
      (∃ object, (object, value) ∈ shard.segment.toList reach now ∧ object.data = key) ↔
        layout.place key = index ∧ reference.find? layout.limits now key = some value := by
    have holds := (mirrors.shards index shard found).1
    rw [Layout.part_idle] at holds
    rw [holds.mem_toList (fun _ => rfl) reach]
    by_cases here : layout.place key = index
    · rw [Layout.find?_part here]
      simp [here]
    · simp [here, Reference.find?, Reference.present?, Layout.part]
  constructor
  · rintro ⟨object, member, rfl⟩
    obtain ⟨shard, inside, member⟩ := List.mem_flatMap.mp member
    obtain ⟨index, found⟩ := Array.mem_iff_getElem?.mp (Array.mem_toList_iff.mp inside)
    exact ((listed index shard found object.data).mp ⟨object, member, rfl⟩).2
  · intro present
    obtain ⟨shard, found⟩ := mirrors.found key
    obtain ⟨object, member, same⟩ := (listed _ shard found key).mpr ⟨rfl, present⟩
    have inside : shard ∈ cache.shards.toList := Array.mem_toList_iff.mpr (Array.mem_of_getElem? found)
    exact ⟨object, List.mem_flatMap.mpr ⟨shard, inside, member⟩, same⟩

theorem put (mirrors : cache.Mirrors layout reference idle settled now) (reach : Reach) (key : Shared K)
    (value : Shared V) (onlyIfNew : Bool) :
    (cache.put reach key value onlyIfNew).2 =
        [.deliver, .give (.value (reference.find? layout.limits cache.readClock.1 key.data))] ∧
      (cache.put reach key value onlyIfNew).1.Mirrors layout
        (bif onlyIfNew && (reference.find? layout.limits cache.readClock.1 key.data).isSome then
          reference.touch layout.limits cache.readClock.1 key.data
        else reference.store key.data value cache.readClock.1) idle settled cache.readClock.1 := by
  have ticked := mirrors.readClock
  have place : cache.readClock.2.segmentOf key.data = layout.place key.data := ticked.segmentOf key.data
  obtain ⟨shard, found⟩ := ticked.found key.data
  have holds := (ticked.shards _ shard found).1
  obtain ⟨s, gives, after, empty⟩ := holds.insert reach (layout.part_idle_apply _ key.data) value onlyIfNew
  rw [Layout.find?_part rfl] at gives after
  rw [Layout.touch_part rfl, Layout.store_part rfl, ← Bool.apply_cond (layout.part (layout.place key.data))] at after
  unfold Cache.put
  dsimp only
  rw [place, mirrors.hash]
  obtain ⟨t, stored, mirrors'⟩ : ∃ t, cache.readClock.2.onSegment (layout.place key.data) none
        (·.insert reach cache.readClock.1 key (layout.hash key.data) value onlyIfNew) =
        (reference.find? layout.limits cache.readClock.1 key.data, t) ∧ t.Mirrors layout _ idle settled _ := by
    refine ticked.onSegment found gives ?_ (fun _ _ => rfl) after ?_
    · intro other apart
      have different := Layout.ne_of_place_ne apart
      cases onlyIfNew && (reference.find? layout.limits cache.readClock.1 key.data).isSome
      · exact ⟨Function.update_of_ne different .., rfl⟩
      · exact ⟨Reference.touch_of_ne different, rfl⟩
    · rw [empty]
      exact Nat.zero_le _
  rw [stored]
  exact ⟨rfl, mirrors'⟩

theorem remove (mirrors : cache.Mirrors layout reference idle settled now) (reach : Reach) (key : K) :
    (cache.remove reach key).1 = reference.find? layout.limits cache.readClock.1 key ∧
      (cache.remove reach key).2.Mirrors layout (reference.drop key) idle settled cache.readClock.1 := by
  have ticked := mirrors.readClock
  have place : cache.readClock.2.segmentOf key = layout.place key := ticked.segmentOf key
  obtain ⟨shard, found⟩ := ticked.found key
  have holds := (ticked.shards _ shard found).1
  obtain ⟨s, gives, after, empty⟩ := holds.remove reach (layout.part_idle_apply _ key)
  rw [Layout.find?_part rfl] at gives
  rw [Layout.drop_part rfl] at after
  unfold Cache.remove
  dsimp only
  rw [place, mirrors.hash]
  obtain ⟨t, removed, mirrors'⟩ : ∃ t, cache.readClock.2.onSegment (layout.place key) none
        (·.remove reach cache.readClock.1 (layout.hash key) key) =
        (reference.find? layout.limits cache.readClock.1 key, t) ∧ t.Mirrors layout _ idle settled _ := by
    refine ticked.onSegment found gives ?_ (fun _ _ => rfl) after ?_
    · exact fun other apart => ⟨Function.update_of_ne (Layout.ne_of_place_ne apart) .., rfl⟩
    · rw [empty]
      exact Nat.zero_le _
  rw [removed]
  exact ⟨rfl, mirrors'⟩

theorem clearing (mirrors : cache.Mirrors layout reference idle settled now) {index : Nat}
    (inside : index < cache.shards.size) (reach : Reach) :
    (cache.changeSegment index (·.clear reach)).Mirrors layout
      (fun key => if layout.place key = index then none else reference key) idle settled now := by
  have found := Array.getElem?_eq_getElem inside
  obtain ⟨holds, few⟩ := mirrors.shards index _ found
  obtain ⟨cleared, fewer⟩ := holds.clear (layout.part_idle_apply _) reach
  have emptied : layout.part index (fun key => if layout.place key = index then none else reference key) =
      fun _ => none := by
    funext key
    unfold Layout.part
    split
    · rename_i here
      exact if_pos here
    · rfl
  refine mirrors.operate found ?_ (fun _ _ => rfl) ?_ (fewer.trans few)
  · exact fun other apart => ⟨if_neg apart, rfl⟩
  · rwa [emptied]

theorem sweeping (mirrors : cache.Mirrors layout reference idle settled now) {index : Nat}
    (inside : index < cache.shards.size) (reach : Reach) :
    (cache.changeSegment index (·.cleanUp reach now)).Mirrors layout reference idle settled now := by
  have found := Array.getElem?_eq_getElem inside
  obtain ⟨swept, empty⟩ := (mirrors.shards index _ found).1.cleanUp reach
  refine mirrors.operate found (fun _ _ => ⟨rfl, rfl⟩) (fun _ _ => rfl) swept ?_
  rw [empty]
  exact Nat.zero_le _

theorem modifyLoad {loads : K → Option LoadId} {extra : Nat → Nat}
    (mirrors : cache.Mirrors layout reference loads extra now) (flight : Flight) (f : Load K V → Load K V) :
    (cache.modifyLoad flight f).Mirrors layout reference loads extra now := by
  refine ⟨mirrors.hash, mirrors.shift, ?_, mirrors.forward, mirrors.ahead, mirrors.alone,
    fun index shard found => ?_⟩
  · simpa [Cache.modifyLoad] using mirrors.chosen
  · simp only [Cache.modifyLoad, Array.getElem?_modify] at found
    split at found
    · obtain ⟨earlier, found', rfl⟩ := Option.map_eq_some_iff.mp found
      obtain ⟨holds, few⟩ := mirrors.shards index earlier found'
      exact ⟨holds.rebooked (holds.consistent.modifyLoad flight.load f) rfl rfl rfl rfl, few⟩
    · exact mirrors.shards index shard found

theorem finishLoad {key : Shared K} {load : LoadId}
    (mirrors : cache.Mirrors layout reference (Function.update idle key.data (some load)) settled now) (reach : Reach)
    (loaded : Option (Shared V)) :
    (cache.finishLoad reach now key ⟨layout.place key.data, load⟩ loaded).Mirrors layout
      (loaded.elim reference fun value => reference.store key.data value now) idle settled now := by
  obtain ⟨shard, found⟩ := mirrors.found key.data
  have holds := (mirrors.shards _ shard found).1
  have awaited : layout.part (layout.place key.data) (Function.update idle key.data (some load)) key.data =
      some load := by
    rw [Layout.part_self rfl, Function.update_self]
  obtain ⟨after, empty⟩ := holds.finishLoad reach awaited loaded
  have forgotten : Function.update (layout.part (layout.place key.data) (Function.update idle key.data (some load)))
      key.data none = layout.part (layout.place key.data) idle := by
    rw [Layout.part_update rfl, Function.update_idem]
    exact congrArg _ (Function.update_eq_self key.data idle)
  have stored : (loaded.elim (layout.part (layout.place key.data) reference) fun value =>
      Reference.store key.data value now (layout.part (layout.place key.data) reference)) =
      layout.part (layout.place key.data) (loaded.elim reference fun value => reference.store key.data value now) := by
    cases loaded with
    | none => rfl
    | some value => exact Layout.store_part rfl reference value
  rw [forgotten, stored] at after
  unfold Cache.finishLoad
  rw [mirrors.hash]
  refine mirrors.operate found ?_ (fun _ _ => rfl) after ?_
  · intro other apart
    have different := Layout.ne_of_place_ne apart
    refine ⟨?_, (Function.update_of_ne different ..).symm⟩
    cases loaded with
    | none => rfl
    | some value => exact Function.update_of_ne different ..
  · rw [empty]
    exact Nat.zero_le _

theorem endLoader {key : Shared K} {load : LoadId}
    (mirrors : cache.Mirrors layout reference (Function.update idle key.data (some load)) settled now) (reach : Reach)
    (started : Nat) (source : Source) (purpose : Purpose V) {ending : LoaderEnd V}
    (quiet : ∀ message, ending ≠ .panicked message) :
    ∃ outcome : LoadOutcome V,
      ((∃ value, ending = .value value ∧ outcome = .ok value) ∨
        ∃ error, ending.error? (layout.hash key.data) = some error ∧ outcome = .error error) ∧
      (cache.endLoader reach key ⟨layout.place key.data, load⟩ started source purpose ending).2 =
        [.deliver, .settle ⟨layout.place key.data, load⟩ outcome, .conclude source purpose outcome] ∧
      (cache.endLoader reach key ⟨layout.place key.data, load⟩ started source purpose ending).1.Mirrors layout
        (outcome.toOption.elim reference fun value => reference.store key.data value cache.readClock.1) idle settled
        cache.readClock.1 := by
  have finished (f : Stats → Stats) (outcome : LoadOutcome V) :=
    (mirrors.readClock.count f).finishLoad (fun object => reach object || outcome.toOption.any (·.id = object))
      outcome.toOption
  rw [← mirrors.hash]
  cases ending with
  | value value => exact ⟨_, .inl ⟨value, rfl, rfl⟩, rfl, finished _ (.ok value)⟩
  | nothing => exact ⟨_, .inr ⟨_, rfl, rfl⟩, rfl, finished _ (.error _)⟩
  | failed failure => exact ⟨_, .inr ⟨_, rfl, rfl⟩, rfl, finished _ (.error _)⟩
  | panicked message => exact absurd rfl (quiet message)

end Mirrors
end SegmentedCache.Cache
