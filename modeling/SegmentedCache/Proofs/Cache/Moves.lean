import Mathlib.Algebra.BigOperators.Group.List.Basic
import SegmentedCache.Cache.Step
import SegmentedCache.Proofs.Segment.Accounting

namespace SegmentedCache

/-!
What a cache does to its store. Whatever a call has left to do, it does by reading the clock, by operations on single
segments, and by notes about loads, reads, statistics, the log and the background.
-/

variable {K V τ : Type}

def Background.Placed (place : K → Nat) : Background K V → Prop
  | .queue reloads => ∀ reload ∈ reloads, reload.flight.segment = place reload.key.data
  | _ => True

namespace Cache

@[simp] theorem callsOf_setCalls (cache : Cache K V τ) (thread other : ThreadId) (calls : List (Call K V)) :
    (cache.setCalls thread calls).callsOf other = if other = thread then calls else cache.callsOf other := by
  simp only [callsOf, setCalls, Array.getElem?_setIfInBounds, Array.size_rightpad]
  by_cases same : other = thread
  · simp [same]
  · by_cases inside : other < cache.calls.size
    · simp [same, Ne.symm same, Array.getElem?_append, inside]
    · simp only [same, Ne.symm same, ↓reduceIte, Array.rightpad, Array.getElem?_append, inside,
        Array.getElem?_replicate]
      rw [Array.getElem?_eq_none (Nat.le_of_not_lt inside)]
      split <;> rfl

theorem onSegment_fst {α : Type} (cache : Cache K V τ) (index : Nat) (otherwise : α)
    (f : Segment K V → α × Segment K V) :
    (cache.onSegment index otherwise f).1 = (cache.shards[index]?).elim otherwise fun shard => (f shard.segment).1 := by
  unfold onSegment
  cases cache.shards[index]? <;> rfl

theorem onSegment_snd {α : Type} (cache : Cache K V τ) (index : Nat) (otherwise : α)
    (f : Segment K V → α × Segment K V) :
    (cache.onSegment index otherwise f).2 = cache.changeSegment index fun segment => (f segment).2 := by
  unfold changeSegment onSegment
  cases cache.shards[index]? <;> rfl

theorem changeSegment_eq {cache : Cache K V τ} {index : Nat} {shard : Shard K V}
    (found : cache.shards[index]? = some shard) (f : Segment K V → Segment K V) :
    ∃ stats log, cache.changeSegment index f =
      { cache with
        stats
        log
        undelivered :=
          if cache.listens then cache.undelivered ++ (f shard.segment).removals else cache.undelivered
        shards := cache.shards.setIfInBounds index
          { shard with
            segment := { f shard.segment with removals := [], growths := [] }
            published := (f shard.segment).count } } := by
  simp only [changeSegment, onSegment, found, collect, Cache.count]
  split
  · exact ⟨_, _, rfl⟩
  · exact ⟨_, _, rfl⟩

theorem changeSegment_of_none {cache : Cache K V τ} {index : Nat} (missing : cache.shards[index]? = none)
    (f : Segment K V → Segment K V) : cache.changeSegment index f = cache := by
  simp only [changeSegment, onSegment, missing]

theorem getElem?_changeSegment {cache : Cache K V τ} {index : Nat} {shard : Shard K V}
    (found : cache.shards[index]? = some shard) (f : Segment K V → Segment K V) :
    ∃ shard', (cache.changeSegment index f).shards[index]? = some shard' ∧
      shard'.segment = { f shard.segment with removals := [], growths := [] } := by
  obtain ⟨stats, log, changed⟩ := changeSegment_eq found f
  refine ⟨{ shard with
    segment := { f shard.segment with removals := [], growths := [] }
    published := (f shard.segment).count }, ?_, rfl⟩
  rw [changed, Array.getElem?_setIfInBounds, if_pos rfl, if_pos (Array.getElem?_eq_some_iff.mp found).1]

theorem getElem?_changeSegment_of_ne (cache : Cache K V τ) {index other : Nat} (different : other ≠ index)
    (f : Segment K V → Segment K V) : (cache.changeSegment index f).shards[other]? = cache.shards[other]? := by
  cases found : cache.shards[index]? with
  | none => rw [changeSegment_of_none found]
  | some shard =>
      obtain ⟨stats, log, changed⟩ := changeSegment_eq found f
      rw [changed, Array.getElem?_setIfInBounds_ne different.symm]

section Total

variable {M : Type}

def total [AddCommMonoid M] (f : Segment K V → M) (cache : Cache K V τ) : M :=
  (cache.shards.toList.map fun shard => f shard.segment).sum

theorem total_changeSegment [AddCommMonoid M] {cache : Cache K V τ} {index : Nat} {shard : Shard K V}
    (found : cache.shards[index]? = some shard) (g : Segment K V → Segment K V) (f : Segment K V → M) :
    (cache.changeSegment index g).total f + f shard.segment =
      cache.total f + f { g shard.segment with removals := [], growths := [] } := by
  obtain ⟨inside, rfl⟩ := Array.getElem?_eq_some_iff.mp found
  obtain ⟨stats, log, changed⟩ := changeSegment_eq found g
  have split := List.sum_take_add_sum_drop (cache.shards.toList.map fun shard => f shard.segment) index
  have length : index < (cache.shards.toList.map fun shard => f shard.segment).length := by simpa using inside
  rw [changed, total, total, ← split, Array.toList_setIfInBounds, List.map_set, List.sum_set, if_pos length,
    List.drop_eq_getElem_cons length, List.sum_cons]
  simp only [List.getElem_map, Array.getElem_toList]
  ac_rfl

theorem map_modify_of_same {shards : Array (Shard K V)} {g : Shard K V → Shard K V} {f : Segment K V → M}
    (same : ∀ shard, f (g shard).segment = f shard.segment) (index : Nat) :
    (shards.modify index g).toList.map (fun shard => f shard.segment) =
      shards.toList.map fun shard => f shard.segment := by
  apply List.ext_getElem?
  intro other
  rw [Array.toList_modify, List.getElem?_map, List.getElem?_map, List.getElem?_modify]
  cases shards.toList[other]? with
  | none => rfl
  | some shard =>
      by_cases here : index = other <;> simp [here, same]

end Total

structure Steady (cache cache' : Cache K V τ) : Prop where
  policy : cache'.policy = cache.policy
  hash : cache'.hash = cache.hash
  shift : cache'.shift = cache.shift
  listens : cache'.listens = cache.listens
  delivering : cache'.delivering = cache.delivering
  contended : cache'.contended = cache.contended
  calls : cache'.calls = cache.calls
  size : cache'.shards.size = cache.shards.size

namespace Steady

theorem refl (cache : Cache K V τ) : Steady cache cache := ⟨rfl, rfl, rfl, rfl, rfl, rfl, rfl, rfl⟩

theorem trans {cache t cache' : Cache K V τ} (first : Steady cache t) (second : Steady t cache') :
    Steady cache cache' where
  policy := second.policy.trans first.policy
  hash := second.hash.trans first.hash
  shift := second.shift.trans first.shift
  listens := second.listens.trans first.listens
  delivering := second.delivering.trans first.delivering
  contended := second.contended.trans first.contended
  calls := second.calls.trans first.calls
  size := second.size.trans first.size

theorem segmentOf {cache cache' : Cache K V τ} (steady : Steady cache cache') :
    cache'.segmentOf = cache.segmentOf := by
  funext key
  rw [Cache.segmentOf, steady.shift, steady.hash, Cache.segmentOf]

end Steady

structure Orderly (cache : Cache K V τ) : Prop where
  shards : ∀ (index : Nat) (shard : Shard K V), cache.shards[index]? = some shard →
    shard.segment.Consistent ∧ shard.segment.removals = []
  chosen : ∀ key, cache.segmentOf key < cache.shards.size
  reloads : cache.background.Placed cache.segmentOf

namespace Orderly

theorem readClock [Clock τ] {cache : Cache K V τ} (orderly : cache.Orderly) : cache.readClock.2.Orderly :=
  ⟨orderly.shards, orderly.chosen, orderly.reloads⟩

theorem modify {cache : Cache K V τ} (orderly : cache.Orderly) (index : Nat) {f : Shard K V → Shard K V}
    (kept : ∀ shard, shard.segment.Consistent ∧ shard.segment.removals = [] →
      (f shard).segment.Consistent ∧ (f shard).segment.removals = []) :
    { cache with shards := cache.shards.modify index f }.Orderly := by
  refine ⟨fun other shard found => ?_, ?_, ?_⟩
  · rw [Array.getElem?_modify] at found
    split at found
    · obtain ⟨earlier, found', rfl⟩ := Option.map_eq_some_iff.mp found
      exact kept earlier (orderly.shards other earlier found')
    · exact orderly.shards other shard found
  · simpa [Cache.segmentOf] using orderly.chosen
  · exact orderly.reloads

theorem modifyLoad {cache : Cache K V τ} (orderly : cache.Orderly) (flight : Flight) (f : Load K V → Load K V) :
    (cache.modifyLoad flight f).Orderly :=
  orderly.modify flight.segment fun _ holds => ⟨(holds.1.modifyLoad flight.load f).consistent, holds.2⟩

theorem changeSegment {cache : Cache K V τ} (orderly : cache.Orderly) (index : Nat) {f : Segment K V → Segment K V}
    (kept : ∀ s : Segment K V, s.Consistent → (f s).Consistent) : (cache.changeSegment index f).Orderly := by
  cases found : cache.shards[index]? with
  | none => rwa [changeSegment_of_none found]
  | some shard =>
      obtain ⟨stats, log, changed⟩ := changeSegment_eq found f
      rw [changed]
      refine ⟨fun other shard' found' => ?_, ?_, ?_⟩
      · rw [Array.getElem?_setIfInBounds] at found'
        split at found'
        · split at found'
          · cases found'
            have consistent := kept shard.segment (orderly.shards index shard found).1
            exact ⟨consistent.collected.consistent, rfl⟩
          · cases found'
        · exact orderly.shards other shard' found'
      · simpa [Cache.segmentOf] using orderly.chosen
      · exact orderly.reloads

theorem operate [DecidableEq K] {cache : Cache K V τ} (orderly : cache.Orderly) (index : Nat) (reach : Reach)
    (now : Nat) (op : Operation K V) : (cache.changeSegment index (op.run cache.hash reach now)).Orderly :=
  orderly.changeSegment index fun _ consistent => (consistent.runs cache.hash reach now op).consistent consistent

end Orderly

theorem count_eq (cache : Cache K V τ) (f : Stats → Stats) : ∃ stats, cache.count f = { cache with stats } := by
  unfold Cache.count
  split
  · exact ⟨_, rfl⟩
  · exact ⟨_, rfl⟩

theorem changeSegment_steady (cache : Cache K V τ) (index : Nat) (f : Segment K V → Segment K V) :
    Steady cache (cache.changeSegment index f) := by
  cases found : cache.shards[index]? with
  | none =>
      rw [changeSegment_of_none found]
      exact .refl cache
  | some shard =>
      obtain ⟨stats, log, changed⟩ := changeSegment_eq found f
      rw [changed]
      exact ⟨rfl, rfl, rfl, rfl, rfl, rfl, rfl, Array.size_setIfInBounds⟩

def accounts (cache : Cache K V τ) : Multiset (K × Shared V) :=
  cache.total Segment.accounts + cache.undelivered.map Removal.pair

theorem accounts_modify (cache : Cache K V τ) (index : Nat) {f : Shard K V → Shard K V}
    (same : ∀ shard, (f shard).segment.accounts = shard.segment.accounts) :
    { cache with shards := cache.shards.modify index f }.accounts = cache.accounts := by
  rw [accounts, accounts, total, total, map_modify_of_same same]

theorem accounts_changeSegment {cache : Cache K V τ} (listens : cache.listens = true) {index : Nat} {shard : Shard K V}
    (found : cache.shards[index]? = some shard) {f : Segment K V → Segment K V} {accepted : List (K × Shared V)}
    (balance : (f shard.segment).accounts = shard.segment.accounts + accepted) :
    (cache.changeSegment index f).accounts = cache.accounts + accepted := by
  have total := total_changeSegment found f Segment.accounts
  obtain ⟨stats, log, changed⟩ := changeSegment_eq found f
  have undelivered : (cache.changeSegment index f).undelivered = cache.undelivered ++ (f shard.segment).removals := by
    rw [changed]
    exact if_pos listens
  have handed_over : ({ f shard.segment with removals := [], growths := [] } : Segment K V).accounts +
      (f shard.segment).removals.map Removal.pair = shard.segment.accounts + accepted := by
    rw [← balance]
    simp [Segment.accounts]
    rfl
  rw [accounts, accounts, undelivered, List.map_append, ← Multiset.coe_add]
  generalize (cache.undelivered.map Removal.pair : Multiset (K × Shared V)) = earlier,
    ((f shard.segment).removals.map Removal.pair : Multiset (K × Shared V)) = later at handed_over ⊢
  -- both sides are taken together with what the segment had to account for before
  apply add_right_cancel (b := shard.segment.accounts)
  calc (cache.changeSegment index f).total Segment.accounts + (earlier + later) + shard.segment.accounts
      = (cache.changeSegment index f).total Segment.accounts + shard.segment.accounts + (earlier + later) := by ac_rfl
    _ = cache.total Segment.accounts + earlier +
          (({ f shard.segment with removals := [], growths := [] } : Segment K V).accounts + later) := by
        rw [total]
        ac_rfl
    _ = cache.total Segment.accounts + earlier + accepted + shard.segment.accounts := by
        rw [handed_over]
        ac_rfl

section Moves

variable [DecidableEq K] [Clock τ]

def acceptedAt (cache : Cache K V τ) (index : Nat) (reach : Reach) (now : Nat) (op : Operation K V) :
    List (K × Shared V) :=
  (cache.shards[index]?).elim [] fun shard => op.accepted cache.hash reach now shard.segment

/-- The second cache comes from the first by moves that accept these values. What is about a key is done where it
belongs. -/
inductive Moves : Cache K V τ → List (K × Shared V) → Cache K V τ → Prop where
  | done (cache : Cache K V τ) : Moves cache [] cache
  | tick {cache cache' : Cache K V τ} {accepted : List (K × Shared V)}
      (rest : Moves cache.readClock.2 accepted cache') : Moves cache accepted cache'
  | count {cache cache' : Cache K V τ} {accepted : List (K × Shared V)} {f : Stats → Stats}
      (rest : Moves (cache.count f) accepted cache') : Moves cache accepted cache'
  | log {cache cache' : Cache K V τ} {accepted : List (K × Shared V)} {event : LogEvent}
      (rest : Moves (cache.logged event) accepted cache') : Moves cache accepted cache'
  | noteRead {cache cache' : Cache K V τ} {accepted : List (K × Shared V)} {index : Nat}
      (rest : Moves
        { cache with shards := cache.shards.modify index fun shard => { shard with reads := shard.reads + 1 } }
        accepted cache') : Moves cache accepted cache'
  | modifyLoad {cache cache' : Cache K V τ} {accepted : List (K × Shared V)} {flight : Flight}
      {f : Load K V → Load K V} (rest : Moves (cache.modifyLoad flight f) accepted cache') :
      Moves cache accepted cache'
  | setBackground {cache cache' : Cache K V τ} {accepted : List (K × Shared V)} {background : Background K V}
      (placed : cache.background.Placed cache.segmentOf → background.Placed cache.segmentOf)
      (rest : Moves { cache with background } accepted cache') : Moves cache accepted cache'
  | operate {cache cache' : Cache K V τ} {accepted : List (K × Shared V)} {index : Nat} {reach : Reach} {now : Nat}
      {op : Operation K V} (placed : ∀ key, op.key? = some key → cache.segmentOf key = index)
      (rest : Moves (cache.changeSegment index (op.run cache.hash reach now)) accepted cache') :
      Moves cache (cache.acceptedAt index reach now op ++ accepted) cache'

namespace Moves

variable {cache t cache' : Cache K V τ} {accepted accepted' : List (K × Shared V)}

theorem trans (first : Moves cache accepted t) (second : Moves t accepted' cache') :
    Moves cache (accepted ++ accepted') cache' := by
  induction first with
  | done => exact second
  | tick _ ih => exact .tick (ih second)
  | count _ ih => exact .count (ih second)
  | log _ ih => exact .log (ih second)
  | noteRead _ ih => exact .noteRead (ih second)
  | modifyLoad _ ih => exact .modifyLoad (ih second)
  | setBackground placed _ ih => exact .setBackground placed (ih second)
  | operate placed _ ih =>
      rw [List.append_assoc]
      exact .operate placed (ih second)

theorem steady (moves : Moves cache accepted cache') : Steady cache cache' := by
  induction moves with
  | done cache => exact .refl cache
  | tick _ ih | log _ ih | setBackground _ _ ih =>
      apply Steady.trans _ ih
      exact ⟨rfl, rfl, rfl, rfl, rfl, rfl, rfl, rfl⟩
  | @count cache _ _ f _ ih =>
      obtain ⟨stats, counted⟩ := count_eq cache f
      apply Steady.trans _ ih
      rw [counted]
      exact ⟨rfl, rfl, rfl, rfl, rfl, rfl, rfl, rfl⟩
  | noteRead _ ih | modifyLoad _ ih =>
      apply Steady.trans _ ih
      exact ⟨rfl, rfl, rfl, rfl, rfl, rfl, rfl, Array.size_modify⟩
  | operate _ _ ih => exact (changeSegment_steady _ _ _).trans ih

theorem orderly (moves : Moves cache accepted cache') (orderly : cache.Orderly) : cache'.Orderly := by
  induction moves with
  | done => exact orderly
  | tick _ ih | log _ ih => exact ih ⟨orderly.shards, orderly.chosen, orderly.reloads⟩
  | @count cache _ _ f _ ih =>
      obtain ⟨stats, counted⟩ := count_eq cache f
      apply ih
      rw [counted]
      exact ⟨orderly.shards, orderly.chosen, orderly.reloads⟩
  | noteRead _ ih => exact ih (orderly.modify _ fun _ holds => holds)
  | @modifyLoad _ _ _ flight f _ ih =>
      exact ih (orderly.modifyLoad flight f)
  | setBackground placed _ ih => exact ih ⟨orderly.shards, orderly.chosen, placed orderly.reloads⟩
  | operate _ _ ih => exact ih (orderly.operate _ _ _ _)

theorem accounts (moves : Moves cache accepted cache') (orderly : cache.Orderly) (listens : cache.listens = true) :
    cache'.accounts = cache.accounts + accepted := by
  induction moves with
  | done => simp
  | tick _ ih | log _ ih => exact ih ⟨orderly.shards, orderly.chosen, orderly.reloads⟩ listens
  | @count cache _ _ f rest ih =>
      obtain ⟨stats, counted⟩ := count_eq cache f
      rw [counted] at ih
      exact ih ⟨orderly.shards, orderly.chosen, orderly.reloads⟩ listens
  | @noteRead cache _ _ index _ ih =>
      have same := cache.accounts_modify index (f := fun shard => { shard with reads := shard.reads + 1 }) fun _ => rfl
      rw [ih (orderly.modify _ fun _ holds => holds) listens, same]
  | @modifyLoad cache _ _ flight f rest ih =>
      have same : (cache.modifyLoad flight f).accounts = cache.accounts :=
        cache.accounts_modify flight.segment fun _ => rfl
      rw [ih (orderly.modifyLoad flight f) listens, same]
  | setBackground placed _ ih => exact ih ⟨orderly.shards, orderly.chosen, placed orderly.reloads⟩ listens
  | @operate cache _ _ index reach now op _ rest ih =>
      have steady := cache.changeSegment_steady index (op.run cache.hash reach now)
      rw [ih (orderly.operate index reach now op) (steady.listens.trans listens), ← Multiset.coe_add, ← add_assoc]
      congr 1
      cases found : cache.shards[index]? with
      | none => simp [changeSegment_of_none found, acceptedAt, found]
      | some shard =>
          have consistent := (orderly.shards index shard found).1
          have balance := (consistent.runs cache.hash reach now op).accounts consistent
          rw [accounts_changeSegment listens found balance, acceptedAt, found, Option.elim_some]

end Moves

end Moves

end Cache
end SegmentedCache
