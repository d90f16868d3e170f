import SegmentedCache.Proofs.Cache.Accounting

namespace SegmentedCache.Cache

/-!
What lasts. What no operation on a segment can undo holds of all segments of a cache after every run, if it holds of the
new ones.
-/

variable {K V τ : Type}

def Each (P : Nat → Shard K V → Prop) (cache : Cache K V τ) : Prop :=
  ∀ index shard, cache.shards[index]? = some shard → P index shard

section Lasting

variable [DecidableEq K] [Clock τ] {cache cache' : Cache K V τ} {accepted : List (K × Shared V)}
  {notified : List (Removal K V)} {hash : K → UInt64} {place : K → Nat} {P : Nat → Shard K V → Prop}

/-- What can be said of shards and stays true whatever is done to them under this hash, with each key in its place. -/
structure Lasting (hash : K → UInt64) (place : K → Nat) (P : Nat → Shard K V → Prop) : Prop where
  read : ∀ index shard, P index shard → P index { shard with reads := shard.reads + 1 }
  modifyLoad : ∀ load f index shard, P index shard →
    P index { shard with segment := shard.segment.modifyLoad load f }
  operate : ∀ reach now (op : Operation K V) index shard, (∀ key, op.key? = some key → place key = index) →
    P index shard → P index
      { shard with
        segment := { op.run hash reach now shard.segment with removals := [], growths := [] }
        published := (op.run hash reach now shard.segment).count }

omit [DecidableEq K] [Clock τ] in
theorem Each.modify (each : cache.Each P) (index : Nat) {f : Shard K V → Shard K V}
    (kept : ∀ index shard, P index shard → P index (f shard)) :
    { cache with shards := cache.shards.modify index f }.Each P := by
  intro other shard found
  rw [Array.getElem?_modify] at found
  split at found
  · obtain ⟨earlier, found', rfl⟩ := Option.map_eq_some_iff.mp found
    exact kept other earlier (each other earlier found')
  · exact each other shard found

omit [DecidableEq K] [Clock τ] in
theorem Each.changeSegment (each : cache.Each P) (index : Nat) {f : Segment K V → Segment K V}
    (kept : ∀ shard, P index shard →
      P index
        { shard with
          segment := { f shard.segment with removals := [], growths := [] }
          published := (f shard.segment).count }) : (cache.changeSegment index f).Each P := by
  cases found : cache.shards[index]? with
  | none => rwa [changeSegment_of_none found]
  | some shard =>
      obtain ⟨stats, log, changed⟩ := changeSegment_eq found f
      rw [changed]
      intro other shard' found'
      rw [Array.getElem?_setIfInBounds] at found'
      split at found'
      · rename_i same
        split at found'
        · cases found'
          exact same ▸ kept shard (each index shard found)
        · cases found'
      · exact each other shard' found'

theorem Moves.each (moves : Moves cache accepted cache') (lasting : Lasting cache.hash cache.segmentOf P)
    (each : cache.Each P) : cache'.Each P := by
  induction moves with
  | done => exact each
  | tick _ ih | log _ ih | setBackground _ _ ih => exact ih lasting each
  | @count cache _ _ f _ ih =>
      obtain ⟨stats, counted⟩ := count_eq cache f
      apply ih
      · rw [counted]
        exact lasting
      · rw [counted]
        exact each
  | noteRead _ ih => exact ih lasting (each.modify _ lasting.read)
  | @modifyLoad _ _ _ flight f _ ih =>
      exact ih lasting (each.modify flight.segment (lasting.modifyLoad flight.load f))
  | @operate _ _ _ index reach now op placed _ ih =>
      apply ih
      · rwa [(changeSegment_steady ..).hash, (changeSegment_steady ..).segmentOf]
      · exact each.changeSegment index fun shard => lasting.operate reach now op index shard placed

theorem Steps.each (steps : Steps cache accepted notified cache') (lasting : Lasting cache.hash cache.segmentOf P)
    (each : cache.Each P) : cache'.Each P := by
  cases steps with
  | resume here fits works fits' => exact works.moves.each lasting each
  | still | setClock | contend | closeBackground | enter | leave | begin | pass | notify | finish | heard => exact each

section Recorded

variable {config : Config K V} {clock : τ}

theorem Recorded.composed (recorded : Recorded config hash clock cache accepted notified) : cache.Composed := by
  induction recorded with
  | create => exact composed_create config hash clock
  | step _ held event composed => exact (composed.step_steps held event).composed composed

theorem Recorded.hash_eq (recorded : Recorded config hash clock cache accepted notified) : cache.hash = hash := by
  induction recorded with
  | create => rfl
  | step recorded held event same => exact (recorded.composed.step_steps held event).unchanged.hash.trans same

theorem Recorded.segmentOf_eq (recorded : Recorded config hash clock cache accepted notified) :
    cache.segmentOf = (Cache.create config hash clock).segmentOf := by
  induction recorded with
  | create => rfl
  | step recorded held event same =>
      exact (recorded.composed.step_steps held event).unchanged.segmentOf.trans same

theorem Recorded.policy_eq (recorded : Recorded config hash clock cache accepted notified) :
    cache.policy = (Cache.create config hash clock).policy := by
  induction recorded with
  | create => rfl
  | step recorded held event same => exact (recorded.composed.step_steps held event).unchanged.policy.trans same

theorem Recorded.size (recorded : Recorded config hash clock cache accepted notified) :
    cache.shards.size = Sizing.segments config.concurrencyLevel config.bound := by
  induction recorded with
  | create => exact size_create config hash clock
  | step recorded held event size => exact (recorded.composed.step_steps held event).unchanged.size.trans size

theorem Recorded.each (recorded : Recorded config hash clock cache accepted notified)
    (lasting : Lasting hash (Cache.create config hash clock).segmentOf P)
    (each : (Cache.create config hash clock).Each P) : cache.Each P := by
  induction recorded with
  | create => exact each
  | step recorded held event ih =>
      apply (recorded.composed.step_steps held event).each _ ih
      rwa [recorded.hash_eq, recorded.segmentOf_eq]

end Recorded

end Lasting

end SegmentedCache.Cache
