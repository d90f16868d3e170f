import SegmentedCache.Proofs.Cache.Serving
import SegmentedCache.Proofs.Segment.Mirroring
import SegmentedCache.Proofs.Sizing

namespace SegmentedCache

/-!
A whole cache beside a map that forgets. Each segment mirrors the part of the map that its keys make up.
-/

variable {K V τ : Type}

structure Layout (K : Type) where
  hash : K → UInt64
  shift : Nat
  limits : Lifetime

namespace Layout

variable {α : Type} {layout : Layout K} {index now : Nat} {key : K}

def place (layout : Layout K) (key : K) : Nat :=
  Sizing.segmentAt layout.shift (layout.hash key)

def part (layout : Layout K) (index : Nat) (f : K → Option α) (key : K) : Option α :=
  if layout.place key = index then f key else none

theorem part_congr {f g : K → Option α} (same : ∀ key, layout.place key = index → f key = g key) :
    layout.part index f = layout.part index g := by
  funext key
  unfold part
  split
  · rename_i here
    exact same key here
  · rfl

theorem ne_of_place_ne {other : K} (apart : layout.place other ≠ layout.place key) : other ≠ key := by
  rintro rfl
  exact apart rfl

theorem part_self (here : layout.place key = index) (f : K → Option α) : layout.part index f key = f key :=
  if_pos here

theorem present?_part (here : layout.place key = index) (reference : Reference K V) :
    Reference.present? layout.limits now (layout.part index reference) key =
      reference.present? layout.limits now key := by
  rw [Reference.present?, part_self here, Reference.present?]

theorem find?_part (here : layout.place key = index) (reference : Reference K V) :
    Reference.find? layout.limits now (layout.part index reference) key = reference.find? layout.limits now key := by
  rw [Reference.find?, present?_part here, Reference.find?]

variable [DecidableEq K]

theorem part_update (here : layout.place key = index) (f : K → Option α) (value : Option α) :
    Function.update (layout.part index f) key value = layout.part index (Function.update f key value) := by
  funext other
  by_cases same : other = key
  · rw [same, Function.update_self, part_self here, Function.update_self]
  · simp only [part, Function.update_of_ne same]

theorem store_part (here : layout.place key = index) (reference : Reference K V) (value : Shared V) :
    Reference.store key value now (layout.part index reference) = layout.part index (reference.store key value now) :=
  part_update here reference _

theorem drop_part (here : layout.place key = index) (reference : Reference K V) :
    Reference.drop key (layout.part index reference) = layout.part index (reference.drop key) :=
  part_update here reference _

theorem touch_part (here : layout.place key = index) (reference : Reference K V) :
    Reference.touch layout.limits now key (layout.part index reference) =
      layout.part index (reference.touch layout.limits now key) := by
  rw [Reference.touch, present?_part here, Reference.touch]
  split
  · exact part_update here reference _
  · rfl

end Layout

def idle (_ : K) : Option LoadId :=
  none

theorem Layout.part_idle (layout : Layout K) (index : Nat) : layout.part index idle = idle := by
  funext key
  exact ite_self _

theorem Layout.part_idle_apply (layout : Layout K) (index : Nat) (key : K) : layout.part index idle key = none := by
  rw [layout.part_idle, idle]

namespace Cache

def settled (_ : Nat) : Nat :=
  0

variable [DecidableEq K] [Clock τ]

/-- The segments mirror their parts of the map, the clock does not go back behind `now`, and nobody is in the way.
Of the reads of a segment no more are noted than were counted since its last housekeeping, and some `extra` ones. -/
structure Mirrors (layout : Layout K) (reference : Reference K V) (loads : K → Option LoadId) (extra : Nat → Nat)
    (now : Nat) (cache : Cache K V τ) : Prop where
  hash : cache.hash = layout.hash
  shift : cache.shift = layout.shift
  chosen : ∀ key, layout.place key < cache.shards.size
  forward : Clock.Forward cache.clock
  ahead : now ≤ (Clock.read cache.clock).1
  alone : cache.contended = false
  shards : ∀ (index : Nat) (shard : Shard K V), cache.shards[index]? = some shard →
    shard.segment.Mirrors layout.hash layout.limits (layout.part index reference) (layout.part index loads) now ∧
      shard.segment.readLog.size ≤ shard.reads % readsPerCleanUp + extra index

namespace Mirrors

variable {layout : Layout K} {reference reference' : Reference K V} {loads loads' : K → Option LoadId}
  {extra extra' : Nat → Nat} {now : Nat} {cache cache' : Cache K V τ}

theorem sameStore (mirrors : cache.Mirrors layout reference loads extra now) (same : SameStore cache cache') :
    cache'.Mirrors layout reference loads extra now where
  hash := same.hash.trans mirrors.hash
  shift := same.shift.trans mirrors.shift
  chosen := same.shards ▸ mirrors.chosen
  forward := same.clock ▸ mirrors.forward
  ahead := same.clock ▸ mirrors.ahead
  alone := same.contended.trans mirrors.alone
  shards := same.shards ▸ mirrors.shards

theorem segmentOf (mirrors : cache.Mirrors layout reference loads extra now) (key : K) :
    cache.segmentOf key = layout.place key := by
  rw [Cache.segmentOf, mirrors.shift, mirrors.hash, Layout.place]

theorem found (mirrors : cache.Mirrors layout reference loads extra now) (key : K) :
    ∃ shard, cache.shards[layout.place key]? = some shard :=
  ⟨_, Array.getElem?_eq_getElem (mirrors.chosen key)⟩

theorem count (mirrors : cache.Mirrors layout reference loads extra now) (f : Stats → Stats) :
    (cache.count f).Mirrors layout reference loads extra now := by
  obtain ⟨stats, counted⟩ := count_eq cache f
  rw [counted]
  exact mirrors.sameStore ⟨rfl, rfl, rfl, rfl, rfl⟩

theorem widen (mirrors : cache.Mirrors layout reference loads extra now)
    (more : ∀ index, extra index ≤ extra' index) :
    cache.Mirrors layout reference loads extra' now :=
  { mirrors with
    shards := fun index shard found =>
      have ⟨holds, few⟩ := mirrors.shards index shard found
      ⟨holds, few.trans (Nat.add_le_add_left (more index) _)⟩ }

theorem readClock (mirrors : cache.Mirrors layout reference loads extra now) :
    cache.readClock.2.Mirrors layout reference loads extra cache.readClock.1 where
  hash := mirrors.hash
  shift := mirrors.shift
  chosen := mirrors.chosen
  forward := mirrors.forward.next.2
  ahead := mirrors.forward.next.1
  alone := mirrors.alone
  shards index shard found :=
    ⟨(mirrors.shards index shard found).1.mono mirrors.ahead, (mirrors.shards index shard found).2⟩

theorem operate (mirrors : cache.Mirrors layout reference loads extra now) {index : Nat} {shard : Shard K V}
    (found : cache.shards[index]? = some shard) {f : Segment K V → Segment K V}
    (others : ∀ key, layout.place key ≠ index → reference' key = reference key ∧ loads' key = loads key)
    (counted : ∀ other, other ≠ index → extra' other = extra other)
    (after : (f shard.segment).Mirrors layout.hash layout.limits (layout.part index reference')
      (layout.part index loads') now)
    (few : (f shard.segment).readLog.size ≤ shard.reads % readsPerCleanUp + extra' index) :
    (cache.changeSegment index f).Mirrors layout reference' loads' extra' now := by
  obtain ⟨stats, log, changed⟩ := changeSegment_eq found f
  rw [changed]
  refine ⟨mirrors.hash, mirrors.shift, ?_, mirrors.forward, mirrors.ahead, mirrors.alone,
    fun other shard' found' => ?_⟩
  · simpa using mirrors.chosen
  · rw [Array.getElem?_setIfInBounds] at found'
    split at found'
    · rename_i here
      split at found'
      · cases found'
        subst here
        exact ⟨after.rebooked after.consistent.collected rfl rfl rfl rfl, few⟩
      · cases found'
    · rename_i different
      have apart (key : K) (here : layout.place key = other) : layout.place key ≠ index :=
        here ▸ Ne.symm different
      rw [Layout.part_congr fun key here => (others key (apart key here)).1,
        Layout.part_congr fun key here => (others key (apart key here)).2, counted other (Ne.symm different)]
      exact mirrors.shards other shard' found'

theorem onSegment {α : Type} (mirrors : cache.Mirrors layout reference loads extra now) {index : Nat}
    {shard : Shard K V} (found : cache.shards[index]? = some shard) {otherwise : α}
    {f : Segment K V → α × Segment K V} {result : α} {s : Segment K V} (gives : f shard.segment = (result, s))
    (others : ∀ key, layout.place key ≠ index → reference' key = reference key ∧ loads' key = loads key)
    (counted : ∀ other, other ≠ index → extra' other = extra other)
    (after : s.Mirrors layout.hash layout.limits (layout.part index reference') (layout.part index loads') now)
    (few : s.readLog.size ≤ shard.reads % readsPerCleanUp + extra' index) :
    ∃ t, cache.onSegment index otherwise f = (result, t) ∧ t.Mirrors layout reference' loads' extra' now := by
  have result_eq : (cache.onSegment index otherwise f).1 = result := by
    rw [onSegment_fst, found, Option.elim_some, gives]
  refine ⟨_, Prod.ext result_eq (onSegment_snd cache index otherwise f), ?_⟩
  apply mirrors.operate found others counted
  · rwa [gives]
  · rwa [gives]

end Mirrors
end Cache
end SegmentedCache
