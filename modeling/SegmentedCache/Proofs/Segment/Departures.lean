import SegmentedCache.Proofs.Segment.Freshness

namespace SegmentedCache

/-!
Why entries leave. Of several causes that an entry may have to leave for at once one is reported, and that depends
on the order of the sweeps in an operation: what lost its key or its value goes first, then what is too old, and
only then does anything make room.
-/

variable {K V : Type}

/-- A counted entry that leaves, or whose value is overwritten, and the segment that it leaves. -/
structure Departure (K V : Type) where
  scene : Segment K V
  handle : Handle
  record : Entry K V
  cause : Cause

inductive Operation.Overwrites (entry : Entry K V) : Operation K V → Prop where
  | insert {key : Shared K} (value : Shared V) (onlyIfNew : Bool) (same : key.data = entry.key.data) :
      Overwrites entry (.insert key value onlyIfNew)
  | finishLoad {key : Shared K} {load : LoadId} (value : Shared V) (same : key.data = entry.key.data)
      (own : entry.load? = some load) : Overwrites entry (.finishLoad key load (some value))

namespace Departure

/-- The removal is the report of the departure, under the key of the entry or an equal one. -/
structure Tells (departure : Departure K V) (removal : Removal K V) : Prop where
  key : removal.key.object.data = departure.record.key.data
  value : departure.record.visible? = some removal.value.object
  cause : removal.cause = departure.cause

theorem exists_of_told {departures : List (Departure K V)} {removals : List (Removal K V)}
    (told : List.Forall₂ Tells departures removals) {removal : Removal K V} (member : removal ∈ removals) :
    ∃ departure ∈ departures, departure.Tells removal := by
  induction told with
  | nil => cases member
  | @cons departure _ _ _ tells _ ih =>
      rcases List.mem_cons.mp member with rfl | later
      · exact ⟨departure, List.mem_cons_self, tells⟩
      · obtain ⟨departure, inside, tells⟩ := ih later
        exact ⟨departure, List.mem_cons_of_mem _ inside, tells⟩

structure IsTrue (policy : Policy K V) (reach : Reach) (now : Nat) (op : Operation K V) (departure : Departure K V) :
    Prop where
  there : departure.scene.bare? departure.handle = some departure.record
  counted : departure.record.isReserved = false
  collected : departure.cause = .collected ↔
    policy.isLost reach departure.record = true ∨ op = .releaseSoft ∧ policy.valueStrength = .soft
  expired : departure.cause ≠ .collected →
    (departure.cause = .expired ↔ op ≠ .clear ∧ policy.isExpired now departure.record = true)
  size : departure.cause = .size → departure.scene.bound.isExceededBy departure.scene.weight = true
  replaced : departure.cause = .replaced →
    op.Overwrites departure.record ∧ policy.stale? reach now departure.record = none
  explicit : departure.cause = .explicit → op = .remove departure.record.key.data ∨ op = .clear

namespace IsTrue

variable {policy : Policy K V} {reach : Reach} {now : Nat} {op : Operation K V} {departure : Departure K V}

theorem of_prepares (there : departure.scene.bare? departure.handle = some departure.record)
    (counted : departure.record.isReserved = false) (not_clear : op ≠ .clear) (not_release : op ≠ .releaseSoft)
    (prepares : policy.Prepares reach now departure.record departure.cause) : departure.IsTrue policy reach now op := by
  rcases prepares with ⟨lost, cause_eq⟩ | ⟨_, expired, cause_eq⟩
  · exact ⟨there, counted, by simp [cause_eq, lost], by simp [cause_eq], by simp [cause_eq], by simp [cause_eq],
      by simp [cause_eq]⟩
  · by_cases lost : policy.isLost reach departure.record = true
    all_goals
      simp only [Policy.trueCause, lost, Bool.false_eq_true, ↓reduceIte] at cause_eq
      exact ⟨there, counted, by simp [cause_eq, lost, not_release], by simp [cause_eq, expired, not_clear],
        by simp [cause_eq], by simp [cause_eq], by simp [cause_eq]⟩

theorem of_live (there : departure.scene.bare? departure.handle = some departure.record)
    (counted : departure.record.isReserved = false) (not_release : op ≠ .releaseSoft)
    (live : policy.stale? reach now departure.record = none) {cause : Cause}
    (cause_eq : departure.cause = policy.trueCause reach departure.record cause)
    (other : cause ≠ .collected ∧ cause ≠ .expired)
    (size : cause = .size → departure.scene.bound.isExceededBy departure.scene.weight = true)
    (replaced : cause = .replaced → op.Overwrites departure.record)
    (explicit : cause = .explicit → op = .remove departure.record.key.data ∨ op = .clear) :
    departure.IsTrue policy reach now op := by
  have kept : policy.isLost reach departure.record = false := Policy.isLost_of_stale?_eq_none live
  have same : departure.cause = cause := by rw [cause_eq, Policy.trueCause, if_neg (by simp [kept])]
  have young : policy.isExpired now departure.record = false :=
    ((Policy.stale?_eq_none.mp live).resolve_left (by simp [counted])).2
  refine ⟨there, counted, ?_, fun _ => ?_, same ▸ size,
    fun is_replaced => ⟨same ▸ replaced <| same ▸ is_replaced, live⟩, same ▸ explicit⟩
  · simp [same, other.1, kept, not_release]
  · simp [same, other.2, young]

theorem of_clear (there : departure.scene.bare? departure.handle = some departure.record)
    (counted : departure.record.isReserved = false)
    (cause_eq : departure.cause = policy.trueCause reach departure.record .explicit) :
    departure.IsTrue policy reach now .clear := by
  unfold Policy.trueCause at cause_eq
  by_cases lost : policy.isLost reach departure.record = true
  all_goals
    simp only [lost, Bool.false_eq_true, ↓reduceIte] at cause_eq
    exact ⟨there, counted, by simp [cause_eq, lost], by simp [cause_eq], by simp [cause_eq], by simp [cause_eq],
      by simp⟩

end IsTrue
end Departure

namespace Segment

variable {s s' s'' : Segment K V} {handle : Handle} {reach : Reach} {now : Nat} {record : Entry K V}
  {departures departures' : List (Departure K V)} {allowed : Entry K V → Cause → Prop}

/-- The second segment comes from the first by discarding entries one after the other. Those that counted depart. -/
inductive Sheds (reach : Reach) : Segment K V → List (Departure K V) → Segment K V → Prop where
  | done (s : Segment K V) : Sheds reach s [] s
  | replay {s s' : Segment K V} {departures : List (Departure K V)} (rest : Sheds reach s.replayReads departures s') :
      Sheds reach s departures s'
  | drop {s s' : Segment K V} {departures : List (Departure K V)} {handle : Handle} {entry : Entry K V} {cause : Cause}
      (found : s.entry? handle = some entry) (reserved : entry.isReserved = true)
      (rest : Sheds reach (s.discard reach handle cause) departures s') : Sheds reach s departures s'
  | discard {s s' : Segment K V} {departures : List (Departure K V)} {handle : Handle} {entry : Entry K V}
      {cause : Cause} (found : s.entry? handle = some entry) (counted : entry.isReserved = false)
      (rest : Sheds reach (s.discard reach handle cause) departures s') :
      Sheds reach s (⟨s, handle, entry.bare, cause⟩ :: departures) s'

theorem Sheds.trans (first : Sheds reach s departures s') (second : Sheds reach s' departures' s'') :
    Sheds reach s (departures ++ departures') s'' := by
  induction first with
  | done s => exact second
  | replay _ ih => exact .replay (ih second)
  | drop found reserved _ ih => exact .drop found reserved (ih second)
  | discard found counted _ ih => exact .discard found counted (ih second)

theorem Sheds.purge (sheds : Sheds reach s departures s') : Purge reach (fun _ _ => True) s s' := by
  induction sheds with
  | done s => exact .done s
  | replay _ ih => exact .replay ih
  | drop found _ _ ih | discard found _ _ ih => exact .discard found trivial ih

theorem Sheds.told (sheds : Sheds reach s departures s') (consistent : s.Consistent) :
    ∃ told, List.Forall₂ Departure.Tells departures told ∧ s'.removals = s.removals ++ told := by
  induction sheds with
  | done s => exact ⟨[], .nil, (List.append_nil _).symm⟩
  | replay _ ih =>
      have replayed := consistent.replayReads
      obtain ⟨told, tells, removals⟩ := ih replayed.consistent
      exact ⟨told, tells, removals.trans (congrArg (· ++ told) replayed.removals)⟩
  | @drop s s' departures handle entry cause found reserved _ ih =>
      have discarded := consistent.discard found reach cause
      obtain ⟨told, tells, removals⟩ := ih discarded.consistent
      refine ⟨told, tells, removals.trans ?_⟩
      rw [discarded.removals]
      simp [Policy.removalsOf, entry.isReserved_iff.mp reserved]
  | @discard s s' departures handle entry cause found counted _ ih =>
      have discarded := consistent.discard found reach cause
      obtain ⟨told, tells, removals⟩ := ih discarded.consistent
      obtain ⟨value, visible⟩ := Entry.isReserved_eq_false.mp counted
      refine ⟨{ key := ⟨entry.key, s.policy.keyStrength.reaches reach entry.key⟩
                value := ⟨value, s.policy.valueStrength.reaches reach value⟩
                cause } :: told, .cons ⟨rfl, visible, rfl⟩ tells, removals.trans ?_⟩
      rw [discarded.removals]
      simp [Policy.removalsOf, visible]

structure Leaves (s : Segment K V) (departure : Departure K V) : Prop where
  there : departure.scene.bare? departure.handle = some departure.record
  counted : departure.record.isReserved = false
  before : s.bare? departure.handle = some departure.record
  policy : departure.scene.policy = s.policy

theorem bare?_of_discard (consistent : s.Consistent) {entry : Entry K V} {other : Handle} {cause : Cause}
    (found : s.entry? handle = some entry) (left : (s.discard reach handle cause).bare? other = some record) :
    s.bare? other = some record := by
  rw [(consistent.discard found reach cause).differ.bare?] at left
  split at left
  · cases left
  · exact left

theorem Sheds.leaves (sheds : Sheds reach s departures s') (consistent : s.Consistent) :
    ∀ departure ∈ departures, s.Leaves departure := by
  induction sheds with
  | done s => simp
  | replay _ ih =>
      have replayed := consistent.replayReads
      intro departure member
      have leaves := ih replayed.consistent departure member
      exact { leaves with
        before := (replayed.bare? _).symm.trans leaves.before
        policy := leaves.policy.trans replayed.policy }
  | @drop s _ _ gone entry cause found _ _ ih =>
      have discarded := consistent.discard found reach cause
      intro departure member
      have leaves := ih discarded.consistent departure member
      exact { leaves with
        before := bare?_of_discard consistent found leaves.before
        policy := leaves.policy.trans discarded.policy }
  | @discard s _ _ gone entry cause found counted _ ih =>
      have discarded := consistent.discard found reach cause
      refine List.forall_mem_cons.mpr ⟨⟨bare?_of_found found, counted, bare?_of_found found, rfl⟩,
        fun departure member => ?_⟩
      have leaves := ih discarded.consistent departure member
      exact { leaves with
        before := bare?_of_discard consistent found leaves.before
        policy := leaves.policy.trans discarded.policy }

theorem Purge.sheds (purge : Purge reach allowed s s') :
    ∃ departures, Sheds reach s departures s' ∧
      ∀ departure ∈ departures, allowed departure.record departure.cause := by
  induction purge with
  | done s => exact ⟨[], .done s, by simp⟩
  | replay _ ih =>
      obtain ⟨departures, sheds, each⟩ := ih
      exact ⟨departures, .replay sheds, each⟩
  | @discard s s' gone entry cause live permitted _ ih =>
      obtain ⟨departures, sheds, each⟩ := ih
      cases reserved : entry.isReserved with
      | true => exact ⟨departures, .drop live reserved sheds, each⟩
      | false => exact ⟨_, .discard live reserved sheds, List.forall_mem_cons.mpr ⟨permitted, each⟩⟩

def MakesRoom (reach : Reach) (departure : Departure K V) : Prop :=
  departure.scene.bound.isExceededBy departure.scene.weight = true ∧
    departure.cause = departure.scene.policy.trueCause reach departure.record .size

theorem evictOldest_sheds (consistent : s.Consistent) (reach : Reach) {steps : Nat} (enough : s.count ≤ steps) :
    ∃ departures, Sheds reach s departures (evictOldest reach steps s) ∧
      ∀ departure ∈ departures, MakesRoom reach departure := by
  induction steps generalizing s with
  | zero =>
      have holds : ¬ s.bound.isExceededBy s.weight = true := by
        intro exceeded
        obtain ⟨handle, entry, _, found, counted⟩ := consistent.victim exceeded
        have fewer := consistent.count_discard found counted reach .size
        omega
      rw [evictOldest, if_neg holds]
      exact ⟨[], .done s, by simp⟩
  | succ steps ih =>
      rw [evictOldest]
      split
      · rename_i exceeded
        obtain ⟨handle, entry, located, found, counted⟩ := consistent.victim exceeded
        simp only [located]
        have discarded := consistent.discard found reach (s.trueCause reach handle .size)
        have fewer := consistent.count_discard found counted reach (s.trueCause reach handle .size)
        obtain ⟨departures, sheds, each⟩ := ih discarded.consistent (by omega)
        have first : MakesRoom reach ⟨s, handle, entry.bare, s.trueCause reach handle .size⟩ :=
          ⟨exceeded, trueCause_eq (bare?_of_found found) reach .size⟩
        exact ⟨_, .discard found counted sheds, List.forall_mem_cons.mpr ⟨first, each⟩⟩
      · exact ⟨[], .done s, by simp⟩

theorem evictOversized_sheds (consistent : s.Consistent) (reach : Reach) (newest : Option Handle) :
    ∃ departures, Sheds reach s departures (s.evictOversized reach newest) ∧
      ∀ departure ∈ departures, MakesRoom reach departure := by
  unfold evictOversized
  split
  · exact ⟨[], .done s, by simp⟩
  · rename_i handle
    split
    · rename_i oversized
      obtain ⟨entry, found, oversized⟩ := (Option.any_eq_true _ _).mp oversized
      rw [Bool.and_eq_true, Bool.not_eq_true'] at oversized
      obtain ⟨counted, alone⟩ := oversized
      obtain ⟨limit, set, exceeded⟩ := (Option.any_eq_true _ _).mp alone
      have weighs : entry.bare.weighs ≤ s.weight :=
        consistent.weight_eq ▸ le_total Entry.weighs entry.bare (bare?_of_found found)
      have together : s.bound.isExceededBy s.weight = true := by
        rw [Entry.weighs_bare, Entry.weighs, counted] at weighs
        exact (Option.any_eq_true _ _).mpr ⟨limit, set, by simp at exceeded weighs ⊢; omega⟩
      have first : MakesRoom reach ⟨s, handle, entry.bare, s.trueCause reach handle .size⟩ :=
        ⟨together, trueCause_eq (bare?_of_found found) reach .size⟩
      exact ⟨_, .discard found counted (.done _), List.forall_mem_singleton.mpr first⟩
    · exact ⟨[], .done s, by simp⟩

theorem Consistent.evict_sheds (consistent : s.Consistent) (reach : Reach) (newest : Option Handle) :
    ∃ departures, Sheds reach s departures (s.evict reach newest) ∧
      ∀ departure ∈ departures, MakesRoom reach departure := by
  unfold Segment.evict
  split
  · rename_i bounded
    have replayed := consistent.replayReads
    obtain ⟨first, sheds, each⟩ := evictOversized_sheds replayed.consistent reach newest
    have consistent' := (evictOversized_purge (by rwa [replayed.bound]) reach newest).consistent replayed.consistent
    obtain ⟨rest, sheds', each'⟩ := evictOldest_sheds consistent' reach le_rfl
    exact ⟨first ++ rest, .replay (sheds.trans sheds'), List.forall_mem_append.mpr ⟨each, each'⟩⟩
  · exact ⟨[], .done s, by simp⟩

section Operations

variable [DecidableEq K] {hash : K → UInt64} {op : Operation K V} {accepted : List (K × Shared V)} {before : Prop}

/-- The removal is of a value that a loader gave after the entry of its load was gone, or taken. It is stored
nowhere. -/
def Late (hash : K → UInt64) (reach : Reach) (op : Operation K V) (s s' : Segment K V)
    (removal : Removal K V) : Prop :=
  ∃ key load value, op = .finishLoad key load (some value) ∧ removal.key.object = key ∧
    removal.value.object = value ∧
    (∀ handle entry, s.find? reach (hash key.data) key.data = some (handle, entry) → entry.load? ≠ some load) ∧
      ∀ handle, s'.bare? handle = s.bare? handle

/-- What an operation reports of its change on purpose, from one segment to the next: nothing, a value that it
overwrote, or one that it could not store. -/
inductive Amends (hash : K → UInt64) (reach : Reach) (now : Nat) (op : Operation K V) (s s' : Segment K V) :
    List (Removal K V) → Prop where
  | quiet : Amends hash reach now op s s' []
  | replaced {departure : Departure K V} {removal : Removal K V} (scene : departure.scene = s)
      (cause : departure.cause = .replaced) (right : departure.IsTrue s.policy reach now op)
      (tells : departure.Tells removal) : Amends hash reach now op s s' [removal]
  | late {removal : Removal K V} (late : Late hash reach op s s' removal) : Amends hash reach now op s s' [removal]

theorem Act.mono {earlier : Prop} (act : Act hash reach now before op accepted s s') (holds : earlier → before) :
    Act hash reach now earlier op accepted s s' := by
  cases act with
  | idle running => exact .idle running
  | used running byWrite transition => exact .used running byWrite transition
  | granted reclaimed absent transition => exact .granted reclaimed (absent ∘ holds) transition
  | renewing found ready transition => exact .renewing found ready transition
  | added reclaimed absent transition => exact .added reclaimed (absent ∘ holds) transition
  | filled writes found reserved transition => exact .filled writes found reserved transition
  | overwritten writes found counted transition => exact .overwritten writes found counted transition
  | reverted found own counted transition => exact .reverted found own counted transition
  | abandoned found own reserved transition => exact .abandoned found own reserved transition
  | reported reclaimed gone rebooked => exact .reported reclaimed gone rebooked
  | dropped reclaimed gone => exact .dropped reclaimed gone
  | forgot rebooked => exact .forgot rebooked

theorem Act.quiet (act : Act hash reach now before op accepted s s') (quiet : op.stores = false) :
    s'.removals = s.removals := by
  cases act with
  | idle | dropped => rfl
  | used _ _ transition | granted _ _ transition | renewing _ _ transition | added _ _ transition
  | filled _ _ _ transition | reverted _ _ _ transition | abandoned _ _ _ transition => exact transition.removals
  | overwritten writes => cases writes <;> cases quiet
  | reported => cases quiet
  | forgot rebooked => exact rebooked.removals

theorem Act.amends (act : Act hash reach now before op accepted s s') (live : s.AllLive reach now) :
    ∃ amends, Amends hash reach now op s s' amends ∧ s'.removals = s.removals ++ amends := by
  have nothing (same : s'.removals = s.removals) :
      ∃ amends, Amends hash reach now op s s' amends ∧ s'.removals = s.removals ++ amends :=
    ⟨[], .quiet, same.trans (List.append_nil _).symm⟩
  cases act with
  | idle | dropped => exact nothing rfl
  | used _ _ transition | granted _ _ transition | renewing _ _ transition | added _ _ transition
  | filled _ _ _ transition | reverted _ _ _ transition | abandoned _ _ _ transition =>
      exact nothing transition.removals
  | forgot rebooked => exact nothing rebooked.removals
  | reported _ gone rebooked =>
      exact ⟨_, .late ⟨_, _, _, rfl, rfl, rfl, gone, rebooked.bare?⟩, rebooked.removals⟩
  | @overwritten _ _ _ handle entry key value old _ loads writes found visible transition =>
      have there : s.bare? handle = some entry.bare := transition.differ.before
      have same := (find?_eq_some found).2.2
      have counted : entry.isReserved = false := Entry.isReserved_eq_false.mpr ⟨old, visible⟩
      have fresh := live handle entry.bare there
      have kept : s.policy.isLost reach entry.bare = false := Policy.isLost_of_stale?_eq_none fresh
      have overwrites : op.Overwrites entry.bare := by
        cases writes with
        | insert => exact .insert value _ same.symm
        | finishLoad own => exact .finishLoad value same.symm own
      have tells : Departure.Tells ⟨s, handle, entry.bare, .replaced⟩
          { key := ⟨key, true⟩, value := ⟨old, s.policy.valueStrength.reaches reach old⟩,
            cause := .replaced } :=
        ⟨same.symm, visible, rfl⟩
      refine ⟨_, .replaced rfl rfl ?_ tells, transition.removals⟩
      have true_cause : Cause.replaced = s.policy.trueCause reach entry.bare .replaced := by
        rw [Policy.trueCause, if_neg (by simp [kept])]
      refine .of_live there counted ?_ fresh true_cause (by decide) ?_ (fun _ => overwrites) ?_
      · rintro rfl
        cases writes
      · rintro ⟨⟩
      · rintro ⟨⟩

/-- What an operation reports: who is swept away before its change on purpose, that change, and who makes room after. -/
structure Chronicle (K V : Type) where
  before : Segment K V
  after : Segment K V
  swept : List (Departure K V)
  room : List (Departure K V)

def Chronicle.Involves (chronicle : Chronicle K V) (departure : Departure K V) : Prop :=
  departure ∈ chronicle.swept ∨ departure ∈ chronicle.room ∨
    departure.scene = chronicle.before ∧ departure.cause = .replaced

/-- The removals that an operation at `now` reports are those of its chronicle, in which all causes are true. -/
structure Explains (hash : K → UInt64) (reach : Reach) (now : Nat) (op : Operation K V) (s s' : Segment K V)
    (chronicle : Chronicle K V) : Prop where
  sweeps : Sheds reach s chronicle.swept chronicle.before
  act : ∃ accepted, Act hash reach now (s.Keyed hash reach) op accepted chronicle.before chronicle.after
  evicts : Sheds reach chronicle.after chronicle.room s'
  right : ∀ departure ∈ chronicle.swept ++ chronicle.room, departure.IsTrue s.policy reach now op
  removals : ∃ swept amends room, List.Forall₂ Departure.Tells chronicle.swept swept ∧
    Amends hash reach now op chronicle.before chronicle.after amends ∧
    List.Forall₂ Departure.Tells chronicle.room room ∧ s'.removals = s.removals ++ swept ++ amends ++ room

theorem explains_of_parts {t u : Segment K V} {amends : List (Removal K V)} (consistent : s.Consistent)
    (sweeps : Sheds reach s departures t) (act : Act hash reach now (s.Keyed hash reach) op accepted t u)
    (amended : Amends hash reach now op t u amends) (removals : u.removals = t.removals ++ amends)
    (evicts : Sheds reach u departures' s')
    (right : ∀ departure ∈ departures ++ departures', departure.IsTrue s.policy reach now op) :
    Explains hash reach now op s s' ⟨t, u, departures, departures'⟩ := by
  obtain ⟨swept, tells, swept_eq⟩ := sweeps.told consistent
  obtain ⟨room, tells', room_eq⟩ := evicts.told (act.consistent (sweeps.purge.consistent consistent))
  refine ⟨sweeps, ⟨_, act⟩, evicts, right, swept, amends, room, tells, amended, tells', ?_⟩
  rw [room_eq, removals, swept_eq]

theorem Explains.of_mem {chronicle : Chronicle K V} (explains : Explains hash reach now op s s' chronicle)
    (consistent : s.Consistent) (quiet : s.removals = []) {removal : Removal K V} (member : removal ∈ s'.removals) :
    (∃ departure, chronicle.Involves departure ∧ departure.Tells removal ∧
      departure.IsTrue s.policy reach now op) ∨
      Late hash reach op chronicle.before chronicle.after removal := by
  obtain ⟨swept, amends, room, tells, amended, tells', removals⟩ := explains.removals
  have policy : chronicle.before.policy = s.policy := explains.sweeps.purge.policy consistent
  rw [removals, quiet, List.nil_append, List.mem_append, List.mem_append] at member
  rcases member with (first | amending) | last
  · obtain ⟨departure, inside, told⟩ := Departure.exists_of_told tells first
    exact .inl ⟨departure, .inl inside, told, explains.right departure (List.mem_append_left _ inside)⟩
  · cases amended with
    | quiet => cases amending
    | replaced scene cause right told =>
        cases List.mem_singleton.mp amending
        exact .inl ⟨_, .inr (.inr ⟨scene, cause⟩), told, policy ▸ right⟩
    | late late =>
        cases List.mem_singleton.mp amending
        exact .inr late
  · obtain ⟨departure, inside, told⟩ := Departure.exists_of_told tells' last
    exact .inl ⟨departure, .inr (.inl inside), told, explains.right departure (List.mem_append_right _ inside)⟩

omit [DecidableEq K] in
theorem Purge.sheds_right (purge : Purge reach (s.policy.Prepares reach now) s s') (consistent : s.Consistent)
    (op : Operation K V) (not_clear : op ≠ .clear) (not_release : op ≠ .releaseSoft) :
    ∃ departures, Sheds reach s departures s' ∧
      ∀ departure ∈ departures, departure.IsTrue s.policy reach now op := by
  obtain ⟨departures, sheds, each⟩ := purge.sheds
  refine ⟨departures, sheds, fun departure member => ?_⟩
  have leaves := sheds.leaves consistent departure member
  exact .of_prepares leaves.there leaves.counted not_clear not_release (each departure member)

omit [DecidableEq K] in
theorem AllLive.evict_right (live : s.AllLive reach now) (consistent : s.Consistent) (newest : Option Handle)
    (op : Operation K V) (not_release : op ≠ .releaseSoft) :
    ∃ departures, Sheds reach s departures (s.evict reach newest) ∧
      ∀ departure ∈ departures, departure.IsTrue s.policy reach now op := by
  obtain ⟨departures, sheds, each⟩ := consistent.evict_sheds reach newest
  refine ⟨departures, sheds, fun departure member => ?_⟩
  have leaves := sheds.leaves consistent departure member
  obtain ⟨exceeded, cause_eq⟩ := each departure member
  rw [leaves.policy] at cause_eq
  exact .of_live leaves.there leaves.counted not_release (live _ _ leaves.before) cause_eq (by decide)
    (fun _ => exceeded) nofun nofun

theorem Runs.explains {t : Segment K V} (runs : Runs hash reach now op accepted t s') (consistent : s.Consistent)
    (quiet : op.stores = false) (prepared : Sheds reach s departures t)
    (right : ∀ departure ∈ departures, departure.IsTrue s.policy reach now op)
    (removes : ∀ departure, t.Leaves departure →
      op.Removes t.policy t.bound reach now departure.record departure.cause →
        departure.IsTrue s.policy reach now op) :
    ∃ chronicle, Explains hash reach now op s s' chronicle := by
  obtain ⟨before, after, first, act, last⟩ := runs.parts
  obtain ⟨swept, sheds, each⟩ := first.sheds
  obtain ⟨room, sheds', each'⟩ := last.sheds
  have removals : after.removals = before.removals ++ [] := (act.quiet quiet).trans (List.append_nil _).symm
  have act' : Act hash reach now (s.Keyed hash reach) op accepted before after :=
    act.mono fun keyed => prepared.purge.keyed consistent keyed
  refine ⟨_, explains_of_parts consistent (prepared.trans sheds) act' .quiet removals sheds' ?_⟩
  refine List.forall_mem_append.mpr ⟨List.forall_mem_append.mpr ⟨right, fun departure member => ?_⟩, ?_⟩
  · exact removes departure (sheds.leaves (prepared.purge.consistent consistent) departure member)
      (each departure member)
  · intro departure member
    cases quiet.symm.trans (each' departure member).1

theorem Acts.explains (acts : Acts hash reach now op accepted (s.prepare reach now) s') (dated : s.Dated)
    (consistent : s.Consistent) (positive : s.policy.lifetime.Positive) (reached : op.Reached s.policy reach)
    (stores : op.stores = true) : ∃ chronicle, Explains hash reach now op s s' chronicle := by
  have not_clear : op ≠ .clear := by
    rintro rfl
    cases stores
  have not_release : op ≠ .releaseSoft := by
    rintro rfl
    cases stores
  have prepared := consistent.prepare reach now
  have consistent' := prepared.consistent consistent
  have policy := prepared.policy consistent
  obtain ⟨before, after, first, act, last⟩ := acts.parts
  have live := first.allLive consistent' (dated.allLive_prepare consistent)
  have consistent_before := first.consistent consistent'
  have policy_before := (first.policy consistent').trans policy
  rw [policy] at first
  obtain ⟨swept, sheds, right⟩ := (prepared.trans first).sheds_right consistent op not_clear not_release
  obtain ⟨amends, amended, removals⟩ := act.amends live
  have act' : Act hash reach now (s.Keyed hash reach) op accepted before after :=
    act.mono fun keyed => prepared.keyed consistent keyed
  rcases last with rfl | ⟨_, newest, rfl⟩
  · refine ⟨_, explains_of_parts consistent sheds act' amended removals (.done _) ?_⟩
    rwa [List.append_nil]
  · have live' := act.allLive (policy_before ▸ positive) (policy_before ▸ reached) live
    obtain ⟨room, sheds', right'⟩ := live'.evict_right (act.consistent consistent_before) newest op not_release
    rw [act.rules.1, policy_before] at right'
    exact ⟨_, explains_of_parts consistent sheds act' amended removals sheds'
      (List.forall_mem_append.mpr ⟨right, right'⟩)⟩

theorem Dated.explains (dated : s.Dated) (hash : K → UInt64) (consistent : s.Consistent)
    (positive : s.policy.lifetime.Positive) (reached : op.Reached s.policy reach) :
    ∃ chronicle, Explains hash reach now op s (op.run hash reach now s) chronicle := by
  have runs := consistent.runs hash reach now op
  have consistent' := (consistent.prepare reach now).consistent consistent
  cases op with
  | read | claimRefresh => exact runs.explains consistent rfl (.done s) (by simp) fun _ _ removes => removes.elim
  | claim thread key =>
      refine runs.explains consistent rfl (.done s) (by simp) fun departure leaves removes => ?_
      refine .of_prepares leaves.there leaves.counted nofun nofun ?_
      exact removes.elim id fun stale => Policy.prepares_of_stale? stale.2
  | finishLoad key load loaded =>
      have acts : Acts hash reach now (.finishLoad key load loaded) _ (s.prepare reach now) _ :=
        consistent'.finishLoad_acts key load loaded
      have same : (s.prepare reach now).finishLoad reach now key (hash key.data) load loaded =
          s.finishLoad reach now key (hash key.data) load loaded :=
        dated.run_prepare consistent (.finishLoad key load loaded) rfl
      rw [same] at acts
      exact acts.explains dated consistent positive reached rfl
  | insert key value onlyIfNew =>
      have acts : Acts hash reach now (.insert key value onlyIfNew) _ (s.prepare reach now) _ :=
        consistent'.insert_acts key value onlyIfNew
      have same : ((s.prepare reach now).insert reach now key (hash key.data) value onlyIfNew).2 =
          (s.insert reach now key (hash key.data) value onlyIfNew).2 :=
        dated.run_prepare consistent (.insert key value onlyIfNew) rfl
      rw [same] at acts
      exact acts.explains dated consistent positive reached rfl
  | remove key =>
      have prepared := consistent.prepare reach now
      have live : (s.prepare reach now).AllLive reach now := dated.allLive_prepare consistent
      have runs := consistent'.runs hash reach now (.remove key)
      obtain ⟨swept, sheds, right⟩ := prepared.sheds_right consistent (.remove key) nofun nofun
      rw [dated.run_prepare consistent _ rfl] at runs
      rw [AllLive, prepared.policy consistent] at live
      refine runs.explains consistent rfl sheds right fun departure leaves removes => ?_
      rw [prepared.policy consistent] at removes
      rcases removes with prepares | ⟨same, cause_eq⟩
      · exact .of_prepares leaves.there leaves.counted nofun nofun prepares
      · exact .of_live leaves.there leaves.counted nofun (live _ _ leaves.before) cause_eq (by decide) nofun nofun
          fun _ => .inl (congrArg _ same.symm)
  | clear =>
      refine runs.explains consistent rfl (.done s) (by simp) fun departure leaves cause_eq => ?_
      exact .of_clear leaves.there leaves.counted cause_eq
  | releaseSoft =>
      refine runs.explains consistent rfl (.done s) (by simp) fun departure leaves removes => ?_
      obtain ⟨soft, _, cause_eq⟩ := removes
      exact ⟨leaves.there, leaves.counted, by simp [cause_eq, soft], by simp [cause_eq], by simp [cause_eq],
        by simp [cause_eq], by simp [cause_eq]⟩
  | cleanUp =>
      have swept := consistent.housekeeping reach now
      have consistent' := swept.consistent consistent
      have policy := swept.policy consistent
      obtain ⟨departures, sheds, right⟩ := swept.sheds_right consistent .cleanUp nofun nofun
      obtain ⟨room, sheds', right'⟩ :=
        (dated.allLive_housekeeping consistent).evict_right consistent' none .cleanUp nofun
      rw [policy] at right'
      exact ⟨_, explains_of_parts consistent sheds (.idle rfl) .quiet (List.append_nil _).symm sheds'
        (List.forall_mem_append.mpr ⟨right, right'⟩)⟩

end Operations

end Segment
end SegmentedCache
