import SegmentedCache.Proofs.Reference
import SegmentedCache.Proofs.Segment.Ages
import SegmentedCache.Proofs.Segment.Invariant

namespace SegmentedCache

/-!
A segment that nothing but age takes entries from, beside a map that forgets. Under each key the segment has what the
map has, or neither has anything that is young enough.
-/

variable {K V : Type}

namespace Dated

variable {limits : Lifetime} {now : Nat} {dated : Dated V}

theorem isPresent_eq (limits : Lifetime) (now : Nat) (dated : Dated V) :
    dated.isPresent limits now = !limits.isOver now dated.written dated.accessed := by
  rw [Bool.eq_iff_iff, isPresent, Lifetime.isOver]
  cases limits.afterWrite <;> cases limits.afterAccess <;> simp

theorem not_isPresent_mono {later : Nat} (le : now ≤ later) (gone : dated.isPresent limits now = false) :
    dated.isPresent limits later = false := by
  rw [← Bool.not_eq_true] at gone ⊢
  intro present
  apply gone
  simp only [isPresent, Bool.and_eq_true, Option.all_eq_true, decide_eq_true_eq] at present ⊢
  refine ⟨fun limit set => ?_, fun limit set => ?_⟩
  · have young := present.1 limit set
    omega
  · have young := present.2 limit set
    omega

end Dated

namespace Reference

variable {limits : Lifetime} {now : Nat} {reference : Reference K V} {key : K}

theorem touch_of_ne [DecidableEq K] {other : K} (different : other ≠ key) :
    reference.touch limits now key other = reference other := by
  unfold touch
  cases reference.present? limits now key with
  | none => rfl
  | some dated => exact Function.update_of_ne different ..

theorem touch_of_missing [DecidableEq K] (missing : reference.find? limits now key = none) :
    reference.touch limits now key = reference := by
  rw [touch, Option.map_eq_none_iff.mp missing]

theorem find?_eq_none : reference.find? limits now key = none ↔ reference.present? limits now key = none :=
  Option.map_eq_none_iff

end Reference

structure Policy.Plain (limits : Lifetime) (bound : Bound) (policy : Policy K V) : Prop where
  keys : policy.keyStrength = .strong
  values : policy.valueStrength = .strong
  lifetime : policy.lifetime = limits
  tracksReads : policy.tracksReads = limits.afterAccess.isSome
  refreshAfter : policy.refreshAfter = none
  unbounded : bound.isBounded = false

namespace Policy.Plain

variable {policy : Policy K V} {limits : Lifetime} {bound : Bound}

theorem isLost (plain : policy.Plain limits bound) (reach : Reach) (entry : Entry K V) :
    policy.isLost reach entry = false := by
  unfold Policy.isLost
  split
  · rfl
  · simp [plain.keys, plain.values, Strength.reaches]

theorem stale?_eq (plain : policy.Plain limits bound) (reach : Reach) (now : Nat) {entry : Entry K V}
    (counted : entry.isReserved = false) :
    policy.stale? reach now entry = if policy.isExpired now entry then some .expired else none := by
  simp [Policy.stale?, counted, plain.isLost]

theorem value?_eq (plain : policy.Plain limits bound) (reach : Reach) (entry : Entry K V) :
    policy.value? reach entry = entry.visible? := by
  rw [Policy.value?, plain.values]
  cases entry.visible? <;> rfl

theorem wantsRefresh (plain : policy.Plain limits bound) (now : Nat) (entry : Entry K V) :
    policy.wantsRefresh now entry = false := by
  simp [Policy.wantsRefresh, plain.refreshAfter]

end Policy.Plain

namespace Segment

variable {s s' : Segment K V} {handle : Handle} {hash : K → UInt64} {reach : Reach} {limits : Lifetime} {now : Nat}

section Under

variable [DecidableEq K] {key : K} {record : Entry K V}

def under (s : Segment K V) (key : K) : Option (Entry K V) :=
  (s.records.find? fun stored => stored.2.key.data = key).map (·.2)

theorem found_of_under (found : s.under key = some record) :
    ∃ handle, s.bare? handle = some record ∧ record.key.data = key := by
  obtain ⟨⟨handle, record'⟩, located, equal⟩ := Option.map_eq_some_iff.mp found
  cases equal
  refine ⟨handle, mem_records.mp (List.mem_of_find?_eq_some located), ?_⟩
  simpa using List.find?_some located

theorem Keyed.under_eq (keyed : s.Keyed hash reach) (strong : s.policy.keyStrength = .strong)
    (found : s.bare? handle = some record) : s.under record.key.data = some record := by
  have stands {other : Handle} {record' : Entry K V} (found : s.bare? other = some record')
      (same : record'.key.data = record.key.data) : s.StandsFor reach record.key.data other :=
    ⟨record', found, by rw [strong]; rfl, same⟩
  cases located : s.under record.key.data with
  | none =>
      have outside := List.find?_eq_none.mp (Option.map_eq_none_iff.mp located) _ (mem_records.mpr found)
      simp at outside
  | some record' =>
      obtain ⟨other, found', same⟩ := found_of_under located
      have equal := keyed.distinct _ other handle (stands found' same) (stands found rfl)
      rw [equal, found] at found'
      rw [Option.some.inj found']

theorem Differ.under {before after : Option (Entry K V)} (differ : Differ s s' handle before after)
    (keyed : s.Keyed hash reach) (keyed' : s'.Keyed hash reach) (strong : s.policy.keyStrength = .strong)
    (strong' : s'.policy.keyStrength = .strong) (own : ∀ record, before = some record → record.key.data = key)
    (own' : ∀ record, after = some record → record.key.data = key) (only : before = none → s.under key = none) :
    s'.under = Function.update s.under key after := by
  have elsewhere {other : Handle} {record : Entry K V} (different : other ≠ handle)
      (found : s.bare? other = some record) : record.key.data ≠ key := by
    rintro rfl
    have located := keyed.under_eq strong found
    cases earlier : before with
    | none =>
        rw [only earlier] at located
        cases located
    | some record' =>
        have found' := differ.before.trans earlier
        have located' := keyed.under_eq strong found'
        rw [own _ earlier, located] at located'
        cases located'
        have stands : s.policy.keyStrength.reaches reach record.key = true := by rw [strong]; rfl
        exact different (keyed.distinct _ _ _ ⟨_, found, stands, rfl⟩ ⟨_, found', stands, rfl⟩)
  funext other
  rw [Function.update_apply]
  split
  · rename_i same
    subst same
    cases after_eq : after with
    | some record =>
        have found := differ.after.trans after_eq
        exact own' record after_eq ▸ keyed'.under_eq strong' found
    | none =>
        cases located : s'.under other with
        | none => rfl
        | some record =>
            obtain ⟨place, found, same⟩ := found_of_under located
            rw [differ.bare?] at found
            split at found
            · rw [after_eq] at found
              cases found
            · rename_i different
              exact absurd same (elsewhere different found)
  · rename_i different
    cases located : s'.under other with
    | some record =>
        obtain ⟨place, found, rfl⟩ := found_of_under located
        rw [differ.bare?] at found
        split at found
        · exact absurd (own' record found) different
        · exact (keyed.under_eq strong found).symm
    | none =>
        cases located' : s.under other with
        | none => rfl
        | some record =>
            obtain ⟨place, found, rfl⟩ := found_of_under located'
            have moved : place ≠ handle := by
              rintro rfl
              exact different (own record (differ.before.symm.trans found))
            have kept := keyed'.under_eq strong' ((differ.others place moved).trans found)
            cases located.symm.trans kept

end Under

/-- What the segment has under a key, beside what the map has there, and the load that is on its way to the key. -/
inductive Matches (limits : Lifetime) (now : Nat) :
    Option (Dated V) → Option LoadId → Option (Entry K V) → Prop where
  | gone {held : Option (Dated V)} (absent : held.filter (·.isPresent limits now) = none) :
      Matches limits now held none none
  | stale {held : Option (Dated V)} {record : Entry K V} {value : Shared V}
      (absent : held.filter (·.isPresent limits now) = none) (ready : record.content = .ready value)
      (outlived : limits.isOver now record.written record.accessed = true) : Matches limits now held none (some record)
  | same {dated : Dated V} {record : Entry K V} (ready : record.content = .ready dated.value)
      (written : record.written = dated.written)
      (accessed : limits.afterAccess.isSome = true → record.accessed = dated.accessed) :
      Matches limits now (some dated) none (some record)
  | awaited {held : Option (Dated V)} {record : Entry K V} {load : LoadId}
      (absent : held.filter (·.isPresent limits now) = none) (reserved : record.content = .loading load none) :
      Matches limits now held (some load) (some record)

namespace Matches

variable {held : Option (Dated V)} {load : Option LoadId} {record : Entry K V}

theorem mono {later : Nat} {record? : Option (Entry K V)} (matched : Matches limits now held load record?)
    (le : now ≤ later) : Matches limits later held load record? := by
  have still (absent : held.filter (·.isPresent limits now) = none) :
      held.filter (·.isPresent limits later) = none := by
    rw [Option.filter_eq_none_iff] at absent ⊢
    intro dated found
    simpa using Dated.not_isPresent_mono le (by simpa using absent dated found)
  cases matched with
  | gone absent => exact .gone (still absent)
  | stale absent ready outlived =>
      refine .stale (still absent) ready ?_
      simp only [Lifetime.isOver, Bool.or_eq_true, Option.any_eq_true, decide_eq_true_eq] at outlived ⊢
      rcases outlived with ⟨limit, set, outlived⟩ | ⟨limit, set, outlived⟩
      · exact .inl ⟨limit, set, by omega⟩
      · exact .inr ⟨limit, set, by omega⟩
  | same ready written accessed => exact .same ready written accessed
  | awaited absent reserved => exact .awaited (still absent) reserved

theorem isOver_eq {dated : Dated V} (written : record.written = dated.written)
    (accessed : limits.afterAccess.isSome = true → record.accessed = dated.accessed) :
    limits.isOver now record.written record.accessed = limits.isOver now dated.written dated.accessed := by
  unfold Lifetime.isOver
  rw [written]
  cases set : limits.afterAccess with
  | none => rfl
  | some limit => rw [accessed (by rw [set]; rfl)]

theorem fresh (matched : Matches limits now held load (some record)) (counted : record.isReserved = false)
    (young : limits.isOver now record.written record.accessed = false) :
    ∃ dated, held.filter (·.isPresent limits now) = some dated ∧ record.content = .ready dated.value ∧
      record.written = dated.written ∧ load = none := by
  cases matched with
  | stale absent ready outlived =>
      rw [young] at outlived
      cases outlived
  | @same dated _ ready written accessed =>
      rw [isOver_eq written accessed] at young
      exact ⟨dated, by simp [Dated.isPresent_eq, young], ready, written, rfl⟩
  | awaited absent reserved =>
      rw [Entry.isReserved, reserved] at counted
      cases counted

theorem outlived (matched : Matches limits now held load (some record)) (counted : record.isReserved = false)
    (old : limits.isOver now record.written record.accessed = true) :
    held.filter (·.isPresent limits now) = none ∧ load = none := by
  cases matched with
  | stale absent _ _ => exact ⟨absent, rfl⟩
  | same ready written accessed =>
      rw [isOver_eq written accessed] at old
      simp [Dated.isPresent_eq, old]
  | awaited absent reserved =>
      rw [Entry.isReserved, reserved] at counted
      cases counted

theorem ready (matched : Matches limits now held none (some record)) : ∃ value, record.content = .ready value := by
  cases matched with
  | stale _ ready _ => exact ⟨_, ready⟩
  | same ready _ _ => exact ⟨_, ready⟩

theorem reserved {load : LoadId} (matched : Matches limits now held (some load) (some record)) :
    held.filter (·.isPresent limits now) = none ∧ record.content = .loading load none := by
  cases matched with
  | awaited absent reserved => exact ⟨absent, reserved⟩

theorem missing (matched : Matches (K := K) limits now held load none) :
    held.filter (·.isPresent limits now) = none ∧ load = none := by
  cases matched with
  | gone absent => exact ⟨absent, rfl⟩

end Matches

theorem Sorted.change (sorted : s.Sorted) {before : Option (Entry K V)} {after : Entry K V} {ledger : Ledger K V}
    (transition : Transition s s' handle before (some after) ledger)
    (order : ∀ ranking,
      (s'.dueOrder ranking = s.dueOrder ranking ∧ (handle ∈ s.dueOrder ranking →
        ∃ record, before = some record ∧ record.stamp ranking = after.stamp ranking)) ∨
      ∃ earlier, s'.dueOrder ranking = earlier ++ [handle] ∧ earlier.Sublist (s.dueOrder ranking) ∧
        handle ∉ earlier ∧
        ∀ other record, s.bare? other = some record → record.stamp ranking ≤ after.stamp ranking) :
    s'.Sorted := by
  intro ranking
  rcases order ranking with ⟨same, kept⟩ | ⟨earlier, last, sublist, apart, youngest⟩
  · rw [same]
    apply sorted.sublist (List.Sublist.refl _)
    intro other member record found
    rw [transition.differ.bare?] at found
    split at found
    · rename_i here
      cases found
      obtain ⟨record, rfl, stamp⟩ := kept (here ▸ member)
      exact ⟨record, here ▸ transition.differ.before, stamp⟩
    · exact ⟨record, found, rfl⟩
  · exact sorted.last transition last sublist apart youngest

section Mirrors

variable [DecidableEq K]

/-- The segment has under each key what the map has, and is on its way to get what the loads say. Both queues are
sorted, so that a sweep finds all that is too old. -/
structure Mirrors (hash : K → UInt64) (limits : Lifetime) (reference : Reference K V) (loads : K → Option LoadId)
    (now : Nat) (s : Segment K V) : Prop where
  consistent : s.Consistent
  keyed : ∀ reach, s.Keyed hash reach
  plain : s.policy.Plain limits s.bound
  sorted : s.Sorted
  past : ∀ handle record, s.bare? handle = some record → ∀ ranking, record.stamp ranking ≤ now
  untracked : limits.afterAccess = none → s.readLog = #[]
  holds : ∀ key, Matches limits now (reference key) (loads key) (s.under key)

namespace Mirrors

variable {reference : Reference K V} {loads : K → Option LoadId} {key : K}

theorem mono {later : Nat} (mirrors : s.Mirrors hash limits reference loads now) (le : now ≤ later) :
    s.Mirrors hash limits reference loads later :=
  { mirrors with
    past := fun handle record found ranking => (mirrors.past handle record found ranking).trans le
    holds := fun key => (mirrors.holds key).mono le }

theorem under_eq (mirrors : s.Mirrors hash limits reference loads now) {record : Entry K V}
    (found : s.bare? handle = some record) : s.under record.key.data = some record :=
  (mirrors.keyed fun _ => true).under_eq mirrors.plain.keys found

theorem find?_cases (mirrors : s.Mirrors hash limits reference loads now) (reach : Reach) (key : K) :
    s.find? reach (hash key) key = none ∧ s.under key = none ∨
      ∃ handle entry, s.find? reach (hash key) key = some (handle, entry) ∧ s.entry? handle = some entry ∧
        entry.key.data = key ∧ s.under key = some entry.bare := by
  have keyed := mirrors.keyed reach
  cases located : s.find? reach (hash key) key with
  | none =>
      have absent := (keyed.find?_eq_none mirrors.consistent.toLinked).mp located
      refine .inl ⟨rfl, ?_⟩
      cases under : s.under key with
      | none => rfl
      | some record =>
          obtain ⟨handle, found, same⟩ := found_of_under under
          exact absurd ⟨record, found, by rw [mirrors.plain.keys]; rfl, same⟩ (absent handle)
  | some found =>
      obtain ⟨handle, entry⟩ := found
      obtain ⟨live, _, same⟩ := find?_eq_some located
      exact .inr ⟨handle, entry, rfl, live, same, same ▸ mirrors.under_eq (bare?_of_found live)⟩

theorem isExpired_eq (mirrors : s.Mirrors hash limits reference loads now) (later : Nat) (entry : Entry K V) :
    s.policy.isExpired later entry = limits.isOver later entry.written entry.accessed := by
  rw [Policy.isExpired, mirrors.plain.lifetime]

theorem absent (mirrors : s.Mirrors hash limits reference loads now) (none : s.under key = none) (reach : Reach) :
    s.Absent reach key := by
  rintro handle ⟨record, found, _, rfl⟩
  cases none.symm.trans (mirrors.under_eq found)

theorem change (mirrors : s.Mirrors hash limits reference loads now) (key : K) {before after : Option (Entry K V)}
    {ledger : Ledger K V} (transition : Transition s s' handle before after ledger) (policy : ledger.policy = s.policy)
    (bound : ledger.bound = s.bound) (own : ∀ record, before = some record → record.key.data = key)
    (own' : ∀ record, after = some record → record.key.data = key ∧ record.hash = hash key)
    (kept : ∀ record record', before = some record → after = some record' → record'.key = record.key)
    (only : before = none → s.under key = none) (sorted : s'.Sorted)
    (past : ∀ record, after = some record → ∀ ranking, record.stamp ranking ≤ now)
    (readLog : limits.afterAccess = none → s'.readLog = #[]) {reference' : Reference K V}
    {loads' : K → Option LoadId}
    (others : ∀ other, other ≠ key → reference' other = reference other ∧ loads' other = loads other)
    (matched : Matches limits now (reference' key) (loads' key) after) :
    s'.Mirrors hash limits reference' loads' now := by
  have policy' : s'.policy = s.policy := transition.policy.trans policy
  have bound' : s'.bound = s.bound := transition.bound.trans bound
  have plain : s'.policy.Plain limits s'.bound := by
    rw [policy', bound']
    exact mirrors.plain
  have keyed (reach : Reach) : s'.Keyed hash reach := by
    have differ := transition.differ
    cases after with
    | none =>
        apply (mirrors.keyed reach).mono policy'
        intro other record found
        rw [differ.bare?] at found
        split at found
        · cases found
        · exact found
    | some record' =>
        obtain ⟨same, hashed⟩ := own' record' rfl
        apply (mirrors.keyed reach).differ differ policy'
        cases before with
        | none => exact .inr ⟨same ▸ hashed, same ▸ mirrors.absent (only rfl) reach⟩
        | some record =>
            refine .inl ⟨record, rfl, kept record record' rfl rfl, ?_⟩
            rw [hashed, (mirrors.keyed reach).hashed handle record differ.before, own record rfl]
  refine ⟨transition.consistent, keyed, plain, sorted, ?_, readLog, fun other => ?_⟩
  · intro other record found
    rw [transition.differ.bare?] at found
    split at found
    · exact past record found
    · exact mirrors.past other record found
  · have under := transition.differ.under (mirrors.keyed fun _ => true) (keyed _) mirrors.plain.keys plain.keys own
      (fun record found => (own' record found).1) only
    rw [under, Function.update_apply]
    split
    · rename_i same
      exact same ▸ matched
    · rename_i different
      rw [(others other different).1, (others other different).2]
      exact mirrors.holds other

theorem rebooked (mirrors : s.Mirrors hash limits reference loads now) {ledger : Ledger K V}
    (rebooked : Rebooked s s' ledger) (policy : ledger.policy = s.policy) (bound : ledger.bound = s.bound)
    (ordered : ledger.ordered = s.ordered) (readLog : ledger.readLog = s.readLog) :
    s'.Mirrors hash limits reference loads now := by
  have policy' : s'.policy = s.policy := rebooked.policy.trans policy
  have bound' : s'.bound = s.bound := rebooked.bound.trans bound
  have log : s'.readLog = s.readLog := (congrArg Ledger.readLog rebooked.ledger).trans readLog
  have order (ranking : Ranking) : s'.dueOrder ranking = s.dueOrder ranking := by
    have same := rebooked.ordered.trans ordered
    cases ranking with
    | access => rw [dueOrder, same, log, dueOrder]
    | write => exact congrFun same .write
  have keyed (reach : Reach) : s'.Keyed hash reach :=
    (mirrors.keyed reach).mono policy' fun handle _ found => (rebooked.bare? handle).symm.trans found
  have plain : s'.policy.Plain limits s'.bound := by
    rw [policy', bound']
    exact mirrors.plain
  refine ⟨rebooked.consistent, keyed, plain, fun ranking => ?_, ?_, fun unset => log.trans (mirrors.untracked unset),
    fun key => ?_⟩
  · rw [order]
    apply mirrors.sorted.sublist (List.Sublist.refl _)
    intro handle _ record found
    exact ⟨record, (rebooked.bare? handle).symm.trans found, rfl⟩
  · intro handle record found
    exact mirrors.past handle record ((rebooked.bare? handle).symm.trans found)
  · have same : s'.under key = s.under key := by
      cases under : s.under key with
      | some record =>
          obtain ⟨handle, found, rfl⟩ := found_of_under under
          exact (keyed fun _ => true).under_eq plain.keys ((rebooked.bare? handle).trans found)
      | none =>
          cases under' : s'.under key with
          | none => rfl
          | some record =>
              obtain ⟨handle, found, rfl⟩ := found_of_under under'
              cases under.symm.trans (mirrors.under_eq ((rebooked.bare? handle).symm.trans found))
    rw [same]
    exact mirrors.holds key

theorem purge (mirrors : s.Mirrors hash limits reference loads now) {allowed : Entry K V → Cause → Prop}
    (purge : Purge reach allowed s s')
    (expired : ∀ record cause, allowed record cause → record.isReserved = false ∧
      s.policy.isExpired now record = true) :
    s'.Mirrors hash limits reference loads now := by
  have consistent := mirrors.consistent
  have policy := purge.policy consistent
  have bound := purge.bound consistent
  have keyed (other : Reach) : s'.Keyed hash other :=
    (mirrors.keyed other).mono policy fun _ _ => purge.bare? consistent
  have plain : s'.policy.Plain limits s'.bound := by
    rw [policy, bound]
    exact mirrors.plain
  refine ⟨purge.consistent consistent, keyed, plain, purge.sorted consistent mirrors.sorted, ?_,
    fun unset => purge.readLog consistent (mirrors.untracked unset), fun key => ?_⟩
  · exact fun handle record found => mirrors.past handle record (purge.bare? consistent found)
  · have matched := mirrors.holds key
    cases left : s'.under key with
    | some record =>
        obtain ⟨handle, found, rfl⟩ := found_of_under left
        rwa [mirrors.under_eq (purge.bare? consistent found)] at matched
    | none =>
        cases earlier : s.under key with
        | none => rwa [earlier] at matched
        | some record =>
            obtain ⟨handle, found, rfl⟩ := found_of_under earlier
            have taken : record.isReserved = false ∧ s.policy.isExpired now record = true := by
              by_contra kept
              have found' := purge.kept consistent found fun cause may => kept (expired record cause may)
              cases left.symm.trans ((keyed fun _ => true).under_eq plain.keys found')
            rw [mirrors.isExpired_eq] at taken
            rw [earlier] at matched
            obtain ⟨absent, idle⟩ := matched.outlived taken.1 taken.2
            rw [idle]
            exact .gone absent

end Mirrors
end Mirrors
end Segment
end SegmentedCache
