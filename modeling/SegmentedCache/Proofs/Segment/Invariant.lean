import SegmentedCache.Proofs.Segment.Operation
import SegmentedCache.Segment.Audit

namespace SegmentedCache.Segment

/-!
The representation of a segment is in order in every state that operations lead to, in whatever order they come and
whatever the clock says.
-/

variable {K V : Type} {s s' : Segment K V} {handle : Handle} {hash : K → UInt64} {reach : Reach} {now : Nat}

theorem Keyed.differ {before : Option (Entry K V)} {after : Entry K V} (keyed : s.Keyed hash reach)
    (differ : Differ s s' handle before (some after)) (policy : s'.policy = s.policy)
    (fits : (∃ record, before = some record ∧ after.key = record.key ∧ after.hash = record.hash) ∨
      after.hash = hash after.key.data ∧ s.Absent reach after.key.data) : s'.Keyed hash reach := by
  have earlier {other : Handle} {key : K} (stands : s'.StandsFor reach key other) :
      s.StandsFor reach key other ∨ other = handle ∧ after.key.data = key ∧ s.Absent reach key := by
    by_cases same : other = handle
    · obtain ⟨record, found, reached, equal⟩ := stands
      rw [same, differ.after] at found
      cases found
      rw [policy] at reached
      rcases fits with ⟨old, rfl, key_eq, _⟩ | ⟨_, absent⟩
      · exact .inl ⟨old, same ▸ differ.before, key_eq ▸ reached, key_eq ▸ equal⟩
      · exact .inr ⟨same, equal, equal ▸ absent⟩
    · exact .inl (stands.mono policy fun _ found => (differ.others other same).symm.trans found)
  constructor
  · intro other record found
    rw [differ.bare?] at found
    split at found
    · cases found
      rcases fits with ⟨old, rfl, key_eq, hash_eq⟩ | ⟨hashed, _⟩
      · rw [key_eq, hash_eq]
        exact keyed.hashed handle old differ.before
      · exact hashed
    · exact keyed.hashed other record found
  · intro key first second stands stands'
    rcases earlier stands with old | ⟨rfl, _, absent⟩
    · rcases earlier stands' with old' | ⟨_, _, absent⟩
      · exact keyed.distinct key first second old old'
      · exact absurd old (absent first)
    · rcases earlier stands' with old' | ⟨rfl, _, _⟩
      · exact absurd old' (absent second)
      · rfl

theorem Rebooked.keyed {ledger : Ledger K V} (rebooked : Rebooked s s' ledger) (policy : ledger.policy = s.policy)
    (keyed : s.Keyed hash reach) : s'.Keyed hash reach :=
  keyed.mono (rebooked.policy.trans policy) fun handle _ found => (rebooked.bare? handle).symm.trans found

def Only (belongs : K → Prop) (s : Segment K V) : Prop :=
  ∀ handle record, s.bare? handle = some record → belongs record.key.data

theorem Only.mono {belongs : K → Prop} (only : s.Only belongs)
    (kept : ∀ handle record, s'.bare? handle = some record → s.bare? handle = some record) : s'.Only belongs :=
  fun handle record found => only handle record (kept handle record found)

theorem Only.differ {belongs : K → Prop} {before after : Option (Entry K V)} (only : s.Only belongs)
    (differ : Differ s s' handle before after)
    (fits : ∀ record, after = some record → (∃ old, before = some old ∧ record.key = old.key) ∨
      belongs record.key.data) :
    s'.Only belongs := by
  intro other record found
  rw [differ.bare?] at found
  split at found
  · rcases fits record found with ⟨old, rfl, same⟩ | new
    · exact same ▸ only handle old differ.before
    · exact new
  · exact only other record found

section Runs

variable [DecidableEq K] {op : Operation K V} {accepted : List (K × Shared V)}

theorem Act.keyed {before : Prop} (act : Act hash reach now before op accepted s s') (holds : before)
    (keyed : s.Keyed hash reach) : s'.Keyed hash reach := by
  cases act with
  | idle | dropped => exact keyed
  | granted _ absent transition | added _ absent transition =>
      exact keyed.differ transition.differ transition.policy (.inr ⟨rfl, absent holds⟩)
  | @used _ _ _ _ entry _ _ _ _ transition =>
      have kept : (s.policy.used now entry).key = entry.key ∧ (s.policy.used now entry).hash = entry.hash := by
        unfold Policy.used
        split <;> exact ⟨rfl, rfl⟩
      exact keyed.differ transition.differ transition.policy (.inl ⟨_, rfl, kept⟩)
  | renewing _ _ transition | filled _ _ _ transition | overwritten _ _ _ transition | reverted _ _ _ transition =>
      exact keyed.differ transition.differ transition.policy (.inl ⟨_, rfl, rfl, rfl⟩)
  | abandoned _ _ _ transition =>
      apply keyed.mono transition.policy
      intro other record found
      rw [transition.differ.bare?] at found
      split at found
      · cases found
      · exact found
  | reported _ _ rebooked | forgot rebooked => exact rebooked.keyed rfl keyed

theorem Act.only {before : Prop} {belongs : K → Prop} (act : Act hash reach now before op accepted s s')
    (own : ∀ key, op.key? = some key → belongs key) (only : s.Only belongs) : s'.Only belongs := by
  cases act with
  | idle | dropped => exact only
  | granted _ _ transition | added _ _ transition =>
      refine only.differ transition.differ ?_
      rintro _ ⟨⟩
      exact .inr (own _ rfl)
  | @used _ _ _ _ entry _ _ _ _ transition =>
      refine only.differ transition.differ ?_
      rintro _ ⟨⟩
      refine .inl ⟨_, rfl, ?_⟩
      unfold Policy.used
      split <;> rfl
  | renewing _ _ transition | filled _ _ _ transition | overwritten _ _ _ transition | reverted _ _ _ transition =>
      refine only.differ transition.differ ?_
      rintro _ ⟨⟩
      exact .inl ⟨_, rfl, rfl⟩
  | abandoned _ _ _ transition => exact only.differ transition.differ nofun
  | reported _ _ rebooked | forgot rebooked =>
      exact only.mono fun handle _ found => (rebooked.bare? handle).symm.trans found

theorem Runs.consistent (runs : Runs hash reach now op accepted s s') (consistent : s.Consistent) :
    s'.Consistent := by
  obtain ⟨before, after, first, act, last⟩ := runs.parts
  exact last.consistent (act.consistent (first.consistent consistent))

theorem Runs.keyed (runs : Runs hash reach now op accepted s s') (consistent : s.Consistent)
    (keyed : s.Keyed hash reach) : s'.Keyed hash reach := by
  obtain ⟨before, after, first, act, last⟩ := runs.parts
  have consistent' := first.consistent consistent
  exact last.keyed (act.consistent consistent') (act.keyed keyed (first.keyed consistent keyed))

theorem Runs.only {belongs : K → Prop} (runs : Runs hash reach now op accepted s s') (consistent : s.Consistent)
    (own : ∀ key, op.key? = some key → belongs key) (only : s.Only belongs) : s'.Only belongs := by
  obtain ⟨before, after, first, act, last⟩ := runs.parts
  have consistent' := first.consistent consistent
  have swept : before.Only belongs := only.mono fun _ _ => first.bare? consistent
  exact (act.only own swept).mono fun _ _ => last.bare? (act.consistent consistent')

end Runs

theorem bare?_create (policy : Policy K V) (bound : Bound) (length : Nat) (handle : Handle) :
    (create policy bound length).bare? handle = none := by
  rw [bare?, entry?, create]
  exact congrArg _ (congrArg _ (Arena.get?_empty handle))

theorem total_create {M : Type} [AddCommMonoid M] (policy : Policy K V) (bound : Bound) (length : Nat)
    (f : Entry K V → M) : (create policy bound length).total f = 0 := by
  have none_stored : (create policy bound length).records = [] := by
    rw [List.eq_nil_iff_forall_not_mem]
    rintro ⟨handle, record⟩ member
    rw [mem_records, bare?_create] at member
    cases member
  rw [total, none_stored, List.map_nil, List.sum_nil]

theorem consistent_create (policy : Policy K V) (bound : Bound) (exponent : Nat) :
    (create policy bound (2 ^ exponent)).Consistent := by
  generalize empty : create policy bound (2 ^ exponent) = s
  have arena_eq : s.arena = {} := by rw [← empty, create]
  have no_entry (handle : Handle) : s.entry? handle = none := by
    rw [Segment.entry?, arena_eq]
    exact congrArg _ (Arena.get?_empty handle)
  have holds (ranking : Ranking) : (s.queue ranking).Holds s.arena [] := by
    rw [← empty]
    refine ⟨?_, ?_, ?_, .nil, ⟨⟩, fun handle threaded found => ?_⟩
    · cases ranking <;> rfl
    · cases ranking <;> rfl
    · cases ranking <;> rfl
    · cases (Arena.get?_empty handle).symm.trans found
  have lists : s.Queued ∧ ∀ ranking, s.ordered ranking = [] := by
    apply queued_of_lists (arena_eq ▸ Arena.empty_wellFormed) _ holds
    · rw [← empty, create]
    · rw [← empty]
      intro ranking
      cases ranking <;> rfl
  have linked : s.Linked := by
    have no_chain (bucket : Nat) : IsChain s.arena (s.first? bucket) [] := by
      simp only [← empty, first?, create, Array.getElem?_replicate]
      split <;> rfl
    apply linked_of_chains lists.1 _ _ no_chain
    · simp [no_entry]
    · exact ⟨exponent, by simp [← empty, create]⟩
    · simp [← empty, create]
  refine ⟨linked, ?_, ?_, ?_⟩
  · simp [lists.2, no_entry]
  · rw [← empty, total_create, create]
  · rw [← empty, total_create, create]

theorem keyed_create (policy : Policy K V) (bound : Bound) (length : Nat) :
    (create policy bound length).Keyed hash reach where
  hashed handle record found := by cases (bare?_create policy bound length handle).symm.trans found
  distinct key first second stands := by
    obtain ⟨record, found, _⟩ := stands
    cases (bare?_create policy bound length first).symm.trans found

/-- The states that operations lead to. A key that nobody refers to any more stays out of reach. -/
inductive Reachable [DecidableEq K] (hash : K → UInt64) (policy : Policy K V) (bound : Bound) (exponent : Nat) :
    Reach → Segment K V → Prop where
  | create (reach : Reach) : Reachable hash policy bound exponent reach (create policy bound (2 ^ exponent))
  | run {reach : Reach} {s : Segment K V} (reachable : Reachable hash policy bound exponent reach s) (now : Nat)
      (op : Operation K V) : Reachable hash policy bound exponent reach (op.run hash reach now s)
  | release {reach reach' : Reach} {s : Segment K V} (reachable : Reachable hash policy bound exponent reach s)
      (lost : ∀ handle entry, s.entry? handle = some entry → reach' entry.key.id = true →
        reach entry.key.id = true) :
      Reachable hash policy bound exponent reach' s

theorem Keyed.release {reach' : Reach} (keyed : s.Keyed hash reach)
    (lost : ∀ handle entry, s.entry? handle = some entry → reach' entry.key.id = true →
      reach entry.key.id = true) :
    s.Keyed hash reach' := by
  have earlier {key : K} {handle : Handle} (stands : s.StandsFor reach' key handle) : s.StandsFor reach key handle := by
    obtain ⟨record, found, reached, equal⟩ := stands
    obtain ⟨entry, live, rfl⟩ := bare?_eq_some.mp found
    refine ⟨_, found, ?_, equal⟩
    cases strength : s.policy.keyStrength with
    | strong | soft => rfl
    | weak =>
        rw [strength] at reached
        exact lost handle entry live reached
  exact ⟨keyed.hashed, fun key first second stands stands' =>
    keyed.distinct key first second (earlier stands) (earlier stands')⟩

theorem Reachable.consistent_keyed [DecidableEq K] {policy : Policy K V} {bound : Bound} {exponent : Nat}
    (reachable : Reachable hash policy bound exponent reach s) : s.Consistent ∧ s.Keyed hash reach := by
  induction reachable with
  | create reach => exact ⟨consistent_create policy bound exponent, keyed_create policy bound _⟩
  | @run reach s reachable now op ih =>
      have runs := ih.1.runs hash reach now op
      exact ⟨runs.consistent ih.1, runs.keyed ih.1 ih.2⟩
  | release reachable lost ih => exact ⟨ih.1, ih.2.release lost⟩

theorem Linked.chained_eq (linked : s.Linked) : s.chained = s.arena.size := by
  have bucket_of {bucket : Nat} {handle : Handle} (member : handle ∈ s.chain bucket) :
      ∃ entry, s.entry? handle = some entry ∧ s.bucket entry.hash = bucket :=
      (linked.mem_chain bucket handle).mp member
  have distinct : ((List.range s.table.size).flatMap s.chain).Nodup := by
    rw [List.nodup_flatMap]
    refine ⟨fun bucket _ => (linked.chained bucket).nodup, ?_⟩
    apply List.nodup_range.imp
    intro first second different handle member member'
    obtain ⟨entry, found, here⟩ := bucket_of member
    obtain ⟨entry', found', here'⟩ := bucket_of member'
    cases found.symm.trans found'
    exact different (here.symm.trans here')
  have all : ((List.range s.table.size).flatMap s.chain).Perm s.arena.handles := by
    rw [List.perm_ext_iff_of_nodup distinct (Arena.handles_nodup _)]
    intro handle
    rw [List.mem_flatMap, Arena.mem_handles]
    constructor
    · rintro ⟨bucket, _, member⟩
      obtain ⟨entry, found, _⟩ := bucket_of member
      exact get?_of_found found
    · rintro ⟨threaded, found⟩
      refine ⟨s.bucket threaded.item.hash, List.mem_range.mpr (linked.bucket_lt _), ?_⟩
      exact (linked.mem_chain _ _).mpr ⟨threaded.item, entry?_eq_some.mpr ⟨threaded, found, rfl⟩, rfl⟩
  rw [Segment.chained, ← List.sum_eq_foldl_nat, ← List.length_flatMap, all.length_eq, linked.arena.length_handles]

theorem Consistent.length_ordered (consistent : s.Consistent) (ranking : Ranking) :
    (s.ordered ranking).length = s.count := by
  have all : (s.ordered ranking).Perm ((s.stored.filter (!·.2.isReserved)).map (·.1)) := by
    rw [List.perm_ext_iff_of_nodup (consistent.queued ranking).nodup
      (s.stored_handles_nodup.sublist (List.filter_sublist.map _))]
    intro handle
    rw [consistent.mem_ordered]
    simp [mem_stored]
  rw [all.length_eq, consistent.count_eq, ← length_counted, counted, List.filter_map, List.length_map,
    List.length_map]
  rfl

theorem Consistent.isConsistent (consistent : s.Consistent) : s.isConsistent = true := by
  have access : s.byAccess.length = s.count :=
    (consistent.queued .access).length.trans (consistent.length_ordered .access)
  have write : s.byWrite.length = s.count :=
    (consistent.queued .write).length.trans (consistent.length_ordered .write)
  simp [Segment.isConsistent, ← List.sum_eq_foldl_nat, length_counted, weight_counted, consistent.count_eq,
    consistent.weight_eq, access, write, consistent.chained_eq, consistent.sound]

/-- The representation is intact: chains and queues are lists that end, each entry is once in the chain of its
bucket and in no other, each entry that counts is once in both queues, the sums are right, no two entries whose keys
can be reached have equal keys, and nothing was ever found wrong. -/
structure Intact (reach : Reach) (s : Segment K V) : Prop where
  chained : ∀ bucket, IsChain s.arena (s.first? bucket) (s.chain bucket)
  count_chain : ∀ bucket handle, (s.chain bucket).count handle =
    if (s.entry? handle).any (fun entry => s.bucket entry.hash = bucket) then 1 else 0
  queued : ∀ ranking, (s.queue ranking).Holds s.arena (s.ordered ranking)
  count_ordered : ∀ ranking handle, (s.ordered ranking).count handle =
    if (s.entry? handle).any (!·.isReserved) then 1 else 0
  count : s.count = s.counted.length
  weight : s.weight = (s.counted.map (·.weight)).sum
  distinct : ∀ first second entry entry', s.entry? first = some entry → s.entry? second = some entry' →
    s.policy.keyStrength.reaches reach entry.key = true → s.policy.keyStrength.reaches reach entry'.key = true →
    entry.key.data = entry'.key.data → first = second
  sound : s.fault = none
  isConsistent : s.isConsistent = true

theorem Consistent.intact (consistent : s.Consistent) (keyed : s.Keyed hash reach) : s.Intact reach where
  chained := consistent.chained
  count_chain bucket handle := by
    rw [(consistent.chained bucket).nodup.count]
    refine if_congr ?_ rfl rfl
    rw [consistent.mem_chain, Option.any_eq_true]
    simp
  queued := consistent.queued
  count_ordered ranking handle := by
    rw [(consistent.queued ranking).nodup.count]
    refine if_congr ?_ rfl rfl
    rw [consistent.mem_ordered, Option.any_eq_true]
    simp
  count := consistent.count_eq.trans s.length_counted.symm
  weight := consistent.weight_eq.trans s.weight_counted.symm
  distinct first second entry entry' found found' reached reached' same :=
    keyed.distinct _ first second (standsFor_of_found found reached)
      (same ▸ standsFor_of_found found' reached')
  sound := consistent.sound
  isConsistent := consistent.isConsistent

theorem intact_of_reachable [DecidableEq K] {policy : Policy K V} {bound : Bound} {exponent : Nat}
    (reachable : Reachable hash policy bound exponent reach s) : s.Intact reach :=
  reachable.consistent_keyed.1.intact reachable.consistent_keyed.2

theorem intact_after_losing_a_key :
    let policy : Policy Nat Nat := { keyStrength := .weak, lifetime := { afterWrite := some 5 } }
    let first := (Operation.insert ⟨0, 7⟩ ⟨1, 70⟩ false).run (fun _ => 3) (fun _ => true) 0
      (create policy ⟨some 2⟩ (2 ^ 1))
    let second := (Operation.insert ⟨2, 7⟩ ⟨3, 71⟩ true).run (fun _ => 3) (· ≠ 0) 2 first
    let third := (Operation.claim 0 ⟨4, 8⟩).run (fun _ => 3) (· ≠ 0) 1 second
    third.count = 1 ∧ third.arena.size = 2 ∧ third.Intact (· ≠ 0) := by
  exact ⟨by decide, by decide,
    intact_of_reachable (.run (.run (.release (.run (.create fun _ => true) 0 _) (by simp)) 2 _) 1 _)⟩

end SegmentedCache.Segment
