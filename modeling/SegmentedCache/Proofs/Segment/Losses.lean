import SegmentedCache.Proofs.Segment.Keys

namespace SegmentedCache

/-!
What a sweep takes, entry by entry, and what is left of the segment then.
-/

variable {K V : Type}

structure Loss (K V : Type) where
  handle : Handle
  record : Entry K V
  cause : Cause

namespace Segment

variable {s s' : Segment K V} {handle : Handle} {reach : Reach} {allowed : Entry K V → Cause → Prop}
  {losses : List (Loss K V)}

theorem Rebooked.count {ledger : Ledger K V} (rebooked : Rebooked s s' ledger) (consistent : s.Consistent) :
    s'.count = s.count := by
  rw [rebooked.consistent.count_eq, total_congr rebooked.bare?, consistent.count_eq]

theorem Rebooked.weight {ledger : Ledger K V} (rebooked : Rebooked s s' ledger) (consistent : s.Consistent) :
    s'.weight = s.weight := by
  rw [rebooked.consistent.weight_eq, total_congr rebooked.bare?, consistent.weight_eq]

/-- The second segment is the first without the losses, each of them allowed. Besides them only `others` were
reported. -/
structure Thinned (reach : Reach) (allowed : Entry K V → Cause → Prop) (losses : List (Loss K V))
    (others : List (Removal K V)) (s s' : Segment K V) : Prop where
  held : ∀ loss ∈ losses, s.bare? loss.handle = some loss.record
  permitted : ∀ loss ∈ losses, allowed loss.record loss.cause
  distinct : (losses.map (·.handle)).Nodup
  bare? : ∀ handle, s'.bare? handle = if handle ∈ losses.map (·.handle) then none else s.bare? handle
  count : s'.count + (losses.map (·.record.counts)).sum = s.count
  weight : s'.weight + (losses.map (·.record.weighs)).sum = s.weight
  byWrite : s'.ordered .write = (s.ordered .write).filter (· ∉ losses.map (·.handle))
  removals : s'.removals =
    s.removals ++ losses.flatMap (fun loss => s.policy.removalsOf reach loss.record loss.cause) ++ others

namespace Thinned

theorem nothing (s : Segment K V) : Thinned reach allowed [] [] s s where
  held := nofun
  permitted := nofun
  distinct := .nil
  bare? := by simp
  count := rfl
  weight := rfl
  byWrite := by simp
  removals := by simp

theorem discard (consistent : s.Consistent) {entry : Entry K V} (found : s.entry? handle = some entry) {cause : Cause}
    (permitted : allowed entry.bare cause)
    (thinned : Thinned reach allowed losses [] (s.discard reach handle cause) s') :
    Thinned reach allowed (⟨handle, entry.bare, cause⟩ :: losses) [] s s' := by
  have discarded := consistent.discard found reach cause
  have gone (loss : Loss K V) (member : loss ∈ losses) : loss.handle ≠ handle := by
    intro same
    have held := thinned.held loss member
    rw [same, discarded.differ.after] at held
    cases held
  have fresh : handle ∉ losses.map (·.handle) := by
    rintro member
    obtain ⟨loss, inside, same⟩ := List.mem_map.mp member
    exact gone loss inside same
  constructor
  · rintro loss (_ | ⟨_, member⟩)
    · exact bare?_of_found found
    · exact (discarded.differ.others loss.handle (gone loss member)).symm.trans (thinned.held loss member)
  · rintro loss (_ | ⟨_, member⟩)
    · exact permitted
    · exact thinned.permitted loss member
  · exact List.nodup_cons.mpr ⟨fresh, thinned.distinct⟩
  · intro other
    rw [thinned.bare?, discarded.differ.bare?, List.map_cons]
    by_cases same : other = handle <;> simp [same]
  · have total := discarded.differ.total Entry.counts
    rw [← discarded.consistent.count_eq, ← consistent.count_eq] at total
    have rest := thinned.count
    simp only [Option.elim_some, Option.elim_none, List.map_cons, List.sum_cons] at total ⊢
    omega
  · have total := discarded.differ.total Entry.weighs
    rw [← discarded.consistent.weight_eq, ← consistent.weight_eq] at total
    have rest := thinned.weight
    simp only [Option.elim_some, Option.elim_none, List.map_cons, List.sum_cons] at total ⊢
    omega
  · have erased : (s.discard reach handle cause).ordered .write = (s.ordered .write).filter (· ≠ handle) := by
      rw [discarded.ordered]
      simp [(consistent.queued .write).nodup.erase_eq_filter]
      rfl
    rw [thinned.byWrite, erased, List.filter_filter]
    apply List.filter_congr
    intro other _
    simp only [List.map_cons, List.mem_cons, decide_not, Bool.decide_or, Bool.not_or]
    exact Bool.and_comm _ _
  · have policy : (s.discard reach handle cause).policy = s.policy := discarded.policy
    rw [thinned.removals, discarded.removals, policy, List.flatMap_cons, ← List.append_assoc s.removals]
    rfl

theorem replay (consistent : s.Consistent) (thinned : Thinned reach allowed losses [] s.replayReads s') :
    Thinned reach allowed losses [] s s' := by
  have replayed := consistent.replayReads
  have policy : s.replayReads.policy = s.policy := replayed.policy
  have removals : s.replayReads.removals = s.removals := replayed.removals
  have byWrite : s.replayReads.ordered .write = s.ordered .write := by
    rw [replayed.ordered]
    rfl
  constructor
  · exact fun loss member => (replayed.bare? _).symm.trans (thinned.held loss member)
  · exact thinned.permitted
  · exact thinned.distinct
  · simpa only [replayed.bare?] using thinned.bare?
  · rw [thinned.count, replayed.count consistent]
  · rw [thinned.weight, replayed.weight consistent]
  · rw [thinned.byWrite, byWrite]
  · rw [thinned.removals, policy, removals]

theorem bare?_of_spared {others : List (Removal K V)} (thinned : Thinned reach allowed losses others s s')
    {record : Entry K V} (found : s.bare? handle = some record) (spared : ∀ cause, ¬ allowed record cause) :
    s'.bare? handle = some record := by
  rw [thinned.bare?, if_neg, found]
  intro member
  obtain ⟨loss, inside, rfl⟩ := List.mem_map.mp member
  cases found.symm.trans (thinned.held loss inside)
  exact spared loss.cause (thinned.permitted loss inside)

theorem report (thinned : Thinned reach allowed losses [] s s') (removal : Removal K V) :
    Thinned reach allowed losses [removal] s (s'.report removal) where
  held := thinned.held
  permitted := thinned.permitted
  distinct := thinned.distinct
  bare? := thinned.bare?
  count := thinned.count
  weight := thinned.weight
  byWrite := thinned.byWrite
  removals := by simp [Segment.report, thinned.removals]

end Thinned

theorem Purge.thinned (purge : Purge reach allowed s s') (consistent : s.Consistent) :
    ∃ losses, Thinned reach allowed losses [] s s' := by
  induction purge with
  | done s => exact ⟨[], .nothing s⟩
  | @replay s s' _ ih =>
      obtain ⟨losses, thinned⟩ := ih consistent.replayReads.consistent
      exact ⟨losses, thinned.replay consistent⟩
  | @discard s s' handle entry cause found permitted _ ih =>
      obtain ⟨losses, thinned⟩ := ih (consistent.discard found reach cause).consistent
      exact ⟨_, thinned.discard consistent found permitted⟩

theorem Consistent.prepare_thinned (consistent : s.Consistent) (reach : Reach) (now : Nat) :
    ∃ losses, Thinned reach (fun entry cause => s.policy.stale? reach now entry = some cause) losses [] s
      (s.prepare reach now) :=
  ((consistent.prepare reach now).mono fun _ _ => Policy.stale?_of_prepares).thinned consistent

end Segment
end SegmentedCache
