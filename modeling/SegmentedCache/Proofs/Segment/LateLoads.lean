import SegmentedCache.Proofs.Segment.Losses
import SegmentedCache.Proofs.Segment.SingleFlight

namespace SegmentedCache.Segment

/-!
Loads that lost their entry. Whatever becomes of the key afterwards, such a load changes nothing when it ends, and its
value is reported with the cause for which it lost the entry.
-/

variable {K V : Type} [DecidableEq K] {hash : K → UInt64} {policy : Policy K V} {bound : Bound} {exponent : Nat}
  {reach reach' : Reach} {ended ended' : LoadId → Prop} {s s' : Segment K V} {handle : Handle} {record : Entry K V}
  {id : LoadId}

/-- Where operations lead from a state while callers keep to what they have to. -/
inductive Onwards (hash : K → UInt64) (reach : Reach) (ended : LoadId → Prop) (s : Segment K V) :
    Reach → (LoadId → Prop) → Segment K V → Prop where
  | here : Onwards hash reach ended s reach ended s
  | run {reach' : Reach} {ended' : LoadId → Prop} {s' : Segment K V}
      (onwards : Onwards hash reach ended s reach' ended' s') (now : Nat) (op : Operation K V)
      (fits : op.Fits ended' reach' s') :
      Onwards hash reach ended s reach' (op.endedAfter ended') (op.run hash reach' now s')
  | release {reach' reach'' : Reach} {ended' : LoadId → Prop} {s' : Segment K V}
      (onwards : Onwards hash reach ended s reach' ended' s')
      (lost : ∀ handle entry, s'.entry? handle = some entry → reach'' entry.key.id = true →
        reach' entry.key.id = true)
      (held : ∀ id load, s'.loads[id]? = some load → ¬ ended' id → reach'' load.key.id = true) :
      Onwards hash reach ended s reach'' ended' s'

theorem Attended.onwards (attended : Attended hash policy bound exponent reach ended s)
    (onwards : Onwards hash reach ended s reach' ended' s') :
    Attended hash policy bound exponent reach' ended' s' ∧ Load.Later s.loads s'.loads := by
  induction onwards with
  | here => exact ⟨attended, .refl _⟩
  | @run reach' ended' s' _ now op fits ih =>
      obtain ⟨attended', later⟩ := ih
      have consistent := attended'.invariant.1
      exact ⟨attended'.run now op fits, later.trans ((consistent.runs hash reach' now op).later consistent)⟩
  | release _ lost held ih => exact ⟨ih.1.release lost held, ih.2⟩

omit [DecidableEq K] in
theorem Flights.none_of_learnt (flights : Flights ended reach s) {cause : Cause} (learnt : s.Learnt id cause)
    (found : s.bare? handle = some record) : record.load? ≠ some id := by
  intro held
  obtain ⟨load, issued, known⟩ := learnt
  obtain ⟨_, load', issued', _, undisplaced, _⟩ := flights.carried handle record id found held
  cases issued.symm.trans issued'
  cases undisplaced.symm.trans known

theorem Flights.finishLoad_of_learnt (flights : Flights ended reach s) (consistent : s.Consistent) {cause : Cause}
    (learnt : s.Learnt id cause) (now : Nat) (key : Shared K) (loaded : Option (Shared V)) :
    ∃ losses, Thinned reach (fun entry cause => s.policy.stale? reach now entry = some cause) losses
      (loaded.toList.map fun value => { key := ⟨key, true⟩, value := ⟨value, true⟩, cause }) s
      (s.finishLoad reach now key (hash key.data) id loaded) := by
  have prepared := consistent.prepare reach now
  have flights' := prepared.flights consistent flights
  have learnt' := learnt.later (prepared.later consistent)
  obtain ⟨losses, thinned⟩ := consistent.prepare_thinned reach now
  have gone {handle : Handle} {entry : Entry K V}
      (located : (s.prepare reach now).find? reach (hash key.data) key.data = some (handle, entry)) :
      entry.load? ≠ some id := by
    have apart := flights'.none_of_learnt learnt' (bare?_of_found (find?_eq_some located).1)
    exact apart
  obtain ⟨load, issued, known⟩ := learnt'
  refine ⟨losses, ?_⟩
  have finishing := s.finishing reach now key (hash key.data) id loaded
  generalize s.finishLoad reach now key (hash key.data) id loaded = s' at finishing ⊢
  cases finishing with
  | dropped => exact thinned
  | reported =>
      rw [issued, Option.bind_some, known]
      exact thinned.report _
  | forgone located own | stored located own => exact absurd own (gone located)

theorem displaced_stays_out (attended : Attended hash policy bound exponent reach ended s)
    (found : s.bare? handle = some record) (held : record.load? = some id) (now : Nat) (op : Operation K V)
    (fits : op.Fits ended reach s) (running : op.ends? ≠ some id)
    (lost : ∀ record', (op.run hash reach now s).bare? handle = some record' → record'.load? ≠ some id)
    (onwards : Onwards hash reach (op.endedAfter ended) (op.run hash reach now s) reach' ended' s') :
    ∃ cause load, op.Displaces s.policy s.bound reach now record cause ∧
      (op.run hash reach now s).Learnt id cause ∧
      s'.loads[id]? = some load ∧ load.key.data = record.key.data ∧ ∀ later loaded, ∃ losses,
        Thinned reach' (fun entry cause => s'.policy.stale? reach' later entry = some cause) losses
          (loaded.toList.map fun value => { key := ⟨load.key, true⟩, value := ⟨value, true⟩, cause }) s'
          (s'.finishLoad reach' later load.key (hash load.key.data) id loaded) := by
  obtain ⟨consistent, keyed, flights⟩ := attended.invariant
  have runs := consistent.runs hash reach now op
  rcases runs.fate consistent keyed flights fits found held running
    with ⟨record', left, held'⟩ | ⟨cause, learnt, displaces⟩
  · exact absurd held' (lost record' left)
  · obtain ⟨_, load, issued, key_eq, _⟩ := flights.carried handle record id found held
    obtain ⟨attended', forward⟩ := (attended.run now op fits).onwards onwards
    obtain ⟨load', issued', key_eq', _⟩ := ((runs.later consistent).trans forward).kept id load issued
    obtain ⟨consistent', _, flights'⟩ := attended'.invariant
    exact ⟨cause, load', displaces, learnt, issued', key_eq' ▸ key_eq, fun later loaded =>
      flights'.finishLoad_of_learnt consistent' (learnt.later forward) later load'.key loaded⟩

theorem stays_out_after_reloading :
    let run (now : Nat) (op : Operation Nat Nat) := op.run (fun _ => 3) (fun _ => true) now
    let claimed := run 0 (.claim 0 ⟨0, 7⟩) (create {} {} (2 ^ 1))
    let removed := run 1 (.remove 7) claimed
    let refreshed := run 3 (.claimRefresh 1 ⟨3, 7⟩ true) (run 2 (.insert ⟨1, 7⟩ ⟨2, 70⟩ false) removed)
    let finished := run 4 (.finishLoad ⟨0, 7⟩ 0 (some ⟨4, 71⟩)) refreshed
    removed.loads.toList.map (·.displaced) = [some .explicit] ∧
      finished.removals.map (·.cause) = [.explicit] ∧ ∃ cause losses, Thinned (fun _ => true)
        (fun entry cause => refreshed.policy.stale? (fun _ => true) 4 entry = some cause) losses
        [{ key := ⟨⟨0, 7⟩, true⟩, value := ⟨⟨4, 71⟩, true⟩, cause }] refreshed finished := by
  intro run claimed removed refreshed finished
  have created : Attended (fun _ => 3) {} {} 1 (fun _ => true) _ _ :=
    .create (K := Nat) (V := Nat) _
  have attended := created.run 0 (.claim 0 ⟨0, 7⟩) ⟨fun _ _ => rfl, nofun⟩
  have found : claimed.bare? ⟨0, 0⟩ = some ⟨⟨0, 7⟩, 3, .loading 0 none, 0, 0, 0, none⟩ := rfl
  have onwards (ended : LoadId → Prop) :
      ∃ ended', Onwards (fun _ => 3) (fun _ => true) ended removed (fun _ => true) ended' refreshed :=
    ⟨_, (Onwards.here.run 2 (.insert ⟨1, 7⟩ ⟨2, 70⟩ false) ⟨nofun, nofun⟩).run
      3 (.claimRefresh 1 ⟨3, 7⟩ true) ⟨fun _ _ => rfl, nofun⟩⟩
  have emptied : removed.bare? ⟨0, 0⟩ = none := Option.isNone_iff_eq_none.mp (by decide +kernel)
  have known : (refreshed.loads[0]?).map (·.key) = some ⟨0, 7⟩ := by decide +kernel
  obtain ⟨ended', onwards⟩ := onwards _
  obtain ⟨cause, load, _, _, issued, _, finishes⟩ := displaced_stays_out attended found rfl 1 (.remove 7)
    ⟨nofun, nofun⟩ nofun (fun _ left => nomatch emptied.symm.trans left) onwards
  rw [issued, Option.map_some, Option.some_inj] at known
  rw [known] at finishes
  exact ⟨by decide +kernel, by decide +kernel, cause, finishes 4 (some ⟨4, 71⟩)⟩

end SegmentedCache.Segment
