import SegmentedCache.Proofs.Arena.History
import SegmentedCache.Proofs.Segment.Ages
import SegmentedCache.Proofs.Segment.Layout

namespace SegmentedCache

/-!
How slots wear. When an entry leaves, its slot moves on to the next generation. An operation moves a slot on twice at
most, and where a slot stays in its generation, what counted there still counts.
-/

namespace Arena

variable {α : Type} {arena arena' : Arena α} {slot : Nat}

/-- The generation that a slot has reached. One that was never filled is in the first. -/
def reached (arena : Arena α) (slot : Nat) : UInt32 :=
  (arena.generation? slot).getD 0

theorem reached_of_stage? {occupied : Bool} {generation : UInt32}
    (stage : arena.stage? slot = some (occupied, generation)) : arena.reached slot = generation := by
  obtain ⟨occupant, located, same⟩ := Option.map_eq_some_iff.mp stage
  rw [reached, generation?, located]
  cases occupant <;> cases same <;> rfl

theorem reached_congr (same : arena'.stage? slot = arena.stage? slot) : arena'.reached slot = arena.reached slot := by
  cases stage : arena.stage? slot with
  | none =>
      have outside := Option.map_eq_none_iff.mp stage
      have outside' := Option.map_eq_none_iff.mp (same.trans stage)
      simp [reached, generation?, outside, outside']
  | some stage' =>
      rw [reached_of_stage? stage, reached_of_stage? (same.trans stage)]

theorem reached_of_get? {handle : Handle} {value : α} (found : arena.get? handle = some value) :
    arena.reached handle.index = handle.generation := by
  rw [reached, generation?_of_get? found, Option.getD_some]

theorem reached_insert (wellFormed : arena.WellFormed) (value : α) (slot : Nat) :
    (arena.insert value).2.reached slot = arena.reached slot := by
  obtain ⟨indices, stack⟩ := wellFormed.exists_stack
  obtain ⟨_, _, generation, generations⟩ := insert_slot stack value
  rw [reached, generations]
  split
  · rename_i own
    rw [own, Option.getD_some, generation, reached]
  · rfl

end Arena

namespace Segment

variable {K V : Type} {s s' s'' : Segment K V} {handle : Handle} {reach : Reach} {slot : Nat}

structure Turned (turns slot : Nat) (s s' : Segment K V) : Prop where
  reached : s'.arena.reached slot = s.arena.reached slot + UInt32.ofNat turns
  counted : turns = 0 → ∀ handle, handle.index = slot → s.HasCounted handle → s'.HasCounted handle

def Worn (most : Nat) (s s' : Segment K V) : Prop :=
  ∀ slot, ∃ turns ≤ most, Turned turns slot s s'

theorem HasCounted.reached (counted : s.HasCounted handle) : s.arena.reached handle.index = handle.generation := by
  obtain ⟨entry, found, _⟩ := counted
  obtain ⟨threaded, live⟩ := get?_of_found found
  exact Arena.reached_of_get? live

theorem Turned.still (reached : s'.arena.reached slot = s.arena.reached slot)
    (counted : ∀ handle, handle.index = slot → s.HasCounted handle → s'.HasCounted handle) : Turned 0 slot s s' :=
  ⟨reached.trans (UInt32.add_zero _).symm, fun _ => counted⟩

theorem Turned.trans {turns turns' : Nat} (first : Turned turns slot s s') (second : Turned turns' slot s' s'') :
    Turned (turns + turns') slot s s'' where
  reached := by rw [second.reached, first.reached, UInt32.ofNat_add, UInt32.add_assoc]
  counted still handle own counted :=
    have ⟨none_before, none_after⟩ := Nat.add_eq_zero_iff.mp still
    second.counted none_after handle own (first.counted none_before handle own counted)

namespace Worn

variable {most most' : Nat}

theorem refl (s : Segment K V) : Worn 0 s s :=
  fun _ => ⟨0, le_rfl, .still rfl fun _ _ => id⟩

theorem mono (worn : Worn most s s') (le : most ≤ most') : Worn most' s s' := by
  intro slot
  obtain ⟨turns, few, turned⟩ := worn slot
  exact ⟨turns, few.trans le, turned⟩

theorem trans (first : Worn most s s') (second : Worn most' s' s'') : Worn (most + most') s s'' := by
  intro slot
  obtain ⟨turns, few, turned⟩ := first slot
  obtain ⟨turns', few', turned'⟩ := second slot
  exact ⟨turns + turns', Nat.add_le_add few few', turned.trans turned'⟩

end Worn

theorem reached_of_layout (layout : s'.layout = s.layout) (slot : Nat) :
    s'.arena.reached slot = s.arena.reached slot :=
  have ⟨_, outline⟩ := Prod.mk.inj layout
  Arena.reached_congr (congrFun (Prod.mk.inj outline).2 slot)

theorem Settled.worn {reading : Prop} (settled : Settled reading s s') : Worn 0 s s' :=
  fun slot => ⟨0, le_rfl, .still (reached_of_layout settled.layout slot) fun handle _ => settled.counted handle⟩

theorem Rebooked.worn {ledger : Ledger K V} (rebooked : Rebooked s s' ledger) (layout : s'.layout = s.layout) :
    Worn 0 s s' :=
  fun slot => ⟨0, le_rfl, .still (reached_of_layout layout slot) fun handle _ counted =>
    counted.of_bare? (rebooked.bare? handle)⟩

theorem Purge.stage? {allowed : Entry K V → Cause → Prop} (purge : Purge reach allowed s s')
    (consistent : s.Consistent) (slot : Nat) :
    (s'.arena.stage? slot = s.arena.stage? slot ∧
        ∀ handle, handle.index = slot → s.HasCounted handle → s'.HasCounted handle) ∨
      ∃ generation, s.arena.stage? slot = some (true, generation) ∧
        s'.arena.stage? slot = some (false, generation + 1) := by
  induction purge with
  | done s => exact .inl ⟨rfl, fun _ _ => id⟩
  | @replay s s' _ ih =>
      have replayed := consistent.replayReads
      have same : s.replayReads.arena.stage? slot = s.arena.stage? slot :=
        congrFun (Prod.mk.inj (Prod.mk.inj (layout_replayReads (s := s))).2).2 slot
      rw [← same]
      refine (ih replayed.consistent).imp_left fun ⟨still, kept⟩ => ⟨still, fun handle own counted => ?_⟩
      exact kept handle own (counted.of_bare? (replayed.bare? handle))
  | @discard s s' gone _ cause found _ _ ih =>
      have discarded := consistent.discard found reach cause
      have stages := (Prod.mk.inj (Prod.mk.inj (layout_discard found reach cause)).2).2
      have later := ih discarded.consistent
      rw [show (s.discard reach gone cause).arena.stage? slot = _ from congrFun stages slot] at later
      by_cases here : slot = gone.index
      · subst here
        rw [Function.update_self] at later
        obtain ⟨_, live⟩ := get?_of_found found
        -- nothing comes in during a sweep, so the slot can not be emptied again
        rcases later with ⟨empty, _⟩ | ⟨_, occupied, _⟩
        · exact .inr ⟨gone.generation, Arena.stage?_of_get? live, empty⟩
        · cases occupied
      · rw [Function.update_of_ne here] at later
        refine later.imp_left fun ⟨still, kept⟩ => ⟨still, fun handle own counted => ?_⟩
        have different : handle ≠ gone := fun same => here (same ▸ own).symm
        exact kept handle own (counted.of_bare? (discarded.differ.others handle different))

theorem Purge.worn {allowed : Entry K V → Cause → Prop} (purge : Purge reach allowed s s')
    (consistent : s.Consistent) :
    Worn 1 s s' := by
  intro slot
  rcases purge.stage? consistent slot with ⟨still, kept⟩ | ⟨generation, occupied, empty⟩
  · exact ⟨0, Nat.zero_le 1, .still (Arena.reached_congr still) kept⟩
  · refine ⟨1, le_rfl, ?_, nofun⟩
    rw [Arena.reached_of_stage? occupied, Arena.reached_of_stage? empty]
    rfl

theorem Transition.counted_of_new {after : Option (Entry K V)} {ledger : Ledger K V}
    (transition : Transition s s' handle none after ledger) {other : Handle} (counted : s.HasCounted other) :
    s'.HasCounted other := by
  have different : other ≠ handle := by
    rintro rfl
    obtain ⟨_, found, _⟩ := counted
    cases (bare?_of_found found).symm.trans transition.differ.before
  exact counted.of_bare? (transition.differ.others other different)

theorem Linked.reached_attach (linked : s.Linked) (key : Shared K) (hash : UInt64) (content : Content V)
    (weight now slot : Nat) : (s.attach key hash content weight now).2.arena.reached slot = s.arena.reached slot := by
  obtain ⟨threaded, layout⟩ := s.layout_attach key hash content weight now
  have stages := (Prod.mk.inj (Prod.mk.inj layout).2).2
  have wellFormed : s.roomy.arena.WellFormed := by
    unfold roomy
    split
    · exact linked.growTable.linked.arena
    · exact linked.arena
  calc (s.attach key hash content weight now).2.arena.reached slot
      = (s.roomy.arena.insert threaded).2.reached slot := Arena.reached_congr (congrFun stages slot)
    _ = s.roomy.arena.reached slot := Arena.reached_insert wellFormed threaded slot
    _ = s.arena.reached slot := Arena.reached_congr (congrFun (Prod.mk.inj s.outline_roomy).2 slot)

section Operations

variable [DecidableEq K] {hash : K → UInt64} {now : Nat} {op : Operation K V}

theorem Turnover.worn (turnover : Turnover hash reach now op s s') (consistent : s.Consistent) : Worn 2 s s' := by
  cases turnover with
  | kept before settled after =>
      exact ((before.worn consistent).trans settled.worn).trans (after.worn settled.consistent)
  | @reserved t before thread key =>
      have consistent' := before.consistent consistent
      obtain ⟨_, granted⟩ := consistent'.grant now thread key (hash key.data)
      have issued := consistent'.issue thread key
      have attached : Worn 0 t (t.grant now thread key (hash key.data)).2 := by
        refine fun slot => ⟨0, le_rfl, .still ?_ fun _ _ => granted.counted_of_new⟩
        exact issued.consistent.toLinked.reached_attach key (hash key.data) (.loading t.loads.size none) 0 now slot
      exact ((before.worn consistent).trans attached).mono (by decide)
  | @added t before key value weight =>
      have consistent' := before.consistent consistent
      have added := consistent'.add key (hash key.data) value weight now
      have enrolled : Worn 0 t ((t.attach key (hash key.data) (.ready value) weight now).2.enroll
          (t.attach key (hash key.data) (.ready value) weight now).1) := by
        refine fun slot => ⟨0, le_rfl, .still ?_ fun _ _ => added.counted_of_new⟩
        exact (reached_of_layout layout_enroll slot).trans
          (consistent'.toLinked.reached_attach key (hash key.data) (.ready value) weight now slot)
      exact ((before.worn consistent).trans enrolled).trans ((added.consistent.evict reach _).worn added.consistent)

theorem Turnover.readLog (turnover : Turnover hash reach now op s s') (consistent : s.Consistent)
    (silent : op.reads = false) : s'.readLog = s.readLog ∨ s'.readLog = #[] := by
  have swept {t : Segment K V} (before : Purge reach (fun _ _ => True) s t) : t.readLog = s.readLog ∨
      t.readLog = #[] :=
    (before.readLog_eq consistent).symm
  cases turnover with
  | kept before settled after =>
      rcases after.readLog_eq settled.consistent with empty | same
      · exact .inr empty
      · rw [same]
        rcases settled.readLog with same' | empty | ⟨reads, _⟩
        · exact same' ▸ swept before
        · exact .inr empty
        · cases silent.symm.trans reads
  | reserved before thread key =>
      obtain ⟨_, granted⟩ := (before.consistent consistent).grant now thread key (hash key.data)
      rw [granted.readLog]
      exact swept before
  | @added t before key value weight =>
      have added := (before.consistent consistent).add key (hash key.data) value weight now
      have evicted := added.consistent.evict reach (some (t.attach key (hash key.data) (.ready value) weight now).1)
      rcases evicted.readLog_eq added.consistent with empty | same
      · exact .inr empty
      · have log : (t.insertNew reach now key (hash key.data) value weight).readLog = t.readLog :=
          same.trans added.readLog
        rw [log]
        exact swept before

theorem readLog_read {code : UInt64} {key : K} {value : Shared V} {refresh : Bool}
    (live : (s.read reach now code key).1 = .live value refresh) (tracks : s.policy.tracksReads = true)
    (room : s.readLog.size < readLogLimit) :
    ∃ handle entry, s.find? reach code key = some (handle, entry) ∧
      (s.read reach now code key).2.readLog = s.readLog.push handle := by
  have reading := s.reading reach now code key
  generalize s.read reach now code key = result at reading live ⊢
  cases reading with
  | absent | awaited | stale => cases live
  | @live handle entry _ located =>
      refine ⟨handle, entry, located, ?_⟩
      simp only [noteRead, tracks, ↓reduceIte]
      exact congrArg Segment.readLog (if_pos room)

omit [DecidableEq K] in
theorem Consistent.cleanUp_readLog (consistent : s.Consistent) (reach : Reach) (now : Nat) :
    (s.cleanUp reach now).readLog = #[] := by
  have replayed := consistent.replayReads
  have expired := (expire_purge replayed.consistent reach now).any
  have consistent₁ := expired.consistent replayed.consistent
  have reclaimed := (consistent₁.reclaim reach).any
  have consistent₂ := reclaimed.consistent consistent₁
  have swept := (expired.trans reclaimed).trans (consistent₂.evict reach none).any
  exact swept.readLog replayed.consistent (congrArg Ledger.readLog replayed.ledger)

end Operations

end Segment
end SegmentedCache
