import SegmentedCache.Proofs.Segment.Mirror
import SegmentedCache.Proofs.Segment.Storing

namespace SegmentedCache

/-!
Eviction in the order of use. As long as time does not go back and every read is noted, the entry that was not used for
longest is the first in the queue. A value that is stored while reads of other entries wait to be replayed would upset
that order: the reads are older, and yet they are moved behind it.
-/

variable {K V : Type}

inductive Way where
  | put (onlyIfNew : Bool)
  | load (id : LoadId)
deriving DecidableEq

structure Write (K V : Type) where
  reach : Reach
  now : Nat
  key : Shared K
  value : Shared V
  way : Way

theorem Entry.weighs_pos {entry : Entry K V} : 0 < entry.weighs ↔ entry.isReserved = false ∧ 0 < entry.weight := by
  unfold Entry.weighs
  cases entry.isReserved <;> simp

namespace Segment

variable {s s' t : Segment K V} {handle : Handle} {hash : K → UInt64} {reach : Reach} {now noted : Nat}
  {key : Shared K} {value : Shared V}

structure Ranked (now noted : Nat) (s : Segment K V) : Prop where
  consistent : s.Consistent
  sorted : s.Sorted
  past : ∀ handle record, s.bare? handle = some record → ∀ ranking, record.stamp ranking ≤ now
  few : s.readLog.size ≤ noted

def OnlyRead (s : Segment K V) (handle : Handle) : Prop :=
  ∀ other ∈ s.readLog, other ≠ handle → other ∉ s.ordered .access

theorem onlyRead_of_empty (empty : s.readLog = #[]) (handle : Handle) : s.OnlyRead handle := by
  intro other member
  rw [empty] at member
  simp at member

theorem replayedOrder_of_same {readLog : Array Handle} {order : List Handle}
    (same : ∀ other ∈ readLog, LinkedQueue.movedToEnd order other = order) :
    replayedOrder readLog order = order := by
  have each (handles : List Handle) (same : ∀ other ∈ handles, LinkedQueue.movedToEnd order other = order) :
      handles.foldl LinkedQueue.movedToEnd order = order := by
    induction handles with
    | nil => rfl
    | cons first rest ih =>
        rw [List.foldl_cons, same first List.mem_cons_self]
        exact ih fun other member => same other (List.mem_cons_of_mem _ member)
  exact each _ fun other member => same other (Array.mem_toList_iff.mp member)

theorem replayedOrder_of_apart {readLog : Array Handle} {order : List Handle}
    (apart : ∀ other ∈ readLog, other ∉ order) : replayedOrder readLog order = order :=
  replayedOrder_of_same fun other member => if_neg (apart other member)

theorem replayedOrder_append {readLog : Array Handle} {earlier : List Handle} (fresh : handle ∉ earlier)
    (apart : ∀ other ∈ readLog, other ∉ earlier) :
    replayedOrder readLog (earlier ++ [handle]) = earlier ++ [handle] := by
  apply replayedOrder_of_same
  intro other member
  unfold LinkedQueue.movedToEnd
  split
  · rename_i inside
    obtain rfl : other = handle := by simpa [apart other member] using inside
    rw [List.erase_append_right _ fresh]
    simp
  · rfl

theorem OnlyRead.dueOrder (only : s.OnlyRead handle) (consistent : s.Consistent) (readLog : s'.readLog = s.readLog)
    (ordered : s'.ordered .access = (s.ordered .access).erase handle ++ [handle]) :
    s'.dueOrder .access = (s.dueOrder .access).erase handle ++ [handle] := by
  have nodup := (consistent.queued .access).nodup
  have apart : ∀ other ∈ s.readLog, other ∉ (s.ordered .access).erase handle := by
    intro other member inside
    obtain ⟨different, inside⟩ := nodup.mem_erase_iff.mp inside
    exact only other member different inside
  have earlier : (s.dueOrder .access).erase handle = (s.ordered .access).erase handle := by
    rw [Segment.dueOrder, ← replayedOrder_erase nodup]
    exact replayedOrder_of_apart apart
  rw [earlier, Segment.dueOrder, readLog, ordered]
  exact replayedOrder_append nodup.not_mem_erase apart

namespace Ranked

theorem mono (ranked : s.Ranked now noted) {later more : Nat} (le : now ≤ later) (le' : noted ≤ more) :
    s.Ranked later more where
  consistent := ranked.consistent
  sorted := ranked.sorted
  past handle record found ranking := (ranked.past handle record found ranking).trans le
  few := ranked.few.trans le'

theorem of_vacant (consistent : s.Consistent) (vacant : ∀ handle, s.bare? handle = none)
    (few : s.readLog.size ≤ noted) : s.Ranked now noted where
  consistent := consistent
  sorted ranking := List.pairwise_of_forall fun first _ record _ found => by cases (vacant first).symm.trans found
  past handle record found := by cases (vacant handle).symm.trans found
  few := few

theorem rebooked (ranked : s.Ranked now noted) {ledger : Ledger K V} (rebooked : Rebooked s s' ledger)
    (ordered : ledger.ordered = s.ordered) (readLog : ledger.readLog = s.readLog) : s'.Ranked now noted := by
  have order := rebooked.ordered.trans ordered
  have log : s'.readLog = s.readLog := (congrArg Ledger.readLog rebooked.ledger).trans readLog
  refine ⟨rebooked.consistent, fun ranking => ?_, fun handle record found => ?_, log ▸ ranked.few⟩
  · have due : s'.dueOrder ranking = s.dueOrder ranking := by
      cases ranking with
      | access => rw [dueOrder, order, log, dueOrder]
      | write => exact congrFun order .write
    rw [due]
    apply ranked.sorted.sublist (List.Sublist.refl _)
    intro handle _ record found
    exact ⟨record, (rebooked.bare? handle).symm.trans found, rfl⟩
  · exact ranked.past handle record ((rebooked.bare? handle).symm.trans found)

theorem purge (ranked : s.Ranked now noted) {allowed : Entry K V → Cause → Prop}
    (purge : Purge reach allowed s s') :
    s'.Ranked now noted where
  consistent := purge.consistent ranked.consistent
  sorted := purge.sorted ranked.consistent ranked.sorted
  past handle record found := ranked.past handle record (purge.bare? ranked.consistent found)
  few := by
    rcases purge.readLog_eq ranked.consistent with empty | same
    · simp [empty]
    · exact same ▸ ranked.few

theorem discard (ranked : s.Ranked now noted) {entry : Entry K V} (live : s.entry? handle = some entry)
    (cause : Cause) : (s.discard reach handle cause).Ranked now noted :=
  have purge : Purge reach (fun _ _ => True) s (s.discard reach handle cause) := .single live trivial
  ranked.purge purge

theorem change (ranked : s.Ranked now noted) {before : Option (Entry K V)} {after : Entry K V} {ledger : Ledger K V}
    (transition : Transition s s' handle before (some after) ledger) (past : ∀ ranking, after.stamp ranking ≤ now)
    (order : ∀ ranking,
      (s'.dueOrder ranking = s.dueOrder ranking ∧ (handle ∈ s.dueOrder ranking →
        ∃ record, before = some record ∧ record.stamp ranking = after.stamp ranking)) ∨
      s'.dueOrder ranking = (s.dueOrder ranking).erase handle ++ [handle] ∧ after.stamp ranking = now)
    {more : Nat} (few : s'.readLog.size ≤ more) : s'.Ranked now more where
  consistent := transition.consistent
  sorted := by
    apply ranked.sorted.change transition
    intro ranking
    rcases order ranking with kept | ⟨last, stamp⟩
    · exact .inl kept
    · have nodup := ranked.consistent.nodup_dueOrder ranking
      refine .inr ⟨_, last, List.erase_sublist, nodup.not_mem_erase, fun other record found => ?_⟩
      rw [stamp]
      exact ranked.past other record found ranking
  past other record found := by
    rw [transition.differ.bare?] at found
    split at found
    · cases found
      exact past
    · exact ranked.past other record found
  few := few

theorem inPlace (ranked : s.Ranked now noted) {before : Option (Entry K V)} {after : Entry K V} {ledger : Ledger K V}
    (transition : Transition s s' handle before (some after) ledger) (ordered : ledger.ordered = s.ordered)
    (readLog : ledger.readLog = s.readLog)
    (kept : before = none ∧ (∀ ranking, after.stamp ranking ≤ now) ∨
      ∃ record, before = some record ∧ ∀ ranking, record.stamp ranking = after.stamp ranking) :
    s'.Ranked now noted := by
  have order := transition.ordered.trans ordered
  have log := transition.readLog.trans readLog
  have due (ranking : Ranking) : s'.dueOrder ranking = s.dueOrder ranking := by
    cases ranking with
    | access => rw [dueOrder, order, log, dueOrder]
    | write => exact congrFun order .write
  refine ranked.change transition (fun ranking => ?_) (fun ranking => .inl ⟨due ranking, fun queued => ?_⟩)
    (log ▸ ranked.few)
  · rcases kept with ⟨_, past⟩ | ⟨record, rfl, same⟩
    · exact past ranking
    · exact same ranking ▸ ranked.past handle record transition.differ.before ranking
  · rcases kept with ⟨rfl, _⟩ | ⟨record, rfl, same⟩
    · rw [mem_dueOrder, ranked.consistent.mem_ordered] at queued
      obtain ⟨entry, live, _⟩ := queued
      cases transition.differ.before.symm.trans (bare?_of_found live)
    · exact ⟨record, rfl, same ranking⟩

theorem replay (ranked : s.Ranked now noted) : s.replayReads.Ranked now 0 :=
  have purge : Purge (fun _ => true) (fun _ _ => False) s s.replayReads := .replay (.done _)
  { ranked.purge purge with
    few := by
      have empty : s.replayReads.readLog = #[] := congrArg Ledger.readLog ranked.consistent.replayReads.ledger
      simp [empty] }

theorem stores (ranked : s.Ranked now noted) (stores : Stores now key value s s' handle) (only : s.OnlyRead handle) :
    s'.Ranked now noted := by
  obtain ⟨before, after, ledger, transition, fresh, _, _, readLog⟩ := stores.transition
  have log := transition.readLog.trans readLog
  have stamp (ranking : Ranking) : after.stamp ranking = now := by
    cases ranking with
    | access => exact fresh.accessed
    | write => exact fresh.written
  refine ranked.change transition (fun ranking => (stamp ranking).le) (fun ranking => .inr ⟨?_, stamp ranking⟩)
    (log ▸ ranked.few)
  cases ranking with
  | access => exact only.dueOrder ranked.consistent log (stores.ordered .access)
  | write => exact stores.ordered .write

section Uses

variable {entry : Entry K V}

theorem used (ranked : s.Ranked now noted) {ledger : Ledger K V}
    (transition : Transition s s' handle (some entry.bare) (some (s.policy.used now entry).bare) ledger)
    (access : s'.dueOrder .access =
      if s.policy.tracksReads then (s.dueOrder .access).erase handle ++ [handle] else s.dueOrder .access)
    (write : s'.dueOrder .write = s.dueOrder .write) {more : Nat} (few : s'.readLog.size ≤ more) :
    s'.Ranked now more := by
  have past := ranked.past handle entry.bare transition.differ.before
  cases tracks : s.policy.tracksReads with
  | false =>
      have same : s.policy.used now entry = entry := by simp [Policy.used, tracks]
      rw [tracks] at access
      rw [same] at transition
      refine ranked.change transition past (fun ranking => .inl ⟨?_, fun _ => ⟨_, rfl, rfl⟩⟩) few
      cases ranking with
      | access => exact access
      | write => exact write
  | true =>
      have touched : s.policy.used now entry = entry.touch now := by simp [Policy.used, tracks]
      rw [tracks, if_pos rfl] at access
      rw [touched] at transition
      refine ranked.change transition (fun ranking => ?_) (fun ranking => ?_) few
      · cases ranking with
        | access => exact le_rfl
        | write => exact past .write
      · cases ranking with
        | access => exact .inr ⟨access, rfl⟩
        | write => exact .inl ⟨write, fun _ => ⟨_, rfl, rfl⟩⟩

theorem use (ranked : s.Ranked now noted) (live : s.entry? handle = some entry) (counted : entry.isReserved = false)
    (only : s.OnlyRead handle) : (s.use handle now).Ranked now noted := by
  have used := ranked.consistent.use live now
  have inside : handle ∈ s.ordered .access :=
    (ranked.consistent.mem_ordered .access handle).mpr ⟨entry, live, counted⟩
  have log : (s.use handle now).readLog = s.readLog := used.readLog
  have order := used.ordered
  unfold orderedAfterUse at order
  refine ranked.used used ?_ ?_ (log ▸ ranked.few)
  · split
    · rename_i tracks
      apply only.dueOrder ranked.consistent log
      simp only [order, tracks, ↓reduceIte, Function.update_self, LinkedQueue.movedToEnd, inside]
    · rename_i untracked
      simp only [dueOrder, order, log, untracked, ↓reduceIte, Bool.false_eq_true]
  · simp only [dueOrder, order]
    split <;> rfl

theorem noteRead (ranked : s.Ranked now noted) (live : s.entry? handle = some entry)
    (counted : entry.isReserved = false) (room : noted < readLogLimit) :
    (s.noteRead handle now).Ranked now (noted + 1) := by
  have read := ranked.consistent.noteRead live now
  have inside : handle ∈ s.dueOrder .access := by
    rw [mem_dueOrder, ranked.consistent.mem_ordered]
    exact ⟨entry, live, counted⟩
  have log := read.readLog
  simp only [readLogAfter, ranked.few.trans_lt room, and_true] at log
  refine ranked.used read ?_ (congrFun read.ordered .write) ?_
  · rw [dueOrder, log, read.ordered]
    split
    · rw [replayedOrder_push, LinkedQueue.movedToEnd]
      exact if_pos inside
    · rfl
  · rw [log]
    split
    · rw [Array.size_push]
      exact Nat.succ_le_succ ranked.few
    · exact ranked.few.trans (Nat.le_succ _)

end Uses

end Ranked

/-- Of the entries that weigh something and are not `gone`, none was used longer ago. -/
def LeastRecent (s : Segment K V) (gone : List Handle) (record : Entry K V) : Prop :=
  0 < record.weighs ∧ ∀ other record', other ∉ gone → s.bare? other = some record' → 0 < record'.weighs →
    record.accessed ≤ record'.accessed

def InTurn (s : Segment K V) : List Handle → List (Loss K V) → Prop
  | _, [] => True
  | gone, loss :: losses => s.LeastRecent gone loss.record ∧ s.InTurn (loss.handle :: gone) losses

/-- The losses, one after the other, for their size. The newest entry comes first if it exceeds the bound alone, and the
others come in the order of use. -/
structure Evicts (reach : Reach) (newest : Handle) (losses : List (Loss K V)) (s s' : Segment K V) : Prop where
  thinned : Thinned reach (fun record cause => cause = s.policy.trueCause reach record .size) losses [] s s'
  chosen : s.InTurn [] losses ∨ ∃ first rest, losses = first :: rest ∧ first.handle = newest ∧
    s.bound.isExceededBy first.record.weight = true ∧ s.InTurn [newest] rest

theorem InTurn.after {gone : List Handle} {losses : List (Loss K V)} (inTurn : s'.InTurn gone losses)
    {before : Option (Entry K V)} (differ : Differ s s' handle before none) :
    s.InTurn (gone ++ [handle]) losses := by
  induction losses generalizing gone with
  | nil => trivial
  | cons first rest ih =>
      obtain ⟨least, inTurn⟩ := inTurn
      refine ⟨⟨least.1, fun other record left found heavy => ?_⟩, ih inTurn⟩
      rw [List.mem_append, List.mem_singleton, not_or] at left
      exact least.2 other record left.1 ((differ.others other left.2).trans found) heavy

theorem InTurn.congr {gone : List Handle} {losses : List (Loss K V)} (inTurn : s'.InTurn gone losses)
    (same : ∀ handle, s'.bare? handle = s.bare? handle) : s.InTurn gone losses := by
  induction losses generalizing gone with
  | nil => trivial
  | cons first rest ih =>
      obtain ⟨least, inTurn⟩ := inTurn
      exact ⟨⟨least.1, fun other record left found => least.2 other record left ((same other).trans found)⟩,
        ih inTurn⟩

theorem InTurn.le_left {gone : List Handle} {losses : List (Loss K V)} (inTurn : s.InTurn gone losses)
    {loss : Loss K V} (member : loss ∈ losses) {other : Handle} (left : other ∉ gone)
    (spared : other ∉ losses.map (·.handle)) {record : Entry K V} (found : s.bare? other = some record)
    (heavy : 0 < record.weighs) : loss.record.accessed ≤ record.accessed := by
  induction losses generalizing gone with
  | nil => cases member
  | cons first rest ih =>
      obtain ⟨least, inTurn⟩ := inTurn
      rw [List.map_cons, List.mem_cons, not_or] at spared
      rcases List.mem_cons.mp member with rfl | later
      · exact least.2 other record left found heavy
      · exact ih inTurn later (by simp [spared.1, left]) spared.2

theorem Consistent.victim_least (consistent : s.Consistent)
    (sorted : (s.ordered .access).Pairwise (s.Precedes .access)) (tracks : s.policy.tracksReads = true)
    (chosen : s.victim? = some handle) : ∃ entry, s.entry? handle = some entry ∧ entry.isReserved = false ∧
      s.LeastRecent [] entry.bare := by
  have ranking : s.victimRanking = .access := by rw [victimRanking, tracks, if_pos rfl]
  rw [victim?, ranking, List.find?_eq_some_iff_append] at chosen
  obtain ⟨weighing, earlier, later, order, weightless⟩ := chosen
  have inside : handle ∈ s.ordered .access := by
    rw [order]
    simp
  obtain ⟨entry, live, counted⟩ := (consistent.mem_ordered .access handle).mp inside
  have weighs : 0 < entry.weight := by simpa [live] using weighing
  refine ⟨entry, live, counted, Entry.weighs_pos.mpr ⟨counted, weighs⟩, fun other record _ found heavy => ?_⟩
  obtain ⟨entry', live', rfl⟩ := bare?_eq_some.mp found
  obtain ⟨counted', heavy⟩ : entry'.isReserved = false ∧ 0 < entry'.weight := Entry.weighs_pos.mp heavy
  have queued := (consistent.mem_ordered .access other).mpr ⟨entry', live', counted'⟩
  rw [order, List.mem_append, List.mem_cons] at queued
  rcases queued with before | rfl | after
  · -- whatever comes before the victim weighs nothing
    have light := weightless other before
    simp only [live', Option.any_some, Bool.not_eq_true', decide_eq_false_iff_not] at light
    exact absurd heavy light
  · cases live.symm.trans live'
    exact le_rfl
  · rw [order, List.pairwise_append, List.pairwise_cons] at sorted
    exact sorted.2.1.1 other after _ _ (bare?_of_found live) found

theorem Consistent.evictOldest_losses (consistent : s.Consistent) (sorted : s.Sorted) (replayed : s.readLog = #[])
    (tracks : s.policy.tracksReads = true) (reach : Reach) {steps : Nat} (enough : s.count ≤ steps) :
    ∃ losses, Thinned reach (fun record cause => cause = s.policy.trueCause reach record .size) losses [] s
        (evictOldest reach steps s) ∧ s.InTurn [] losses := by
  induction steps generalizing s with
  | zero =>
      have holds : ¬ s.bound.isExceededBy s.weight = true := by
        intro exceeded
        obtain ⟨handle, entry, _, found, counted⟩ := consistent.victim exceeded
        have fewer := consistent.count_discard found counted reach .size
        omega
      rw [evictOldest, if_neg holds]
      exact ⟨[], .nothing s, trivial⟩
  | succ steps ih =>
      rw [evictOldest]
      split
      · rename_i exceeded
        obtain ⟨handle, _, located, _, _⟩ := consistent.victim exceeded
        have order := sorted .access
        rw [dueOrder_of_empty replayed] at order
        obtain ⟨entry, live, counted, least⟩ := consistent.victim_least order tracks located
        simp only [located]
        have cause_eq := trueCause_eq (bare?_of_found live) reach .size
        have discarded := consistent.discard live reach (s.trueCause reach handle .size)
        have fewer := consistent.count_discard live counted reach (s.trueCause reach handle .size)
        have policy : (s.discard reach handle (s.trueCause reach handle .size)).policy = s.policy := discarded.policy
        obtain ⟨losses, thinned, inTurn⟩ := ih discarded.consistent (sorted.erase consistent discarded rfl rfl)
          (discarded.readLog.trans replayed) (policy ▸ tracks) (by omega)
        rw [policy] at thinned
        exact ⟨_, thinned.discard consistent live cause_eq, least, inTurn.after discarded.differ⟩
      · exact ⟨[], .nothing s, trivial⟩

theorem Ranked.evicts (ranked : s.Ranked now noted) (tracks : s.bound.isBounded = true → s.policy.tracksReads = true)
    (reach : Reach) (newest : Handle) : ∃ losses, Evicts reach newest losses s (s.evict reach (some newest)) := by
  unfold Segment.evict
  split
  · rename_i bounded
    have replayed := ranked.consistent.replayReads
    have sorted := ranked.replay.sorted
    have empty : s.replayReads.readLog = #[] := congrArg Ledger.readLog replayed.ledger
    have policy : s.replayReads.policy = s.policy := replayed.policy
    have bound : s.replayReads.bound = s.bound := replayed.bound
    have same := replayed.bare?
    -- replaying comes first, and leaves the entries as they are
    suffices evicts : ∃ losses, Evicts reach newest losses s.replayReads
        (evictOldest reach (s.replayReads.evictOversized reach (some newest)).count
          (s.replayReads.evictOversized reach (some newest))) by
      obtain ⟨losses, thinned, chosen⟩ := evicts
      rw [policy] at thinned
      refine ⟨losses, thinned.replay ranked.consistent, ?_⟩
      rcases chosen with inTurn | ⟨first, rest, losses_eq, isNewest, exceeds, inTurn⟩
      · exact .inl (inTurn.congr same)
      · exact .inr ⟨first, rest, losses_eq, isNewest, bound ▸ exceeds, inTurn.congr same⟩
    have tracks' : s.replayReads.policy.tracksReads = true := policy ▸ tracks bounded
    have consistent := replayed.consistent
    generalize s.replayReads = t at *
    unfold evictOversized
    dsimp only
    split
    · rename_i oversized
      obtain ⟨entry, live, oversized⟩ := (Option.any_eq_true _ _).mp oversized
      rw [Bool.and_eq_true, Bool.not_eq_true'] at oversized
      have cause_eq := trueCause_eq (bare?_of_found live) reach .size
      have discarded := consistent.discard live reach (t.trueCause reach newest .size)
      have policy' : (t.discard reach newest (t.trueCause reach newest .size)).policy = t.policy := discarded.policy
      obtain ⟨losses, thinned, inTurn⟩ := discarded.consistent.evictOldest_losses
        (sorted.erase consistent discarded rfl rfl) (discarded.readLog.trans empty) (policy' ▸ tracks') reach le_rfl
      rw [policy'] at thinned
      exact ⟨_, thinned.discard consistent live cause_eq, .inr ⟨_, losses, rfl, rfl, oversized.2,
        inTurn.after discarded.differ⟩⟩
    · obtain ⟨losses, thinned, inTurn⟩ := consistent.evictOldest_losses sorted empty tracks' reach le_rfl
      exact ⟨losses, thinned, .inl inTurn⟩
  · exact ⟨[], .nothing s, .inl trivial⟩

/-- Reads are replayed before every write, or no read of another key waits to be replayed. -/
def CaughtUp (s : Segment K V) (key : K) : Prop :=
  s.policy.lifetime.isLimited = true ∨
    ∀ handle ∈ s.readLog, ∀ record, s.bare? handle = some record → record.key.data = key

instance [DecidableEq K] (s : Segment K V) (key : K) : Decidable (s.CaughtUp key) :=
  inferInstanceAs (Decidable (_ ∨ ∀ handle ∈ s.readLog, ∀ record ∈ s.bare? handle, record.key.data = key))

/-- What becomes of a value that is written. After a sweep it is stored and others are evicted for it, or it is only to
be stored if the key is new and is turned away, or no entry waits for it any more and it is only reported. -/
inductive Written (write : Write K V) (s : Segment K V) : Segment K V → Prop where
  | stored {t u s' : Segment K V} {handle : Handle} {losses : List (Loss K V)}
      (swept : Purge write.reach (fun entry cause => s.policy.stale? write.reach write.now entry = some cause) s t)
      (stores : Stores write.now write.key write.value t u handle) (evicts : Evicts write.reach handle losses u s') :
      Written write s s'
  | turnedAway {t : Segment K V} {handle : Handle} {entry : Entry K V} (way : write.way = .put true)
      (swept : Purge write.reach (fun entry cause => s.policy.stale? write.reach write.now entry = some cause) s t)
      (live : t.entry? handle = some entry) (same : entry.key.data = write.key.data)
      (counted : entry.isReserved = false) : Written write s (t.use handle write.now)
  | late {t : Segment K V} {load : LoadId} {cause : Cause} (way : write.way = .load load)
      (swept : Purge write.reach (fun entry cause => s.policy.stale? write.reach write.now entry = some cause) s t)
      (gone : ∀ handle, t.StandsFor write.reach write.key.data handle → ∀ record, t.bare? handle = some record →
        record.load? ≠ some load) :
      Written write s (t.report { key := ⟨write.key, true⟩, value := ⟨write.value, true⟩, cause })

theorem Written.outlives {write : Write K V} (written : Written write s s') (consistent : s.Consistent)
    (way : write.way = .put false) {other : Handle} {record : Entry K V} (left : s'.bare? other = some record)
    (heavy : 0 < record.weighs) (earlier : record.accessed < write.now) :
    (∃ handle fresh, s'.bare? handle = some fresh ∧ fresh.key.data = write.key.data) ∨
      s.bound.isExceededBy (s.policy.weigh write.key.data write.value.data) = true := by
  cases written with
  | turnedAway way' => cases way.symm.trans way'
  | late way' => cases way.symm.trans way'
  | @stored t u _ handle losses swept stores evicts =>
      obtain ⟨_, after, _, transition, fresh, _, bound, _⟩ := stores.transition
      have bare? := evicts.thinned.bare?
      by_cases lost : handle ∈ losses.map (·.handle)
      · have spared : other ∉ losses.map (·.handle) := by
          intro gone
          rw [bare?, if_pos gone] at left
          cases left
        rw [bare?, if_neg spared] at left
        have own (loss : Loss K V) (member : loss ∈ losses) (here : loss.handle = handle) : loss.record = after := by
          have held := evicts.thinned.held loss member
          rw [here, transition.differ.after] at held
          exact (Option.some.inj held).symm
        rcases evicts.chosen with inTurn | ⟨first, rest, rfl, here, exceeds, _⟩
        · obtain ⟨loss, member, here⟩ := List.mem_map.mp lost
          have no_later := inTurn.le_left member List.not_mem_nil spared left heavy
          rw [own loss member here, fresh.accessed] at no_later
          exact absurd no_later (Nat.not_le_of_lt earlier)
        · rw [own first List.mem_cons_self here, fresh.weight, swept.policy consistent] at exceeds
          rw [transition.bound.trans (bound.trans (swept.bound consistent))] at exceeds
          exact .inr exceeds
      · exact .inl ⟨handle, after, by rw [bare?, if_neg lost, transition.differ.after], fresh.same⟩

theorem CaughtUp.onlyRead {allowed : Entry K V → Cause → Prop} (caught : s.CaughtUp key.data)
    (consistent : s.Consistent) (swept : Purge reach allowed s t)
    (replayed : s.policy.lifetime.isLimited = true → t.readLog = #[]) (reclaimed : t.Reclaimed reach)
    (only : ∀ other, t.StandsFor reach key.data other → other = handle) : t.OnlyRead handle := by
  rcases caught with limited | apart
  · -- the sweep has replayed all reads
    exact onlyRead_of_empty (replayed limited) handle
  · rcases swept.readLog_eq consistent with empty | same
    · exact onlyRead_of_empty empty handle
    · intro other read different queued
      obtain ⟨entry, live, counted⟩ := ((swept.consistent consistent).mem_ordered .access other).mp queued
      have found := bare?_of_found live
      have own := apart other (same ▸ read) _ (swept.bare? consistent found)
      obtain ⟨old, visible⟩ := Entry.isReserved_eq_false.mp counted
      have kept := reclaimed other _ found
      rw [Policy.isLost, show entry.bare.visible? = some old from visible] at kept
      simp only [Bool.or_eq_false_iff, Bool.not_eq_false'] at kept
      exact different (only other ⟨_, found, kept.1, own⟩)

theorem Ranked.stored (ranked : s.Ranked now noted)
    (tracks : s.bound.isBounded = true → s.policy.tracksReads = true)
    (swept : Purge reach (fun entry cause => s.policy.stale? reach now entry = some cause) s t)
    (stores : Stores now key value t s' handle) (only : t.OnlyRead handle) (way : Way) :
    Written ⟨reach, now, key, value, way⟩ s (s'.evict reach (some handle)) ∧
      (s'.evict reach (some handle)).Ranked now noted := by
  have stored := (ranked.purge swept).stores stores only
  obtain ⟨_, _, _, transition, _, policy, bound, _⟩ := stores.transition
  have policy' : s'.policy = s.policy := transition.policy.trans (policy.trans (swept.policy ranked.consistent))
  have bound' : s'.bound = s.bound := transition.bound.trans (bound.trans (swept.bound ranked.consistent))
  obtain ⟨losses, evicts⟩ := stored.evicts (by rwa [policy', bound']) reach handle
  exact ⟨.stored swept stores evicts, stored.purge (stored.consistent.evict reach (some handle))⟩

section Operations

variable [DecidableEq K]

theorem Ranked.insert (ranked : s.Ranked now noted) (keyed : s.Keyed hash reach)
    (tracks : s.bound.isBounded = true → s.policy.tracksReads = true) (caught : s.CaughtUp key.data)
    (onlyIfNew : Bool) :
    Written ⟨reach, now, key, value, .put onlyIfNew⟩ s
      (s.insert reach now key (hash key.data) value onlyIfNew).2 ∧
      (s.insert reach now key (hash key.data) value onlyIfNew).2.Ranked now noted := by
  obtain ⟨t, swept, replayed, reclaimed, handle, unique, inserted⟩ :=
    ranked.consistent.insert_swept hash reach now key value onlyIfNew
  have only := caught.onlyRead ranked.consistent swept replayed reclaimed (unique keyed)
  rcases inserted with ⟨u, stores, stored⟩ | ⟨rfl, entry, live, same, counted, used⟩
  · rw [stored]
    exact ranked.stored tracks swept stores only _
  · rw [used]
    exact ⟨.turnedAway rfl swept live same counted, (ranked.purge swept).use live counted only⟩

theorem Ranked.finishLoad (ranked : s.Ranked now noted) (keyed : s.Keyed hash reach)
    (tracks : s.bound.isBounded = true → s.policy.tracksReads = true) (caught : s.CaughtUp key.data) (load : LoadId) :
    Written ⟨reach, now, key, value, .load load⟩ s
      (s.finishLoad reach now key (hash key.data) load (some value)) ∧
      (s.finishLoad reach now key (hash key.data) load (some value)).Ranked now noted := by
  obtain ⟨t, swept, replayed, reclaimed, finished⟩ :=
    ranked.consistent.finishLoad_swept hash reach now key load value
  have ranked' := ranked.purge swept
  rcases finished with ⟨u, handle, stores, unique, stored⟩ | ⟨gone, cause, reported⟩
  · rw [stored]
    exact ranked.stored tracks swept stores
      (caught.onlyRead ranked.consistent swept replayed reclaimed (unique keyed)) _
  · rw [reported]
    exact ⟨.late rfl swept (gone keyed), ranked'.rebooked (ranked'.consistent.report _) rfl rfl⟩

theorem Ranked.giveUp (ranked : s.Ranked now noted) (load : LoadId) :
    (s.finishLoad reach now key (hash key.data) load none).Ranked now noted := by
  obtain ⟨before, after, first, act, last⟩ :=
    (ranked.consistent.runs hash reach now (.finishLoad key load none)).parts
  refine Ranked.purge ?_ last
  have ranked' := ranked.purge first
  cases act with
  | idle running | used running => cases running
  | dropped => exact ranked'
  | reverted _ _ _ transition =>
      exact ranked'.inPlace transition rfl rfl (.inr ⟨_, rfl, fun ranking => by cases ranking <;> rfl⟩)
  | abandoned _ _ _ transition =>
      refine ⟨transition.consistent, ranked'.sorted.erase ranked'.consistent transition rfl rfl, ?_, ?_⟩
      · intro other record found
        rw [transition.differ.bare?] at found
        split at found
        · cases found
        · exact ranked'.past other record found
      · exact transition.readLog ▸ ranked'.few

theorem Ranked.read (ranked : s.Ranked now noted) (reach : Reach) (code : UInt64) (key : K)
    (room : noted < readLogLimit) : (s.read reach now code key).2.Ranked now (noted + 1) := by
  have same := ranked.mono le_rfl (Nat.le_succ noted)
  have reading := s.reading reach now code key
  generalize s.read reach now code key = result at reading ⊢
  cases reading with
  | absent | awaited | stale => exact same
  | live located counted =>
      exact ranked.noteRead (find?_eq_some located).1 (Entry.isReserved_eq_false.mpr ⟨_, counted⟩) room

omit [DecidableEq K] in
theorem Ranked.grant (ranked : s.Ranked now noted) (thread : ThreadId) (key : Shared K) (code : UInt64) :
    (s.grant now thread key code).2.Ranked now noted := by
  obtain ⟨handle, granted⟩ := ranked.consistent.grant now thread key code
  exact ranked.inPlace granted rfl rfl (.inl ⟨rfl, fun ranking => by cases ranking <;> exact le_rfl⟩)

theorem Ranked.claim (ranked : s.Ranked now noted) (keyed : s.Keyed hash reach) (thread : ThreadId)
    (caught : s.contains reach now (hash key.data) key.data = true → s.CaughtUp key.data) :
    (s.claim reach now thread key (hash key.data)).2.Ranked now noted := by
  have prepared := (ranked.consistent.prepare reach now).mono fun _ _ => Policy.stale?_of_prepares
  have ranked' := ranked.purge prepared
  have keyed' := prepared.keyed ranked.consistent keyed
  have needless := (ranked.consistent.needless_iff keyed now thread key).mp
  have claiming := s.claiming reach now thread key (hash key.data)
  generalize s.claim reach now thread key (hash key.data) = result at claiming needless ⊢
  cases claiming with
  | absent => exact ranked'.grant thread key _
  | awaited => exact ranked'
  | live located counted =>
      have only := (caught (needless ⟨_, rfl⟩)).onlyRead ranked.consistent prepared
        (ranked.consistent.prepare_readLog reach now) (ranked.consistent.reclaimed_prepare reach now)
        fun other stands => keyed'.distinct key.data other _ stands (standsFor_of_find? located)
      exact ranked'.use (find?_eq_some located).1 (Entry.isReserved_eq_false.mpr ⟨_, counted⟩) only
  | stale located => exact (ranked'.discard (find?_eq_some located).1 _).grant thread key _

theorem Ranked.claimRefresh (ranked : s.Ranked now noted) (thread : ThreadId) (key : Shared K) (code : UInt64)
    (force : Bool) : (s.claimRefresh reach now thread key code force).2.Ranked now noted := by
  have renewing := s.renewing reach now thread key code force
  generalize s.claimRefresh reach now thread key code force = result at renewing ⊢
  cases renewing with
  | declined => exact ranked
  | started located ready =>
      have started := ranked.consistent.startRefresh (find?_eq_some located).1 ready thread key
      exact ranked.inPlace started rfl rfl (.inr ⟨_, rfl, fun ranking => by cases ranking <;> rfl⟩)

theorem Ranked.remove (ranked : s.Ranked now noted) (code : UInt64) (key : K) :
    (s.remove reach now code key).2.Ranked now noted := by
  have ranked' := ranked.purge (ranked.consistent.prepare reach now)
  have removing := s.removing reach now code key
  generalize s.remove reach now code key = result at removing ⊢
  cases removing with
  | absent => exact ranked'
  | lost located | found located => exact ranked'.discard (find?_eq_some located).1 _

end Operations

theorem Ranked.clear (ranked : s.Ranked now noted) (reach : Reach) : (s.clear reach).Ranked now noted := by
  obtain ⟨t, purge, same | forgotten, vacant⟩ := ranked.consistent.clear reach
  · exact same ▸ ranked.purge purge
  · have forgot := (purge.consistent ranked.consistent).forgetReads
    rw [forgotten]
    exact .of_vacant forgot.consistent (fun handle => (forgot.bare? handle).trans (vacant handle)) (by simp)

theorem Ranked.releaseSoft (ranked : s.Ranked now noted) (reach : Reach) : (s.releaseSoft reach).Ranked now noted :=
  ranked.purge (ranked.consistent.releaseSoft reach)

theorem Ranked.cleanUp (ranked : s.Ranked now noted) (reach : Reach) : (s.cleanUp reach now).Ranked now 0 := by
  have replayed := ranked.replay
  have expired := replayed.purge (expire_purge replayed.consistent reach now)
  have reclaimed := expired.purge (expired.consistent.reclaim reach)
  exact reclaimed.purge (reclaimed.consistent.evict reach none)

end Segment
end SegmentedCache
