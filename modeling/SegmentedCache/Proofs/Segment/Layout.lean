import SegmentedCache.Proofs.Segment.Operation

namespace SegmentedCache

/-!
The layout of a segment: how long its table is, how many entries are stored, and in which generation each slot of the
arena stands. Only what brings an entry in or takes one out changes it.
-/

namespace Arena

variable {α : Type}

def Slot.stage : Slot α → Bool × UInt32
  | .vacant _ generation => (false, generation)
  | .occupied _ generation => (true, generation)

def stage? (arena : Arena α) (index : Nat) : Option (Bool × UInt32) :=
  arena.slots[index]?.map Slot.stage

def outline (arena : Arena α) : Nat × (Nat → Option (Bool × UInt32)) :=
  (arena.size, arena.stage?)

theorem stage?_of_get? {arena : Arena α} {handle : Handle} {value : α} (found : arena.get? handle = some value) :
    arena.stage? handle.index = some (true, handle.generation) := by
  rw [stage?, get?_eq_some.mp found]
  rfl

theorem get?_of_stage? {arena : Arena α} {handle : Handle}
    (occupied : arena.stage? handle.index = some (true, handle.generation)) :
    ∃ value, arena.get? handle = some value := by
  obtain ⟨slot, located, stage⟩ := Option.map_eq_some_iff.mp occupied
  cases slot with
  | vacant next generation => cases stage
  | occupied value generation =>
      cases stage
      exact ⟨value, get?_eq_some.mpr located⟩

theorem get?_of_outline {β : Type} {arena : Arena α} {arena' : Arena β} (same : arena'.outline = arena.outline)
    {handle : Handle} {value : α} (found : arena.get? handle = some value) :
    ∃ value', arena'.get? handle = some value' := by
  have stages : arena'.stage? = arena.stage? := congrArg Prod.snd same
  exact get?_of_stage? ((congrFun stages _).trans (stage?_of_get? found))

@[simp] theorem outline_modify (arena : Arena α) (handle : Handle) (f : α → α) :
    (arena.modify handle f).outline = arena.outline := by
  refine Prod.ext (arena.size_modify handle f) (funext fun index => ?_)
  simp only [outline, modify]
  cases found : arena.get? handle with
  | none => rfl
  | some value =>
      obtain ⟨bound, occupant⟩ := Array.getElem?_eq_some_iff.mp (get?_eq_some.mp found)
      by_cases same : index = handle.index
      · simp [stage?, same, bound, occupant, Slot.stage]
      · simp [stage?, Array.getElem?_setIfInBounds_ne (Ne.symm same)]

theorem outline_remove {arena : Arena α} {handle : Handle} {value : α} (found : arena.get? handle = some value) :
    (arena.remove handle).2.outline =
      (arena.size - 1, Function.update arena.stage? handle.index (some (false, handle.generation + 1))) := by
  obtain ⟨bound, _⟩ := Array.getElem?_eq_some_iff.mp (get?_eq_some.mp found)
  refine Prod.ext (size_remove found) (funext fun index => ?_)
  by_cases same : index = handle.index
  · simp [outline, remove, found, stage?, same, bound, Slot.stage]
  · simp [outline, remove, found, stage?, same, Array.getElem?_setIfInBounds_ne (Ne.symm same)]

end Arena

namespace LinkedQueue

variable {α : Type} {queue queue' : LinkedQueue} {arena arena' : Arena (Threaded α)} {handle : Handle}

theorem outline_relink {neighbour : Option Handle} {f : Threaded α → Threaded α}
    (relinked : relink arena neighbour f = some arena') : arena'.outline = arena.outline := by
  unfold relink at relinked
  split at relinked
  · cases relinked
    rfl
  · split at relinked
    · cases relinked
      exact arena.outline_modify ..
    · cases relinked

theorem outline_push (pushed : queue.push arena handle = some (queue', arena')) :
    arena'.outline = arena.outline := by
  unfold push at pushed
  simp only [Option.bind_eq_bind, Option.bind_eq_some_iff] at pushed
  obtain ⟨threaded, found, pushed⟩ := pushed
  split at pushed
  · cases pushed
  · simp only [Option.pure_def, Option.bind_eq_some_iff, Option.some.injEq, Prod.mk.injEq] at pushed
    obtain ⟨other, relinked, _, rfl⟩ := pushed
    simpa using outline_relink relinked

theorem outline_erase {found : Bool} (erased : queue.erase arena handle = some (found, queue', arena')) :
    arena'.outline = arena.outline := by
  unfold erase at erased
  simp only [Option.bind_eq_bind, Option.bind_eq_some_iff] at erased
  obtain ⟨threaded, _, erased⟩ := erased
  split at erased
  · cases erased
    rfl
  · simp only [Option.pure_def, Option.bind_eq_some_iff, Option.some.injEq, Prod.mk.injEq] at erased
    obtain ⟨first, relinked, second, relinked', _, _, rfl⟩ := erased
    rw [Arena.outline_modify, outline_relink relinked', outline_relink relinked]

theorem outline_moveToEnd (moved : queue.moveToEnd arena handle = some (queue', arena')) :
    arena'.outline = arena.outline := by
  unfold moveToEnd at moved
  split at moved
  · cases moved
    rfl
  · simp only [Option.bind_eq_bind, Option.bind_eq_some_iff] at moved
    obtain ⟨⟨found, other, relinked⟩, erased, moved⟩ := moved
    dsimp only at moved
    split at moved
    · rw [outline_push moved, outline_erase erased]
    · cases moved
      exact outline_erase erased

end LinkedQueue

def Operation.reads {K V : Type} : Operation K V → Bool
  | .read _ => true
  | _ => false

namespace Segment

variable {K V : Type} {s s' : Segment K V} {handle : Handle} {reach : Reach}

/-- How long the table is, how many entries are stored, and the stages of the slots. -/
def layout (s : Segment K V) : Nat × Nat × (Nat → Option (Bool × UInt32)) :=
  (s.table.size, s.arena.outline)

theorem layout_requeue {result : Option (LinkedQueue × Arena (Threaded (Entry K V)))}
    (same : ∀ queue arena, result = some (queue, arena) → arena.outline = s.arena.outline) :
    (s.requeue result).layout = s.layout := by
  cases result with
  | none => rfl
  | some result =>
      rw [requeue_some, layout, layout, same _ _ rfl]

@[simp] theorem layout_push (ranking : Ranking) : (s.push ranking handle).layout = s.layout :=
  layout_requeue fun _ _ => LinkedQueue.outline_push

@[simp] theorem layout_moveToEnd (ranking : Ranking) : (s.moveToEnd ranking handle).layout = s.layout :=
  layout_requeue fun _ _ => LinkedQueue.outline_moveToEnd

@[simp] theorem layout_dequeue (ranking : Ranking) : (s.dequeue ranking handle).layout = s.layout := by
  apply layout_requeue
  intro queue arena erased
  obtain ⟨⟨found, _⟩, erased, rfl⟩ := Option.map_eq_some_iff.mp erased
  exact LinkedQueue.outline_erase erased

@[simp] theorem layout_modifyEntry (f : Entry K V → Entry K V) : (s.modifyEntry handle f).layout = s.layout :=
  congrArg (Prod.mk _) (s.arena.outline_modify ..)

@[simp] theorem layout_displace (load : Option LoadId) (cause : Cause) :
    (s.displace load cause).layout = s.layout := by
  cases load <;> rfl

@[simp] theorem layout_report (removal : Removal K V) : (s.report removal).layout = s.layout := rfl

@[simp] theorem layout_noteChange : s.noteChange.layout = s.layout := rfl

@[simp] theorem layout_issue (thread : ThreadId) (key : Shared K) : (s.issue thread key).2.layout = s.layout := rfl

@[simp] theorem layout_enroll : (s.enroll handle).layout = s.layout := by
  have pushed : ((s.push .write handle).push .access handle).layout = s.layout := by simp
  unfold enroll
  generalize (s.push .write handle).push .access handle = t at pushed ⊢
  dsimp only
  split
  · exact pushed
  · exact pushed

@[simp] theorem layout_reweigh (old new : Nat) : (s.reweigh old new).layout = s.layout := by
  unfold reweigh
  split <;> rfl

@[simp] theorem layout_rejuvenate : (s.rejuvenate handle).layout = s.layout := by
  simp [rejuvenate]

@[simp] theorem layout_use (now : Nat) : (s.use handle now).layout = s.layout := by
  unfold use
  split <;> simp

@[simp] theorem layout_noteRead (now : Nat) : (s.noteRead handle now).layout = s.layout := by
  have touched : (s.modifyEntry handle (·.touch now)).layout = s.layout := layout_modifyEntry _
  unfold noteRead
  split
  · dsimp only
    split
    · exact touched
    · exact touched
  · rfl

@[simp] theorem layout_replayReads : s.replayReads.layout = s.layout := by
  have replayed (handles : List Handle) (s : Segment K V) :
      (handles.foldl (fun s handle => if s.arena.contains handle then s.moveToEnd .access handle else s) s).layout =
        s.layout := by
    induction handles generalizing s with
    | nil => rfl
    | cons handle rest ih =>
        rw [List.foldl_cons, ih]
        split <;> simp
  rw [replayReads, ← Array.foldl_toList, replayed]
  rfl

@[simp] theorem layout_unchain (entry : Entry K V) : (s.unchain handle entry).layout = s.layout := by
  unfold unchain
  dsimp only
  split
  · exact congrArg (Prod.mk · _) (Array.size_setIfInBounds ..)
  · split
    · exact layout_modifyEntry _
    · rfl

@[simp] theorem layout_discount (entry : Entry K V) (cause : Cause) :
    (s.discount reach entry cause).layout = s.layout := by
  unfold discount
  split
  · rfl
  · dsimp only
    split <;> rfl

theorem layout_discard {entry : Entry K V} (found : s.entry? handle = some entry) (reach : Reach) (cause : Cause) :
    (s.discard reach handle cause).layout =
      (s.table.size, s.arena.size - 1,
        Function.update s.arena.stage? handle.index (some (false, handle.generation + 1))) := by
  -- what comes before the removal only relinks, so the occupant is there to be removed
  have same : (((s.unchain handle entry).dequeue .access handle).dequeue .write handle).layout = s.layout := by simp
  generalize dequeued : ((s.unchain handle entry).dequeue .access handle).dequeue .write handle = t at same
  obtain ⟨length, outline⟩ := Prod.mk.inj same
  obtain ⟨size, stages⟩ := Prod.mk.inj outline
  obtain ⟨threaded, live⟩ := get?_of_found found
  obtain ⟨threaded', live'⟩ := Arena.get?_of_outline outline live
  simp only [discard, found, dequeued, layout_discount, layout_displace, layout_noteChange]
  rw [layout, Arena.outline_remove live', length, size, stages]

theorem outline_foldl_rechain (stored : List (Handle × Entry K V))
    (state : Array (Option Handle) × Arena (Threaded (Entry K V))) :
    (stored.foldl (fun (table, arena) (handle, entry) => rechain table arena handle entry.hash) state).2.outline =
      state.2.outline := by
  induction stored generalizing state with
  | nil => rfl
  | cons first rest ih =>
      rw [List.foldl_cons, ih]
      exact Arena.outline_modify ..

@[simp] theorem outline_growTable (s : Segment K V) : s.growTable.arena.outline = s.arena.outline := by
  unfold growTable
  dsimp only
  split
  · rfl
  · exact outline_foldl_rechain s.stored _

def roomy (s : Segment K V) : Segment K V :=
  if s.arena.size + 1 > s.fillLimit then s.growTable else s

@[simp] theorem outline_roomy (s : Segment K V) : s.roomy.arena.outline = s.arena.outline := by
  unfold roomy
  split
  · exact s.outline_growTable
  · rfl

theorem layout_attach (s : Segment K V) (key : Shared K) (hash : UInt64) (content : Content V) (weight now : Nat) :
    ∃ threaded, (s.attach key hash content weight now).2.layout =
      (s.roomy.table.size, (s.roomy.arena.insert threaded).2.outline) :=
  ⟨{ item := { key, hash, content, weight, written := now, accessed := now,
               next := s.roomy.first? (s.roomy.bucket hash) } },
    congrArg (Prod.mk · _) (Array.size_setIfInBounds ..)⟩

def HasCounted (s : Segment K V) (handle : Handle) : Prop :=
  ∃ entry, s.entry? handle = some entry ∧ entry.isReserved = false

/-- Entries were changed in place, and no new one came: the layout stays, and what counted still counts. Reads that were
noted are kept or forgotten, and a reader may note one. -/
structure Settled (reading : Prop) (s s' : Segment K V) : Prop where
  consistent : s'.Consistent
  layout : s'.layout = s.layout
  counted : ∀ handle, s.HasCounted handle → s'.HasCounted handle
  readLog : s'.readLog = s.readLog ∨ s'.readLog = #[] ∨
    reading ∧ ∃ handle, s.HasCounted handle ∧ s'.readLog = s.readLog.push handle

theorem HasCounted.of_bare? (counted : s.HasCounted handle) (same : s'.bare? handle = s.bare? handle) :
    s'.HasCounted handle := by
  have unreserved (entry : Entry K V) : entry.bare.isReserved = false ↔ entry.isReserved = false := .rfl
  unfold HasCounted at *
  rwa [← exists_bare_iff unreserved, same, exists_bare_iff unreserved]

namespace Settled

variable {reading : Prop}

theorem refl (consistent : s.Consistent) : Settled reading s s :=
  ⟨consistent, rfl, fun _ => id, .inl rfl⟩

theorem mono {reading' : Prop} (settled : Settled reading s s') (weaker : reading → reading') :
    Settled reading' s s' :=
  ⟨settled.consistent, settled.layout, settled.counted, settled.readLog.imp_right (.imp_right (.imp_left weaker))⟩

theorem trans {s'' : Segment K V} (first : Settled False s s') (second : Settled False s' s'') :
    Settled False s s'' := by
  refine ⟨second.consistent, second.layout.trans first.layout,
    fun handle counted => second.counted handle (first.counted handle counted), ?_⟩
  rcases second.readLog with same | empty | never
  · rw [same]
    exact first.readLog
  · exact .inr (.inl empty)
  · exact never.1.elim

end Settled

theorem Rebooked.settled {ledger : Ledger K V} (rebooked : Rebooked s s' ledger) (layout : s'.layout = s.layout)
    (readLog : ledger.readLog = s.readLog ∨ ledger.readLog = #[]) : Settled False s s' := by
  have log : s'.readLog = ledger.readLog := congrArg Ledger.readLog rebooked.ledger
  refine ⟨rebooked.consistent, layout, fun handle counted => counted.of_bare? (rebooked.bare? handle), ?_⟩
  rw [log]
  exact readLog.imp_right .inl

theorem Transition.counted {before after : Entry K V} {ledger : Ledger K V}
    (transition : Transition s s' handle (some before) (some after) ledger)
    (kept : before.isReserved = false → after.isReserved = false) {other : Handle} (counted : s.HasCounted other) :
    s'.HasCounted other := by
  by_cases same : other = handle
  · subst same
    have unreserved (entry : Entry K V) : entry.bare.isReserved = false ↔ entry.isReserved = false := .rfl
    unfold HasCounted at *
    rw [← exists_bare_iff unreserved] at counted ⊢
    obtain ⟨record, found, counts⟩ := counted
    cases found.symm.trans transition.differ.before
    exact ⟨after, transition.differ.after, kept counts⟩
  · exact counted.of_bare? (transition.differ.others other same)

theorem Transition.settled {before after : Entry K V} {order : Ranking → List Handle}
    (transition : Transition s s' handle (some before) (some after) { s.ledger with ordered := order })
    (layout : s'.layout = s.layout) (kept : before.isReserved = false → after.isReserved = false) :
    Settled False s s' :=
  ⟨transition.consistent, layout, fun _ => transition.counted kept, .inl transition.readLog⟩

theorem used_isReserved (policy : Policy K V) (now : Nat) (entry : Entry K V) :
    (policy.used now entry).isReserved = entry.isReserved := by
  unfold Policy.used
  split <;> rfl

namespace Consistent

theorem noteChange_settled (consistent : s.Consistent) : Settled False s s.noteChange :=
  consistent.noteChange.settled layout_noteChange (.inl rfl)

theorem report_settled (consistent : s.Consistent) (removal : Removal K V) : Settled False s (s.report removal) :=
  (consistent.report removal).settled (layout_report removal) (.inl rfl)

theorem displace_settled (consistent : s.Consistent) (load : Option LoadId) (cause : Cause) :
    Settled False s (s.displace load cause) :=
  (consistent.displace load cause).settled (layout_displace load cause) (.inl rfl)

theorem issue_settled (consistent : s.Consistent) (thread : ThreadId) (key : Shared K) :
    Settled False s (s.issue thread key).2 :=
  (consistent.issue thread key).settled (layout_issue thread key) (.inl rfl)

variable {entry : Entry K V}

theorem setContent_settled (consistent : s.Consistent) (live : s.entry? handle = some entry) (content : Content V)
    (reserved : (entry.setContent content).isReserved = entry.isReserved) :
    Settled False s (s.modifyEntry handle (·.setContent content)) :=
  (consistent.modifyEntry live (f := (·.setContent content)) (fun _ => rfl) (fun _ => rfl) reserved rfl).settled
    (layout_modifyEntry _) fun counted => reserved.trans counted

theorem fill_settled (consistent : s.Consistent) (live : s.entry? handle = some entry)
    (reserved : entry.visible? = none) (value : Shared V) (weight now : Nat) :
    Settled False s ((s.modifyEntry handle (·.store value weight now)).enroll handle) :=
  (consistent.fill live reserved value weight now).settled (by simp) fun _ => rfl

theorem renew_settled (consistent : s.Consistent) (live : s.entry? handle = some entry) {old : Shared V}
    (counted : entry.visible? = some old) (value : Shared V) (weight now : Nat) :
    Settled False s
      (((s.modifyEntry handle (·.store value weight now)).reweigh entry.weight weight).rejuvenate handle) :=
  (consistent.renew live (Entry.isReserved_eq_false.mpr ⟨old, counted⟩) value weight now).settled
    (by simp) fun _ => rfl

theorem use_settled (consistent : s.Consistent) (live : s.entry? handle = some entry) (now : Nat) :
    Settled False s (s.use handle now) :=
  (consistent.use live now).settled (layout_use now) fun counted => (used_isReserved ..).trans counted

theorem noteRead_settled (consistent : s.Consistent) (live : s.entry? handle = some entry)
    (counted : entry.isReserved = false) (now : Nat) : Settled True s (s.noteRead handle now) := by
  have noted := consistent.noteRead live now
  refine ⟨noted.consistent, layout_noteRead now,
    fun _ => noted.counted fun counted => (used_isReserved ..).trans counted, ?_⟩
  rw [noted.readLog]
  dsimp only
  unfold readLogAfter
  split
  · exact .inr (.inr ⟨trivial, handle, ⟨entry, live, counted⟩, rfl⟩)
  · exact .inl rfl

end Consistent

/-- What an operation does to the layout: it sweeps, and then it settles or brings one entry in. -/
inductive Turnover [DecidableEq K] (hash : K → UInt64) (reach : Reach) (now : Nat) (op : Operation K V)
    (s : Segment K V) : Segment K V → Prop where
  | kept {t u s' : Segment K V} (before : Purge reach (fun _ _ => True) s t)
      (settled : Settled (op.reads = true) t u) (after : Purge reach (fun _ _ => True) u s') :
      Turnover hash reach now op s s'
  | reserved {t : Segment K V} (before : Purge reach (fun _ _ => True) s t) (thread : ThreadId) (key : Shared K) :
      Turnover hash reach now op s (t.grant now thread key (hash key.data)).2
  | added {t : Segment K V} (before : Purge reach (fun _ _ => True) s t) (key : Shared K) (value : Shared V)
      (weight : Nat) : Turnover hash reach now op s (t.insertNew reach now key (hash key.data) value weight)

section Turnover

variable [DecidableEq K] {hash : K → UInt64} {now : Nat} {op : Operation K V} {allowed : Entry K V → Cause → Prop}

omit [DecidableEq K] in
theorem Purge.any (purge : Purge reach allowed s s') : Purge reach (fun _ _ => True) s s' :=
  purge.mono fun _ _ _ => trivial

theorem Purge.turnover (purge : Purge reach allowed s s') (consistent : s.Consistent) :
    Turnover hash reach now op s s' :=
  .kept purge.any (.refl (purge.consistent consistent)) (.done s')

theorem Consistent.idle_turnover (consistent : s.Consistent) : Turnover hash reach now op s s :=
  .kept (.done s) (.refl consistent) (.done s)

theorem Settled.turnover {t : Segment K V} (settled : Settled False t s') (before : Purge reach allowed s t) :
    Turnover hash reach now op s s' :=
  .kept before.any (settled.mono False.elim) (.done s')

theorem Settled.evicted {t u : Segment K V} (settled : Settled False t u) (before : Purge reach allowed s t)
    (newest : Option Handle) : Turnover hash reach now op s (u.evict reach newest) :=
  .kept before.any (settled.mono False.elim) (settled.consistent.evict reach newest).any

namespace Consistent

theorem read_settled (consistent : s.Consistent) (reach : Reach) (now : Nat) (code : UInt64) (key : K) :
    Settled True s (s.read reach now code key).2 := by
  have reading := s.reading reach now code key
  generalize s.read reach now code key = result at reading ⊢
  cases reading with
  | absent | awaited | stale => exact .refl consistent
  | live located counted =>
      exact consistent.noteRead_settled (find?_eq_some located).1 (Entry.isReserved_eq_false.mpr ⟨_, counted⟩) now

theorem read_turnover (consistent : s.Consistent) (key : K) :
    Turnover hash reach now (.read key) s (s.read reach now (hash key) key).2 :=
  .kept (.done s) ((consistent.read_settled reach now (hash key) key).mono fun _ => rfl) (.done _)

theorem claim_turnover (consistent : s.Consistent) (thread : ThreadId) (key : Shared K) :
    Turnover hash reach now (.claim thread key) s (s.claim reach now thread key (hash key.data)).2 := by
  have prepared := (consistent.prepare reach now).any
  have consistent' := prepared.consistent consistent
  have claiming := s.claiming reach now thread key (hash key.data)
  generalize s.claim reach now thread key (hash key.data) = result at claiming ⊢
  generalize s.prepare reach now = t at *
  cases claiming with
  | absent => exact .reserved prepared thread key
  | awaited => exact prepared.turnover consistent
  | live located => exact (consistent'.use_settled (find?_eq_some located).1 now).turnover prepared
  | stale located => exact .reserved (prepared.trans (.single (find?_eq_some located).1 trivial)) thread key

theorem claimRefresh_turnover (consistent : s.Consistent) (thread : ThreadId) (key : Shared K) (force : Bool) :
    Turnover hash reach now (.claimRefresh thread key force) s
      (s.claimRefresh reach now thread key (hash key.data) force).2 := by
  have renewing := s.renewing reach now thread key (hash key.data) force
  generalize s.claimRefresh reach now thread key (hash key.data) force = result at renewing ⊢
  cases renewing with
  | declined => exact consistent.idle_turnover
  | @started handle entry value located ready =>
      have issued := consistent.issue_settled thread key
      have live : Segment.entry? (s.issue thread key).2 handle = some entry := (find?_eq_some located).1
      have settled := issued.trans (issued.consistent.setContent_settled live (.loading s.loads.size (some value))
        (by simp [Entry.isReserved, Entry.setContent, ready]))
      exact settled.turnover (show Purge reach (fun _ _ => True) s s from .done s)

theorem storeLoaded_turnover (consistent : s.Consistent) {entry : Entry K V} {t : Segment K V}
    (before : Purge reach allowed s t) (live : t.entry? handle = some entry) (key : Shared K) (value : Shared V) :
    Turnover hash reach now op s (t.storeLoaded reach now key value handle entry) := by
  have consistent' := before.consistent consistent
  unfold storeLoaded
  cases counted : entry.visible? with
  | none =>
      have filled := consistent'.fill_settled live counted value (t.policy.weigh key.data value.data) now
      exact (filled.trans filled.consistent.noteChange_settled).evicted before (some handle)
  | some old =>
      have renewed := consistent'.renew_settled live counted value (t.policy.weigh key.data value.data) now
      have reported := renewed.trans (renewed.consistent.report_settled
        { key := ⟨key, true⟩, value := ⟨old, t.policy.valueStrength.reaches reach old⟩, cause := .replaced })
      exact (reported.trans reported.consistent.noteChange_settled).evicted before (some handle)

theorem finishLoad_turnover (consistent : s.Consistent) (key : Shared K) (load : LoadId) (loaded : Option (Shared V)) :
    Turnover hash reach now (.finishLoad key load loaded) s
      (s.finishLoad reach now key (hash key.data) load loaded) := by
  have before := (consistent.prepare reach now).any
  have consistent' := before.consistent consistent
  have finishing := s.finishing reach now key (hash key.data) load loaded
  generalize s.finishLoad reach now key (hash key.data) load loaded = s' at finishing ⊢
  generalize s.prepare reach now = t at *
  cases finishing with
  | dropped => exact before.turnover consistent
  | reported => exact (consistent'.report_settled _).turnover before
  | stored located => exact consistent.storeLoaded_turnover before (find?_eq_some located).1 key _
  | @forgone handle entry located =>
      have live := (find?_eq_some located).1
      unfold giveUp
      cases counted : entry.visible? with
      | none => exact (before.trans (.single live trivial)).turnover consistent
      | some old =>
          have reserved : (entry.setContent (.ready old)).isReserved = entry.isReserved :=
            (Entry.isReserved_eq_false.mpr ⟨old, counted⟩).symm
          exact (consistent'.setContent_settled live _ reserved).turnover before

theorem fillReserved_turnover (consistent : s.Consistent) {t : Segment K V} {entry : Entry K V}
    (before : Purge reach allowed s t) (live : t.entry? handle = some entry) (reserved : entry.visible? = none)
    (value : Shared V) (weight : Nat) :
    Turnover hash reach now op s (t.fillReserved reach now value weight handle entry) := by
  have displaced := (before.consistent consistent).displace_settled entry.load? .replaced
  have live' : Segment.entry? (t.displace entry.load? .replaced) handle = some entry := by
    rw [displace_eq]
    exact live
  have filled := displaced.trans (displaced.consistent.fill_settled live' reserved value weight now)
  exact (filled.trans filled.consistent.noteChange_settled).evicted before (some handle)

theorem overwrite_turnover (consistent : s.Consistent) {t : Segment K V} {entry : Entry K V}
    (before : Purge reach allowed s t) (live : t.entry? handle = some entry) {old : Shared V}
    (counted : entry.visible? = some old) (key : Shared K) (value : Shared V) (weight : Nat) :
    Turnover hash reach now op s (t.overwrite reach now key value weight handle entry old) := by
  have displaced := (before.consistent consistent).displace_settled entry.load? .replaced
  have live' : Segment.entry? (t.displace entry.load? .replaced) handle = some entry := by
    rw [displace_eq]
    exact live
  have reported := displaced.trans (displaced.consistent.report_settled
    { key := ⟨key, true⟩, value := ⟨old, t.policy.valueStrength.reaches reach old⟩, cause := .replaced })
  have renewed := reported.trans (reported.consistent.renew_settled live' counted value weight now)
  have noted := renewed.trans renewed.consistent.noteChange_settled
  exact noted.evicted before (some handle)

theorem insert_turnover (consistent : s.Consistent) (key : Shared K) (value : Shared V) (onlyIfNew : Bool) :
    Turnover hash reach now (.insert key value onlyIfNew) s
      (s.insert reach now key (hash key.data) value onlyIfNew).2 := by
  have before := (consistent.prepare reach now).any
  have consistent' := before.consistent consistent
  have inserting := s.inserting reach now key (hash key.data) value onlyIfNew
  generalize s.insert reach now key (hash key.data) value onlyIfNew = result at inserting ⊢
  generalize s.prepare reach now = t at *
  cases inserting with dsimp only
  | absent => exact .added before key value _
  | stale located => exact .added (before.trans (.single (find?_eq_some located).1 trivial)) key value _
  | reserved located reserved =>
      exact consistent.fillReserved_turnover before (find?_eq_some located).1 reserved value _
  | turnedAway located => exact (consistent'.use_settled (find?_eq_some located).1 now).turnover before
  | overwritten located counted =>
      exact consistent.overwrite_turnover before (find?_eq_some located).1 counted key value _

theorem remove_turnover (consistent : s.Consistent) (key : K) :
    Turnover hash reach now (.remove key) s (s.remove reach now (hash key) key).2 := by
  have before := (consistent.prepare reach now).any
  have removing := s.removing reach now (hash key) key
  generalize s.remove reach now (hash key) key = result at removing ⊢
  generalize s.prepare reach now = t at *
  cases removing with
  | absent => exact before.turnover consistent
  | lost located | found located =>
      exact (before.trans (.single (find?_eq_some located).1 trivial)).turnover consistent

theorem clear_turnover (consistent : s.Consistent) : Turnover hash reach now .clear s (s.clear reach) := by
  obtain ⟨t, purge, cleared, _⟩ := consistent.clear reach
  rcases cleared with same | forgotten
  · exact same ▸ purge.turnover consistent
  · rw [forgotten]
    exact ((purge.consistent consistent).forgetReads.settled rfl (.inr rfl)).turnover purge

theorem turnover (consistent : s.Consistent) (hash : K → UInt64) (reach : Reach) (now : Nat) (op : Operation K V) :
    Turnover hash reach now op s (op.run hash reach now s) := by
  cases op with
  | read key => exact consistent.read_turnover key
  | claim thread key => exact consistent.claim_turnover thread key
  | claimRefresh thread key force => exact consistent.claimRefresh_turnover thread key force
  | finishLoad key load loaded => exact consistent.finishLoad_turnover key load loaded
  | insert key value onlyIfNew => exact consistent.insert_turnover key value onlyIfNew
  | remove key => exact consistent.remove_turnover key
  | clear => exact consistent.clear_turnover
  | releaseSoft => exact (consistent.releaseSoft reach).turnover consistent
  | cleanUp => exact (consistent.cleanUp reach now).turnover consistent

end Consistent
end Turnover

end Segment
end SegmentedCache
