import Mathlib.Data.Option.Basic
import SegmentedCache.Proofs.Segment.Mirror

namespace SegmentedCache

/-!
The operations of a segment beside those of a map that forgets. Each gives what the map gives, and the two go on alike.
-/

variable {K V : Type}

theorem Policy.Plain.expires_of_prepares {policy : Policy K V} {limits : Lifetime} {bound : Bound}
    (plain : policy.Plain limits bound) {reach : Reach} {now : Nat} {entry : Entry K V} {cause : Cause}
    (prepares : policy.Prepares reach now entry cause) :
    entry.isReserved = false ∧ policy.isExpired now entry = true := by
  rcases prepares with ⟨lost, _⟩ | ⟨counted, expired, _⟩
  · rw [plain.isLost] at lost
    cases lost
  · exact ⟨counted, expired⟩

namespace Segment

variable {s s' : Segment K V} {handle : Handle} {hash : K → UInt64} {reach : Reach} {limits : Lifetime} {now : Nat}

structure Swept (now : Nat) (s : Segment K V) : Prop where
  readLog : s.readLog = #[]
  fresh : ∀ handle record, s.bare? handle = some record → record.isReserved = false →
    s.policy.isExpired now record = false

namespace Mirrors

variable [DecidableEq K] {reference : Reference K V} {loads : K → Option LoadId} {key : K}

theorem prepare (mirrors : s.Mirrors hash limits reference loads now) (reach : Reach) :
    (s.prepare reach now).Mirrors hash limits reference loads now ∧ (s.prepare reach now).Swept now := by
  have purge := mirrors.consistent.prepare reach now
  have prepared := mirrors.purge purge fun _ _ => mirrors.plain.expires_of_prepares
  have reclaimed : s.reclaim reach = s := by
    simp [reclaim, Policy.isStrong, mirrors.plain.keys, mirrors.plain.values]
  refine ⟨prepared, ?_, ?_⟩
  · cases limited : s.policy.lifetime.isLimited with
    | true => exact mirrors.consistent.prepare_readLog reach now limited
    | false =>
        rw [mirrors.plain.lifetime, Lifetime.isLimited, Bool.or_eq_false_iff] at limited
        exact prepared.untracked (by simpa using limited.2)
  · intro handle record found counted
    rw [purge.policy mirrors.consistent]
    rw [Segment.prepare, reclaimed] at found
    exact mirrors.consistent.expire_within mirrors.sorted reach now found counted

theorem cleanUp (mirrors : s.Mirrors hash limits reference loads now) (reach : Reach) :
    (s.cleanUp reach now).Mirrors hash limits reference loads now ∧ (s.cleanUp reach now).readLog = #[] := by
  have consistent := mirrors.consistent
  have purge := consistent.cleanUp reach now
  refine ⟨mirrors.purge purge fun record cause may => ?_, ?_⟩
  · rcases may with prepares | ⟨bounded, _⟩
    · exact mirrors.plain.expires_of_prepares prepares
    · rw [mirrors.plain.unbounded] at bounded
      cases bounded
  · have replayed := consistent.replayReads
    have empty : s.replayReads.readLog = #[] := congrArg Ledger.readLog replayed.ledger
    have expired := expire_purge replayed.consistent reach now
    have reclaimed := (expired.consistent replayed.consistent).reclaim reach
    have consistent' := reclaimed.consistent (expired.consistent replayed.consistent)
    have evicted := consistent'.evict reach none
    exact evicted.readLog consistent'
      (reclaimed.readLog (expired.consistent replayed.consistent) (expired.readLog replayed.consistent empty))

theorem look (mirrors : s.Mirrors hash limits reference loads now) (reach : Reach) (idle : loads key = none) :
    (s.find? reach (hash key) key = none ∧ s.under key = none ∧ reference.present? limits now key = none) ∨
      ∃ handle entry value, s.find? reach (hash key) key = some (handle, entry) ∧ s.entry? handle = some entry ∧
        entry.key.data = key ∧ entry.content = .ready value ∧
        (s.policy.isExpired now entry = true ∧ reference.present? limits now key = none ∨
          ∃ dated, s.policy.isExpired now entry = false ∧ reference.present? limits now key = some dated ∧
            dated.value = value ∧ entry.written = dated.written) := by
  have matched := mirrors.holds key
  rw [idle] at matched
  rcases mirrors.find?_cases reach key with ⟨missing, under⟩ | ⟨handle, entry, found, live, same, under⟩
  · rw [under] at matched
    exact .inl ⟨missing, under, matched.missing.1⟩
  · rw [under] at matched
    obtain ⟨value, ready⟩ : ∃ value, entry.content = .ready value := matched.ready
    have counted : entry.isReserved = false := by rw [Entry.isReserved, ready]
    refine .inr ⟨handle, entry, value, found, live, same, ready, ?_⟩
    rw [mirrors.isExpired_eq]
    cases outlived : limits.isOver now entry.written entry.accessed with
    | true => exact .inl ⟨rfl, (matched.outlived counted outlived).1⟩
    | false =>
        obtain ⟨dated, present, content, written, _⟩ := matched.fresh counted outlived
        have value_eq : entry.content = .ready dated.value := content
        rw [ready] at value_eq
        cases value_eq
        exact .inr ⟨dated, rfl, present, rfl, written⟩

theorem under_found (mirrors : s.Mirrors hash limits reference loads now) {entry : Entry K V}
    (live : s.entry? handle = some entry) : s.under entry.key.data = some entry.bare :=
  mirrors.under_eq (bare?_of_found live)

theorem hashed (mirrors : s.Mirrors hash limits reference loads now) {entry : Entry K V}
    (live : s.entry? handle = some entry) : entry.hash = hash entry.key.data :=
  (mirrors.keyed fun _ => true).hashed handle entry.bare (bare?_of_found live)

theorem used (mirrors : s.Mirrors hash limits reference loads now) (idle : loads key = none) {entry : Entry K V}
    {dated : Dated V} (live : s.entry? handle = some entry) (same : entry.key.data = key)
    (ready : entry.content = .ready dated.value) (written : entry.written = dated.written)
    (present : reference.present? limits now key = some dated) {ledger : Ledger K V}
    (transition : Transition s s' handle (some entry.bare) (some (s.policy.used now entry).bare) ledger)
    (policy : ledger.policy = s.policy) (bound : ledger.bound = s.bound)
    (access : s'.dueOrder .access =
      if s.policy.tracksReads then LinkedQueue.movedToEnd (s.dueOrder .access) handle else s.dueOrder .access)
    (write : s'.dueOrder .write = s.dueOrder .write) (readLog : limits.afterAccess = none → s'.readLog = #[]) :
    s'.Mirrors hash limits (reference.touch limits now key) loads now := by
  have counted : entry.isReserved = false := by rw [Entry.isReserved, ready]
  have kept : (s.policy.used now entry).key = entry.key ∧ (s.policy.used now entry).hash = entry.hash ∧
      (s.policy.used now entry).content = entry.content ∧ (s.policy.used now entry).written = entry.written := by
    unfold Policy.used
    split <;> exact ⟨rfl, rfl, rfl, rfl⟩
  have touched : reference.touch limits now key = Function.update reference key
      (some { dated with accessed := now }) := by
    rw [Reference.touch, present]
  have sorted : s'.Sorted := by
    apply mirrors.sorted.change transition
    intro ranking
    cases ranking with
    | write => exact .inl ⟨write, fun _ => ⟨entry.bare, rfl, kept.2.2.2.symm⟩⟩
    | access =>
        cases tracks : s.policy.tracksReads with
        | false =>
            rw [tracks] at access
            refine .inl ⟨access, fun _ => ⟨entry.bare, rfl, ?_⟩⟩
            simp [Policy.used, tracks]
        | true =>
            have member : handle ∈ s.dueOrder .access := by
              rw [mem_dueOrder, mirrors.consistent.mem_ordered]
              exact ⟨entry, live, counted⟩
            rw [tracks, if_pos rfl, LinkedQueue.movedToEnd, if_pos member] at access
            -- The entry goes to the end of the queue with the latest of all times.
            have nodup := mirrors.consistent.nodup_dueOrder .access
            refine .inr ⟨(s.dueOrder .access).erase handle, access, List.erase_sublist, nodup.not_mem_erase, ?_⟩
            intro other record found
            have stamp : (s.policy.used now entry).bare.stamp .access = now := by
              simp [Policy.used, tracks, Entry.stamp, Entry.touch]
            rw [stamp]
            exact mirrors.past other record found .access
  apply mirrors.change key transition policy bound _ _ _ (by rintro ⟨⟩) sorted _ readLog
  · intro other different
    rw [touched, Function.update_of_ne different]
    exact ⟨rfl, rfl⟩
  · rw [touched, Function.update_self, idle]
    refine .same (kept.2.2.1.trans ready) (kept.2.2.2.trans written) fun set => ?_
    have tracks : s.policy.tracksReads = true := mirrors.plain.tracksReads.trans set
    simp [Policy.used, tracks, Entry.touch]
  · rintro _ ⟨⟩
    exact same
  · rintro _ ⟨⟩
    exact ⟨(congrArg Shared.data kept.1).trans same, kept.2.1.trans (same ▸ mirrors.hashed live)⟩
  · rintro _ _ ⟨⟩ ⟨⟩
    exact kept.1
  · rintro _ ⟨⟩ ranking
    have past := mirrors.past handle entry.bare (bare?_of_found live) ranking
    unfold Policy.used
    split
    · cases ranking with
      | access => exact le_rfl
      | write => exact past
    · exact past

theorem read (mirrors : s.Mirrors hash limits reference loads now) (idle : loads key = none) (reach : Reach)
    (room : s.readLog.size < readLogLimit) :
    (reference.find? limits now key = none ∧ s.read reach now (hash key) key = (.nothing, s)) ∨
      ∃ value t, reference.find? limits now key = some value ∧
        s.read reach now (hash key) key = (.live value false, t) ∧
        t.Mirrors hash limits (reference.touch limits now key) loads now ∧ t.readLog.size ≤ s.readLog.size + 1 := by
  unfold Segment.read
  rcases mirrors.look reach idle
    with ⟨missing, _, absent⟩ | ⟨handle, entry, value, found, live, same, ready, age⟩
  · exact .inl ⟨Reference.find?_eq_none.mpr absent, by simp only [missing]⟩
  · have counted : entry.isReserved = false := by rw [Entry.isReserved, ready]
    have visible : entry.visible? = some value := by rw [Entry.visible?, ready]
    simp only [found, ready, mirrors.plain.stale?_eq reach now counted, mirrors.plain.value?_eq, visible,
      mirrors.plain.wantsRefresh]
    rcases age with ⟨outlived, absent⟩ | ⟨dated, young, present, rfl, written⟩
    · exact .inl ⟨Reference.find?_eq_none.mpr absent, by simp only [outlived, ↓reduceIte]⟩
    · have noted := mirrors.consistent.noteRead live now
      have log := noted.readLog
      simp only [readLogAfter, room, and_true] at log
      refine .inr ⟨dated.value, s.noteRead handle now, by rw [Reference.find?, present, Option.map_some],
        by simp [young], mirrors.used idle live same ready written present noted rfl rfl ?_ ?_ ?_, ?_⟩
      · rw [dueOrder, noted.ordered, log, dueOrder]
        split
        · exact replayedOrder_push s.readLog _ handle
        · rfl
      · exact congrFun noted.ordered .write
      · intro unset
        have tracks : s.policy.tracksReads = false := by rw [mirrors.plain.tracksReads, unset]; rfl
        rw [log, tracks]
        exact mirrors.untracked unset
      · rw [log]
        split
        · exact (Array.size_push _).le
        · exact Nat.le_succ _

theorem contains (mirrors : s.Mirrors hash limits reference loads now) (idle : loads key = none) (reach : Reach) :
    s.contains reach now (hash key) key = (reference.find? limits now key).isSome := by
  unfold Segment.contains
  rcases mirrors.look reach idle
    with ⟨missing, _, absent⟩ | ⟨handle, entry, value, found, live, same, ready, age⟩
  · rw [missing, Reference.find?_eq_none.mpr absent]
    rfl
  · have counted : entry.isReserved = false := by rw [Entry.isReserved, ready]
    simp only [found, Option.any_some, counted, Bool.not_false, Bool.true_and,
      mirrors.plain.stale?_eq reach now counted]
    rcases age with ⟨outlived, absent⟩ | ⟨dated, young, present, _⟩
    · simp [outlived, Reference.find?_eq_none.mpr absent]
    · simp [young, Reference.find?, present]

theorem mem_toList (mirrors : s.Mirrors hash limits reference loads now) (idle : ∀ key, loads key = none)
    (reach : Reach) (key : K) (value : Shared V) :
    (∃ object, (object, value) ∈ s.toList reach now ∧ object.data = key) ↔
      reference.find? limits now key = some value := by
  have listed (object : Shared K) : (object, value) ∈ s.toList reach now ↔
      ∃ handle entry, s.entry? handle = some entry ∧ entry.key = object ∧ entry.content = .ready value ∧
        s.policy.isExpired now entry = false := by
    simp only [Segment.toList, List.mem_filterMap, Prod.exists, mem_stored]
    refine exists_congr fun handle => exists_congr fun entry => and_congr_right fun live => ?_
    have matched := mirrors.holds entry.key.data
    rw [idle, mirrors.under_found live] at matched
    obtain ⟨value', ready⟩ : ∃ value, entry.content = .ready value := matched.ready
    have counted : entry.isReserved = false := by rw [Entry.isReserved, ready]
    have visible : entry.visible? = some value' := by rw [Entry.visible?, ready]
    have reached : s.policy.key? reach entry = some entry.key := by
      simp [Policy.key?, mirrors.plain.keys, Strength.reaches]
    simp only [mirrors.plain.stale?_eq reach now counted, mirrors.plain.value?_eq, visible, reached, ready]
    cases s.policy.isExpired now entry <;> simp
  simp only [listed]
  constructor
  · rintro ⟨object, ⟨handle, entry, live, rfl, ready, young⟩, rfl⟩
    rw [mirrors.isExpired_eq] at young
    have matched := mirrors.holds entry.key.data
    rw [mirrors.under_found live] at matched
    obtain ⟨dated, present, content, _⟩ :=
      matched.fresh (by rw [Entry.isReserved_bare, Entry.isReserved, ready]) young
    rw [Entry.content_bare, ready] at content
    cases content
    exact Option.map_eq_some_iff.mpr ⟨dated, present, rfl⟩
  · intro found
    obtain ⟨dated, present, rfl⟩ := Option.map_eq_some_iff.mp found
    rcases mirrors.look reach (idle key) with ⟨_, _, absent⟩ | ⟨handle, entry, value, _, live, same, ready, age⟩
    · cases absent.symm.trans present
    · rcases age with ⟨_, absent⟩ | ⟨dated', young, present', rfl, _⟩
      · cases absent.symm.trans present
      · cases present.symm.trans present'
        exact ⟨entry.key, ⟨handle, entry, live, rfl, ready, young⟩, same⟩

theorem look_swept (mirrors : s.Mirrors hash limits reference loads now) (swept : s.Swept now) (reach : Reach)
    (idle : loads key = none) :
    (s.find? reach (hash key) key = none ∧ s.under key = none ∧ reference.present? limits now key = none) ∨
      ∃ handle entry dated, s.find? reach (hash key) key = some (handle, entry) ∧ s.entry? handle = some entry ∧
        entry.key.data = key ∧ entry.content = .ready dated.value ∧ entry.written = dated.written ∧
        s.policy.stale? reach now entry = none ∧ reference.present? limits now key = some dated := by
  rcases mirrors.look reach idle with missing | ⟨handle, entry, value, found, live, same, ready, age⟩
  · exact .inl missing
  · have counted : entry.isReserved = false := by rw [Entry.isReserved, ready]
    have young : s.policy.isExpired now entry = false := swept.fresh handle entry.bare (bare?_of_found live) counted
    rcases age with ⟨outlived, _⟩ | ⟨dated, _, present, rfl, written⟩
    · cases young.symm.trans outlived
    · refine .inr ⟨handle, entry, dated, found, live, same, ready, written, ?_, present⟩
      rw [mirrors.plain.stale?_eq reach now counted, young]
      rfl

theorem stored (mirrors : s.Mirrors hash limits reference loads now) (empty : s.readLog = #[])
    {before : Option (Entry K V)} {record : Entry K V} {ledger : Ledger K V} {value : Shared V}
    (transition : Transition s s' handle before (some record) ledger) (policy : ledger.policy = s.policy)
    (bound : ledger.bound = s.bound) (readLog : ledger.readLog = s.readLog)
    (ends : ∀ ranking, ∃ earlier, ledger.ordered ranking = earlier ++ [handle] ∧
      earlier.Sublist (s.ordered ranking) ∧
      handle ∉ earlier)
    (own : ∀ old, before = some old → old.key.data = key ∧ record.key = old.key)
    (only : before = none → s.under key = none) (same : record.key.data = key) (hashed : record.hash = hash key)
    (ready : record.content = .ready value) (times : ∀ ranking, record.stamp ranking = now)
    {loads' : K → Option LoadId}
    (others : ∀ other, other ≠ key → loads' other = loads other) (done : loads' key = none) :
    s'.Mirrors hash limits (reference.store key value now) loads' now ∧ s'.readLog = #[] := by
  have log : s'.readLog = #[] := transition.readLog.trans (readLog.trans empty)
  have sorted : s'.Sorted := by
    apply mirrors.sorted.change transition
    intro ranking
    obtain ⟨earlier, order, sublist, apart⟩ := ends ranking
    refine .inr ⟨earlier, ?_, ?_, apart, fun other old found => ?_⟩
    · rw [dueOrder_of_empty log, transition.ordered, order]
    · rwa [dueOrder_of_empty empty]
    · rw [times]
      exact mirrors.past other old found ranking
  refine ⟨?_, log⟩
  apply mirrors.change key transition policy bound (fun old found => (own old found).1) _ _ only sorted _
    (fun _ => log)
  · intro other different
    exact ⟨Function.update_of_ne different _ _, others other different⟩
  · rw [Reference.store, Function.update_self, done]
    exact .same ready (times .write) fun _ => times .access
  · rintro _ ⟨⟩
    exact ⟨same, hashed⟩
  · rintro old _ found ⟨⟩
    exact (own old found).2
  · rintro _ ⟨⟩ ranking
    exact (times ranking).le

theorem insert (mirrors : s.Mirrors hash limits reference loads now) (reach : Reach) {key : Shared K}
    (idle : loads key.data = none) (value : Shared V) (onlyIfNew : Bool) :
    ∃ t, s.insert reach now key (hash key.data) value onlyIfNew = (reference.find? limits now key.data, t) ∧
      t.Mirrors hash limits
        (bif onlyIfNew && (reference.find? limits now key.data).isSome then reference.touch limits now key.data
          else reference.store key.data value now) loads now ∧ t.readLog = #[] := by
  obtain ⟨prepared, swept⟩ := mirrors.prepare reach
  have unbounded := prepared.plain.unbounded
  unfold Segment.insert
  generalize s.prepare reach now = t at *
  rcases prepared.look_swept swept reach idle with
    ⟨missing, under, absent⟩ | ⟨handle, entry, dated, found, live, same, ready, written, stale, present⟩
  · have added := prepared.consistent.add key (hash key.data) value (t.policy.weigh key.data value.data) now
    have outside := prepared.consistent.toLinked.outside added.differ.before
    have unbounded' := (congrArg Bound.isBounded added.bound).trans unbounded
    simp only [missing, Reference.find?_eq_none.mpr absent, Option.isSome_none, Bool.and_false, cond_false,
      insertNew, evict_of_unbounded unbounded']
    refine ⟨_, rfl, prepared.stored swept.readLog added rfl rfl rfl (fun ranking => ?_) (by rintro _ ⟨⟩)
      (fun _ => under) rfl rfl rfl (fun ranking => by cases ranking <;> rfl) (fun _ _ => rfl) idle⟩
    exact ⟨t.ordered ranking, rfl, List.Sublist.refl _, outside ranking⟩
  · have visible : entry.visible? = some dated.value := by rw [Entry.visible?, ready]
    have counted : entry.isReserved = false := by rw [Entry.isReserved, ready]
    have found? : reference.find? limits now key.data = some dated.value := by
      rw [Reference.find?, present, Option.map_some]
    simp only [found, stale, visible, found?, Option.isSome_some, Bool.and_true]
    cases onlyIfNew with
    | true =>
        have used := prepared.consistent.use live now
        have log : (t.use handle now).readLog = #[] := used.readLog.trans swept.readLog
        refine ⟨_, rfl, prepared.used idle live same ready written present used rfl rfl ?_ ?_ fun _ => log, log⟩
        · rw [dueOrder_of_empty log, dueOrder_of_empty swept.readLog, used.ordered]
          simp only [orderedAfterUse]
          split
          · exact Function.update_self ..
          · rfl
        · rw [dueOrder_of_empty log, dueOrder_of_empty swept.readLog, used.ordered]
          simp only [orderedAfterUse]
          split
          · exact Function.update_of_ne (by decide) ..
          · rfl
    | false =>
        obtain ⟨u, renewed, stored⟩ := prepared.consistent.overwrite live visible reach now key value
          (t.policy.weigh key.data value.data)
        have unbounded' : u.bound.isBounded = false := (congrArg Bound.isBounded renewed.bound).trans unbounded
        simp only [Bool.false_eq_true, ↓reduceIte, stored, evict_of_unbounded unbounded', cond_false]
        refine ⟨_, rfl, prepared.stored swept.readLog renewed rfl rfl rfl
          (fun ranking => ?_) ?_ (by rintro ⟨⟩) same
          ((prepared.hashed live).trans (congrArg hash same)) rfl (fun ranking => by cases ranking <;> rfl)
            (fun _ _ => rfl) idle⟩
        · have member : handle ∈ t.ordered ranking :=
            (prepared.consistent.mem_ordered ranking handle).mpr ⟨entry, live, counted⟩
          refine ⟨(t.ordered ranking).erase handle, ?_, List.erase_sublist, ?_⟩
          · simp only [overwrittenLedger, LinkedQueue.movedToEnd, if_pos member]
          · exact (prepared.consistent.queued ranking).nodup.not_mem_erase
        · rintro _ ⟨⟩
          exact ⟨same, rfl⟩

theorem left (mirrors : s.Mirrors hash limits reference loads now) (empty : s.readLog = #[]) {entry : Entry K V}
    (live : s.entry? handle = some entry) (reach : Reach) (cause : Cause) {reference' : Reference K V}
    {loads' : K → Option LoadId}
    (others : ∀ other, other ≠ entry.key.data → reference' other = reference other ∧ loads' other = loads other)
    (matched : Matches (K := K) limits now (reference' entry.key.data) (loads' entry.key.data) none) :
    (s.discard reach handle cause).Mirrors hash limits reference' loads' now ∧
      (s.discard reach handle cause).readLog = #[] := by
  have discarded := mirrors.consistent.discard live reach cause
  have log : (s.discard reach handle cause).readLog = #[] := discarded.readLog.trans empty
  refine ⟨?_, log⟩
  apply mirrors.change entry.key.data discarded rfl rfl _ nofun nofun nofun
    (mirrors.sorted.erase mirrors.consistent discarded rfl rfl) nofun (fun _ => log) others matched
  rintro _ ⟨⟩
  rfl

theorem remove (mirrors : s.Mirrors hash limits reference loads now) (reach : Reach) (idle : loads key = none) :
    ∃ t, s.remove reach now (hash key) key = (reference.find? limits now key, t) ∧
      t.Mirrors hash limits (reference.drop key) loads now ∧ t.readLog = #[] := by
  obtain ⟨prepared, swept⟩ := mirrors.prepare reach
  unfold Segment.remove
  generalize s.prepare reach now = t at *
  have nothing : Matches (K := K) (V := V) limits now (reference.drop key key) (loads key) none := by
    rw [idle, Reference.drop, Function.update_self]
    exact .gone rfl
  have others (other : K) (different : other ≠ key) : reference.drop key other = reference other :=
    Function.update_of_ne different ..
  rcases prepared.look_swept swept reach idle with
    ⟨missing, under, absent⟩ | ⟨handle, entry, dated, found, live, same, ready, written, stale, present⟩
  · simp only [missing, Reference.find?_eq_none.mpr absent]
    refine ⟨_, rfl, { prepared with holds := fun other => ?_ }, swept.readLog⟩
    by_cases here : other = key
    · rw [here, under]
      exact nothing
    · rw [others other here]
      exact prepared.holds other
  · have visible : entry.visible? = some dated.value := by rw [Entry.visible?, ready]
    simp only [found, prepared.plain.isLost, Bool.false_eq_true, ↓reduceIte, prepared.plain.value?_eq, visible,
      Reference.find?, present, Option.map_some]
    subst same
    exact ⟨_, rfl, prepared.left swept.readLog live reach .explicit
      (fun other different => ⟨others other different, rfl⟩) nothing⟩

theorem clear (mirrors : s.Mirrors hash limits reference loads now) (idle : ∀ key, loads key = none) (reach : Reach) :
    (s.clear reach).Mirrors hash limits (fun _ => none) loads now ∧
    (s.clear reach).readLog.size ≤ s.readLog.size := by
  obtain ⟨t, purge, cleared, gone⟩ := mirrors.consistent.clear reach
  have consistent := purge.consistent mirrors.consistent
  have plain : t.policy.Plain limits t.bound := by
    rw [purge.policy mirrors.consistent, purge.bound mirrors.consistent]
    exact mirrors.plain
  have emptied {u : Segment K V} (consistent : u.Consistent) (plain : u.policy.Plain limits u.bound)
      (gone : ∀ handle, u.bare? handle = none) (untracked : limits.afterAccess = none → u.readLog = #[]) :
      u.Mirrors hash limits (fun _ => none) loads now := by
    have nothing (ranking : Ranking) : u.dueOrder ranking = [] := by
      rw [List.eq_nil_iff_forall_not_mem]
      intro handle member
      rw [mem_dueOrder, consistent.mem_ordered] at member
      obtain ⟨entry, live, _⟩ := member
      cases (gone handle).symm.trans (bare?_of_found live)
    refine ⟨consistent, fun other => ⟨?_, ?_⟩, plain, ?_, ?_, untracked, fun key => ?_⟩
    · intro handle record found
      cases (gone handle).symm.trans found
    · rintro key first second ⟨record, found, _⟩
      cases (gone first).symm.trans found
    · intro ranking
      rw [nothing]
      exact .nil
    · intro handle record found
      cases (gone handle).symm.trans found
    · cases under : u.under key with
      | none =>
          rw [idle]
          exact .gone rfl
      | some record =>
          obtain ⟨handle, found, _⟩ := found_of_under under
          cases (gone handle).symm.trans found
  rcases cleared with same | forgotten
  · rw [same]
    refine ⟨emptied consistent plain gone fun unset =>
      purge.readLog mirrors.consistent (mirrors.untracked unset), ?_⟩
    rcases purge.readLog_eq mirrors.consistent with none | kept
    · rw [none]
      exact Nat.zero_le _
    · rw [kept]
  · rw [forgotten]
    have rebooked := consistent.forgetReads
    exact ⟨emptied rebooked.consistent plain (fun handle => (rebooked.bare? handle).trans (gone handle)) fun _ => rfl,
      Nat.zero_le _⟩

theorem claim (mirrors : s.Mirrors hash limits reference loads now) (reach : Reach) (thread : ThreadId) {key : Shared K}
    (idle : loads key.data = none) (missing : reference.find? limits now key.data = none) :
    ∃ load t, s.claim reach now thread key (hash key.data) = (.granted load, t) ∧
      t.Mirrors hash limits reference (Function.update loads key.data (some load)) now ∧ t.readLog = #[] := by
  obtain ⟨prepared, swept⟩ := mirrors.prepare reach
  unfold Segment.claim
  generalize s.prepare reach now = t at *
  have absent := Reference.find?_eq_none.mp missing
  rcases prepared.look_swept swept reach idle with ⟨none, under, _⟩ | ⟨_, _, _, _, _, _, _, _, _, present⟩
  · obtain ⟨handle, granted⟩ := prepared.consistent.grant now thread key (hash key.data)
    have log : (t.grant now thread key (hash key.data)).2.readLog = #[] := granted.readLog.trans swept.readLog
    simp only [none]
    refine ⟨t.loads.size, _, rfl, ?_, log⟩
    have sorted : (t.grant now thread key (hash key.data)).2.Sorted := by
      apply prepared.sorted.change granted
      intro ranking
      refine .inl ⟨?_, fun member => ?_⟩
      · rw [dueOrder_of_empty log, dueOrder_of_empty swept.readLog, granted.ordered]
        rfl
      · rw [mem_dueOrder] at member
        exact absurd member (prepared.consistent.toLinked.outside granted.differ.before ranking)
    apply prepared.change key.data granted rfl rfl nofun _ nofun (fun _ => under) sorted _ fun _ => log
    · intro other different
      exact ⟨rfl, Function.update_of_ne different ..⟩
    · rw [Function.update_self]
      exact .awaited absent rfl
    · rintro _ ⟨⟩
      exact ⟨rfl, rfl⟩
    · rintro _ ⟨⟩ ranking
      cases ranking <;> exact le_rfl
  · cases absent.symm.trans present

theorem look_awaited (mirrors : s.Mirrors hash limits reference loads now) (reach : Reach) {load : LoadId}
    (awaited : loads key = some load) :
    reference.present? limits now key = none ∧
      ∃ handle entry, s.find? reach (hash key) key = some (handle, entry) ∧
      s.entry? handle = some entry ∧ entry.key.data = key ∧ entry.content = .loading load none := by
  have matched := mirrors.holds key
  rw [awaited] at matched
  rcases mirrors.find?_cases reach key with ⟨missing, under⟩ | ⟨handle, entry, found, live, same, under⟩
  · rw [under] at matched
    cases matched.missing.2
  · rw [under] at matched
    obtain ⟨absent, reserved⟩ := matched.reserved
    exact ⟨absent, handle, entry, found, live, same, reserved⟩

theorem finishLoad (mirrors : s.Mirrors hash limits reference loads now) (reach : Reach) {key : Shared K}
    {load : LoadId} (awaited : loads key.data = some load) (loaded : Option (Shared V)) :
    (s.finishLoad reach now key (hash key.data) load loaded).Mirrors hash limits
        (loaded.elim reference fun value => reference.store key.data value now)
        (Function.update loads key.data none) now ∧
      (s.finishLoad reach now key (hash key.data) load loaded).readLog = #[] := by
  obtain ⟨prepared, swept⟩ := mirrors.prepare reach
  have unbounded := prepared.plain.unbounded
  have finishing := s.finishing reach now key (hash key.data) load loaded
  generalize s.prepare reach now = t at *
  generalize s.finishLoad reach now key (hash key.data) load loaded = t' at finishing ⊢
  -- The load is the one that the map is waiting for, so the segment finds it and cannot drop what it loaded.
  obtain ⟨absent, handle, entry, found, live, same, reserved⟩ := prepared.look_awaited reach awaited
  have visible : entry.visible? = none := by rw [Entry.visible?, reserved]
  have own : entry.load? = some load := by rw [Entry.load?, reserved]
  have others (other : K) (different : other ≠ key.data) : Function.update loads key.data none other = loads other :=
    Function.update_of_ne different ..
  cases finishing with
  | dropped gone => exact absurd own (gone handle entry found)
  | reported gone => exact absurd own (gone handle entry found)
  | forgone located =>
      cases found.symm.trans located
      simp only [giveUp, visible, Option.elim_none]
      rw [← same] at others absent ⊢
      refine prepared.left swept.readLog live reach .explicit
        (fun other different => ⟨rfl, others other different⟩) ?_
      rw [Function.update_self]
      exact .gone absent
  | @stored _ _ value located =>
      cases found.symm.trans located
      obtain ⟨u, filled, stored⟩ := prepared.consistent.storeLoaded_reserved live visible reach now key value
      have unbounded' : u.bound.isBounded = false := (congrArg Bound.isBounded filled.bound).trans unbounded
      simp only [stored, evict_of_unbounded unbounded', Option.elim_some]
      refine prepared.stored swept.readLog filled rfl rfl rfl (fun ranking => ?_) ?_ (by rintro ⟨⟩) same
        ((prepared.hashed live).trans (congrArg hash same)) rfl (fun ranking => by cases ranking <;> rfl) others
        (Function.update_self ..)
      · refine ⟨t.ordered ranking, rfl, List.Sublist.refl _, ?_⟩
        rw [prepared.consistent.mem_ordered]
        rintro ⟨entry', live', counted⟩
        cases live.symm.trans live'
        rw [Entry.isReserved, reserved] at counted
        cases counted
      · rintro _ ⟨⟩
        exact ⟨same, rfl⟩

end Mirrors
end Segment
end SegmentedCache
