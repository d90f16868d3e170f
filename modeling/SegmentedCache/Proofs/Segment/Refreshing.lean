import SegmentedCache.Proofs.Segment.KeptLoads
import SegmentedCache.Proofs.Segment.Weights

namespace SegmentedCache

/-!
Refreshes. An entry that is being refreshed is loading for whoever would start a load, and live for everybody else.
As long as the refresh is on its way to it, readers are given the old value, and that keeps its weight, its time and
its place in the order of writes.
-/

variable {K V : Type}

def Operation.target? : Operation K V → Option K
  | .insert key _ _ | .finishLoad key _ (some _) => some key.data
  | _ => none

namespace Segment

variable {s s' : Segment K V} {handle : Handle} {hash : K → UInt64} {reach reach' : Reach} {now : Nat}
  {ended ended' : LoadId → Prop} {record : Entry K V} {id : LoadId} {value : Shared V}

def ahead (s : Segment K V) (handle : Handle) : List Handle :=
  (s.ordered .write).takeWhile (· ≠ handle)

theorem takeWhile_ne_sublist {list list' : List Handle} (sublist : list'.Sublist list) (nodup : list.Nodup)
    (member : handle ∈ list') : (list'.takeWhile (· ≠ handle)).Sublist (list.takeWhile (· ≠ handle)) := by
  induction sublist with
  | slnil => exact .slnil
  | @cons shorter longer first sublist ih =>
      rw [List.nodup_cons] at nodup
      have other : first ≠ handle := by
        rintro rfl
        exact nodup.1 (sublist.subset member)
      rw [List.takeWhile_cons_of_pos (by simpa using other)]
      exact (ih nodup.2 member).cons _
  | @cons_cons shorter longer first sublist ih =>
      by_cases same : first = handle
      · simp [same]
      · have inside : handle ∈ shorter := by simpa [Ne.symm same] using member
        rw [List.takeWhile_cons_of_pos (by simpa using same), List.takeWhile_cons_of_pos (by simpa using same)]
        exact (ih (List.nodup_cons.mp nodup).2 inside).cons_cons _

theorem Consistent.ahead_sublist (consistent : s.Consistent) {rest tail : List Handle}
    (order : s'.ordered .write = rest ++ tail) (sublist : rest.Sublist (s.ordered .write)) (member : handle ∈ rest) :
    (s'.ahead handle).Sublist (s.ahead handle) := by
  have short : (rest ++ tail).takeWhile (· ≠ handle) = rest.takeWhile (· ≠ handle) := by
    rw [List.takeWhile_append, if_neg]
    intro whole
    have all := (List.takeWhile_prefix _).eq_of_length whole
    rw [← all] at member
    simpa using List.mem_takeWhile_imp member
  rw [ahead, order, short]
  exact takeWhile_ne_sublist sublist (consistent.queued .write).nodup member

theorem Consistent.mem_byWrite (consistent : s.Consistent) (found : s.bare? handle = some record)
    (counted : record.isReserved = false) : handle ∈ s.ordered .write := by
  obtain ⟨entry, live, rfl⟩ := bare?_eq_some.mp found
  exact (consistent.mem_ordered .write handle).mpr ⟨entry, live, counted⟩

theorem Purge.ahead {allowed : Entry K V → Cause → Prop} (purge : Purge reach allowed s s')
    (consistent : s.Consistent) (left : s'.bare? handle = some record) (counted : record.isReserved = false) :
    (s'.ahead handle).Sublist (s.ahead handle) := by
  have order : s'.ordered .write = (s.ordered .write).filter fun handle => (s'.bare? handle).isSome :=
    purge.dueOrder consistent .write
  apply consistent.ahead_sublist (order.trans (List.append_nil _).symm) List.filter_sublist
  rw [List.mem_filter, left, Option.isSome_some]
  exact ⟨consistent.mem_byWrite (purge.bare? consistent left) counted, rfl⟩

section Runs

variable [DecidableEq K] {op : Operation K V} {accepted : List (K × Shared V)} {before : Prop}

theorem Act.ahead (act : Act hash reach now before op accepted s s') (consistent : s.Consistent)
    (found : s.bare? handle = some record) (counted : record.isReserved = false) (held : record.load? = some id)
    {time : Nat} (left : s'.bare? handle = some (record.touch time)) : (s'.ahead handle).Sublist (s.ahead handle) := by
  have inside := consistent.mem_byWrite found counted
  have still (same : s'.ordered .write = s.ordered .write) : (s'.ahead handle).Sublist (s.ahead handle) :=
    consistent.ahead_sublist (same.trans (List.append_nil _).symm) (List.Sublist.refl _) inside
  have elsewhere {changed : Handle} {old after : Option (Entry K V)} (differ : Differ s s' changed old after)
      (idle : after.bind Entry.load? ≠ some id) : handle ≠ changed := by
    rintro rfl
    rw [← differ.after, left] at idle
    exact idle held
  cases act with
  | idle | dropped => exact List.Sublist.refl _
  | used _ byWrite transition => exact still ((congrFun transition.ordered .write).trans byWrite)
  | granted _ _ transition | renewing _ _ transition | reverted _ _ _ transition =>
      exact still (congrFun transition.ordered .write)
  | added _ _ transition | filled _ _ _ transition =>
      exact consistent.ahead_sublist (congrFun transition.ordered .write) (List.Sublist.refl _) inside
  | @overwritten _ _ _ changed _ _ _ _ _ _ _ _ _ transition =>
      have order : s'.ordered .write = LinkedQueue.movedToEnd (s.ordered .write) changed :=
        congrFun transition.ordered .write
      unfold LinkedQueue.movedToEnd at order
      split at order
      · exact consistent.ahead_sublist order List.erase_sublist
          ((List.mem_erase_of_ne (elsewhere transition.differ nofun)).mpr inside)
      · exact still order
  | abandoned _ _ _ transition =>
      exact consistent.ahead_sublist ((congrFun transition.ordered .write).trans (List.append_nil _).symm)
        List.erase_sublist ((List.mem_erase_of_ne (elsewhere transition.differ nofun)).mpr inside)
  | reported _ _ rebooked | forgot rebooked => exact still (congrFun rebooked.ordered .write)

theorem Runs.keeps (runs : Runs hash reach now op accepted s s') (consistent : s.Consistent)
    (keyed : s.Keyed hash reach) (flights : Flights ended reach s) (fits : op.Fits ended reach s)
    (found : s.bare? handle = some record) (counted : record.isReserved = false) (held : record.load? = some id)
    (running : op.ends? ≠ some id) (undisplaced : ∀ cause, ¬ s'.Learnt id cause) :
    (∃ time, s'.bare? handle = some (record.touch time)) ∧ (s'.ahead handle).Sublist (s.ahead handle) := by
  obtain ⟨before, after, first, act, last⟩ := runs.parts
  have consistent' := first.consistent consistent
  have consistent'' := act.consistent consistent'
  have flights' := first.flights consistent flights
  have acted := act.flights keyed (before.policy.honours_self reach) consistent' (first.keyed consistent keyed) flights'
    (fits.later (first.later consistent))
  rcases first.fate consistent flights found held with found' | ⟨cause, learnt, _⟩
  · rcases act.fate flights' found' held running with ⟨time, found''⟩ | ⟨learnt, _⟩
    · rcases last.fate consistent'' acted found'' held with left | ⟨cause, learnt, _⟩
      · exact ⟨⟨time, left⟩, ((last.ahead consistent'' left counted).trans
          (act.ahead consistent' found' counted held found'')).trans (first.ahead consistent found' counted)⟩
      · exact absurd learnt (undisplaced cause)
    · exact absurd (learnt.later (last.later consistent'')) (undisplaced _)
  · exact absurd (learnt.later (act.later.trans (last.later consistent''))) (undisplaced cause)

end Runs

section Refresh

variable [DecidableEq K] {policy : Policy K V} {bound : Bound} {exponent : Nat} {key : Shared K}

theorem Onwards.keeps (onwards : Onwards hash reach ended s reach' ended' s')
    (attended : Attended hash policy bound exponent reach ended s) (found : s.bare? handle = some record)
    (counted : record.isReserved = false) (held : record.load? = some id) (running : ¬ ended' id)
    (undisplaced : ∀ cause, ¬ s'.Learnt id cause) :
    (∃ time, s'.bare? handle = some (record.touch time)) ∧ (s'.ahead handle).Sublist (s.ahead handle) := by
  induction onwards with
  | here => exact ⟨⟨record.accessed, found⟩, List.Sublist.refl _⟩
  | @run reach' ended' s' onwards now op fits ih =>
      obtain ⟨consistent, keyed, flights⟩ := (attended.onwards onwards).1.invariant
      have runs := consistent.runs hash reach' now op
      obtain ⟨⟨time, found'⟩, place⟩ := ih (fun ceased => running (.inl ceased)) fun cause learnt =>
        undisplaced cause (learnt.later (runs.later consistent))
      obtain ⟨left, place'⟩ := runs.keeps consistent keyed flights fits found' counted held
        (fun ends => running (.inr ends)) undisplaced
      exact ⟨left, place'.trans place⟩
  | release _ _ _ ih => exact ih running undisplaced

/-- What becomes of requests for a key while the refresh `id` is on its way to its entry. -/
structure Serves (hash : K → UInt64) (reach : Reach) (s : Segment K V) (handle : Handle) (id : LoadId)
    (value : Shared V) (record : Entry K V) : Prop where
  read : ∀ now, s.policy.stale? reach now record = none →
    (s.read reach now (hash record.key.data) record.key.data).1 = .live value false
  putIfNew : ∀ now (key : Shared K) other, key.data = record.key.data → s.policy.stale? reach now record = none →
    (s.insert reach now key (hash key.data) other true).1 = some value ∧
      (∃ time, (s.insert reach now key (hash key.data) other true).2.bare? handle = some (record.touch time)) ∧
      ∀ cause, ¬ (s.insert reach now key (hash key.data) other true).2.Learnt id cause
  claim : ∀ now thread (key : Shared K), key.data = record.key.data → s.policy.stale? reach now record = none →
    (s.claim reach now thread key (hash key.data)).1 = .needless value
  claimRefresh : ∀ now thread (key : Shared K) force, key.data = record.key.data →
    s.claimRefresh reach now thread key (hash key.data) force = (none, s)

theorem Flights.serves (flights : Flights ended reach s) (consistent : s.Consistent) (keyed : s.Keyed hash reach)
    (strong : s.policy.isStrong = true) (found : s.bare? handle = some record)
    (content : record.content = .loading id (some value)) : Serves hash reach s handle id value record := by
  have reached {t : Segment K V} (policy : t.policy = s.policy) (object : Shared K) :
      t.policy.keyStrength.reaches reach object = true := by
    rw [policy, strong_keys strong]
    rfl
  have visible : record.visible? = some value := by rw [Entry.visible?, content]
  have purge (now : Nat) := consistent.prepare reach now
  have policy (now : Nat) : (s.prepare reach now).policy = s.policy := (purge now).policy consistent
  have consistent' (now : Nat) := (purge now).consistent consistent
  -- the sweep before a write spares the entry
  have swept (now : Nat) (key : Shared K) (same : key.data = record.key.data)
      (fresh : s.policy.stale? reach now record = none) :
      ∃ entry, Segment.entry? (s.prepare reach now) handle = some entry ∧ entry.bare = record ∧
        (s.prepare reach now).find? reach (hash key.data) key.data = some (handle, entry) := by
    have left := consistent.prepare_bare?.mpr
      ⟨found, Policy.isLost_of_strong strong reach record, sheltered_of_fresh found fresh⟩
    obtain ⟨entry, live, rfl⟩ := bare?_eq_some.mp left
    exact ⟨entry, live, rfl, ((purge now).keyed consistent keyed).find?_eq (consistent' now).toLinked live
      (reached (policy now) _) same.symm⟩
  constructor
  · intro now fresh
    obtain ⟨entry, live, rfl⟩ := bare?_eq_some.mp found
    have located := keyed.find?_eq consistent.toLinked live (reached rfl _) rfl
    have content : entry.content = .loading id (some value) := content
    have fresh : s.policy.stale? reach now entry = none := fresh
    have busy : s.policy.wantsRefresh now entry = false := by simp [Policy.wantsRefresh, Entry.isReady, content]
    simp [Segment.read, located, content, fresh, Policy.value?_of_stale? fresh visible, busy]
  · intro now key other same fresh
    obtain ⟨entry, live, rfl, located⟩ := swept now key same fresh
    have visible : entry.visible? = some value := visible
    have inserted :
        s.insert reach now key (hash key.data) other true = (some value, (s.prepare reach now).use handle now) := by
      simp only [Segment.insert, located, policy now, show s.policy.stale? reach now entry = none from fresh, visible,
        ↓reduceIte]
    have used := (consistent' now).use live now
    rw [inserted]
    refine ⟨rfl, ?_, fun cause learnt => ?_⟩
    · rw [used.differ.after, Policy.used]
      split
      · exact ⟨now, rfl⟩
      · exact ⟨entry.accessed, rfl⟩
    · have held : entry.load? = some id := by rw [Entry.load?, show entry.content = _ from content]
      obtain ⟨load, issued, known⟩ := learnt
      rw [used.loads] at issued
      exact ((purge now).flights consistent flights).none_of_learnt ⟨load, issued, known⟩ (bare?_of_found live) held
  · intro now thread key same fresh
    obtain ⟨entry, live, rfl, located⟩ := swept now key same fresh
    have content : entry.content = .loading id (some value) := content
    have fresh : s.policy.stale? reach now entry = none := fresh
    simp only [Segment.claim, located, policy now, fresh, content, Policy.value?_of_stale? fresh visible]
  · intro now thread key force same
    obtain ⟨entry, live, rfl⟩ := bare?_eq_some.mp found
    have located := keyed.find?_eq consistent.toLinked live (reached rfl _) same.symm
    have content : entry.content = .loading id (some value) := content
    simp [Segment.claimRefresh, located, content]

/-- The states that operations lead to if those that may store under a key do not read the clock before `start`. -/
inductive Continues (hash : K → UInt64) (key : K) (start : Nat) (s : Segment K V) : Segment K V → Prop where
  | here : Continues hash key start s s
  | run {s' : Segment K V} (continues : Continues hash key start s s') (reach : Reach) (now : Nat) (op : Operation K V)
      (timely : op.target? = some key → start ≤ now) : Continues hash key start s (op.run hash reach now s')

def WrittenSince (s : Segment K V) (key : K) (start : Nat) : Prop :=
  ∀ handle record, s.bare? handle = some record → record.key.data = key → record.isReserved = false →
    start ≤ record.written

omit [DecidableEq K] in
theorem Differ.writtenSince {start : Nat} {key : K} {before after : Option (Entry K V)}
    (differ : Differ s s' handle before after) (since : s.WrittenSince key start)
    (kept : ∀ record, after = some record → record.key.data = key → record.isReserved = false →
      start ≤ record.written) : s'.WrittenSince key start := by
  intro other record found same counted
  rw [differ.bare?] at found
  split at found
  · exact kept record found same counted
  · exact since other record found same counted

theorem Act.writtenSince {start : Nat} {key : K} {op : Operation K V} {accepted : List (K × Shared V)} {before : Prop}
    (act : Act hash reach now before op accepted s s') (timely : op.target? = some key → start ≤ now)
    (since : s.WrittenSince key start) : s'.WrittenSince key start := by
  have stays {changed : Handle} {old after : Entry K V} (differ : Differ s s' changed (some old) (some after))
      (key_eq : after.key = old.key) (reserved : after.isReserved = old.isReserved)
      (written : after.written = old.written) :
      s'.WrittenSince key start := by
    refine differ.writtenSince since ?_
    rintro _ ⟨⟩ same counted
    rw [written]
    exact since changed old differ.before (key_eq ▸ same) (reserved ▸ counted)
  have stored {changed : Handle} {own : Shared K} {entry : Entry K V} {old : Option (Entry K V)} {weight : Nat}
      {value : Shared V} (writes : op.target? = some own.data) (same : entry.key.data = own.data)
      (differ : Differ s s' changed old (some (entry.store value weight now).bare)) : s'.WrittenSince key start := by
    refine differ.writtenSince since ?_
    rintro _ ⟨⟩ same' _
    exact timely (writes.trans (congrArg some (same.symm.trans same')))
  cases act with
  | idle | dropped => exact since
  | @used _ _ _ changed entry _ _ _ _ transition =>
      have kept : (s.policy.used now entry).key = entry.key ∧
        (s.policy.used now entry).isReserved = entry.isReserved ∧
          (s.policy.used now entry).written = entry.written := by
        unfold Policy.used
        split <;> exact ⟨rfl, rfl, rfl⟩
      exact stays transition.differ kept.1 kept.2.1 kept.2.2
  | granted _ _ transition =>
      refine transition.differ.writtenSince since ?_
      rintro _ ⟨⟩ _ ⟨⟩
  | renewing _ ready transition =>
      exact stays transition.differ rfl
        (by simp [Entry.isReserved, Entry.bare, Entry.setNext, Entry.setContent, ready]) rfl
  | added _ _ transition =>
      refine transition.differ.writtenSince since ?_
      rintro _ ⟨⟩ same _
      exact timely (congrArg some same)
  | filled writes found _ transition | overwritten writes found _ transition =>
      cases writes with
      | insert => exact stored rfl (find?_eq_some found).2.2 transition.differ
      | finishLoad => exact stored rfl (find?_eq_some found).2.2 transition.differ
  | @reverted _ _ _ entry _ _ old _ _ counted transition =>
      refine stays transition.differ rfl ?_ rfl
      exact (Entry.isReserved_eq_false.mpr ⟨old, counted⟩).symm
  | abandoned _ _ _ transition => exact transition.differ.writtenSince since (by rintro _ ⟨⟩)
  | reported _ _ rebooked | forgot rebooked =>
      intro other record found
      exact since other record ((rebooked.bare? other).symm.trans found)

theorem Continues.writtenSince {start : Nat} {key : K} (continues : Continues hash key start s s')
    (consistent : s.Consistent) (since : s.WrittenSince key start) :
    s'.Consistent ∧ s'.WrittenSince key start := by
  induction continues with
  | here => exact ⟨consistent, since⟩
  | @run s' _ reach now op timely ih =>
      obtain ⟨consistent', since'⟩ := ih
      have runs := consistent'.runs hash reach now op
      obtain ⟨before, after, first, act, last⟩ := runs.parts
      have consistent₁ := first.consistent consistent'
      have since₁ : before.WrittenSince key start := fun other record found =>
        since' other record (first.bare? consistent' found)
      have since₂ := act.writtenSince timely since₁
      exact ⟨runs.consistent consistent', fun other record found =>
        since₂ other record (last.bare? (act.consistent consistent₁) found)⟩

/-- Nobody is asked to refresh the key, and nobody who is not forced to does, before the values that were written since
then are old enough. -/
def RefreshesAfter (s : Segment K V) (hash : K → UInt64) (key : K) (start : Nat) : Prop :=
  ∀ reach now (thread : ThreadId) (own : Shared K), own.data = key →
    ((∃ value, (s.read reach now (hash key) key).1 = .live value true) ∨
      (s.claimRefresh reach now thread own (hash key) false).1 ≠ none) →
    ∃ interval, s.policy.refreshAfter = some interval ∧ start + interval < now

theorem WrittenSince.refreshesAfter {start : Nat} {key : K} (since : s.WrittenSince key start) :
    s.RefreshesAfter hash key start := by
  intro reach now thread own same wanted
  suffices wants : ∃ handle entry, s.find? reach (hash key) key = some (handle, entry) ∧
      s.policy.wantsRefresh now entry = true by
    obtain ⟨handle, entry, located, wants⟩ := wants
    obtain ⟨live, _, same⟩ := find?_eq_some located
    simp only [Policy.wantsRefresh, Bool.and_eq_true, Option.any_eq_true, decide_eq_true_eq] at wants
    obtain ⟨ready, interval, set, old⟩ := wants
    have counted : entry.isReserved = false := by
      apply Entry.isReserved_of_ne
      intro load content
      simp [Entry.isReady, content] at ready
    have written : start ≤ entry.written := since handle entry.bare (bare?_of_found live) same counted
    exact ⟨interval, set, by omega⟩
  rcases wanted with ⟨value, live⟩ | claimed
  · have reading := s.reading reach now (hash key) key
    generalize s.read reach now (hash key) key = result at reading live
    cases reading with
    | @live handle entry _ located => exact ⟨handle, entry, located, (Finding.live.inj live).2⟩
    | absent | awaited | stale => cases live
  · have renewing := s.renewing reach now thread own (hash key) false
    generalize s.claimRefresh reach now thread own (hash key) false = result at renewing claimed
    cases renewing with
    | declined => exact absurd rfl claimed
    | @started handle entry _ located _ wanted => exact ⟨handle, entry, same ▸ located, wanted.resolve_left nofun⟩

structure Renews (hash : K → UInt64) (now : Nat) (handle : Handle) (key : Shared K) (old value : Shared V)
    (s s' : Segment K V) : Prop where
  /-- The old value is reported once, between entries that are too old and entries that have to make room. The new
  one has to make room itself, or it is held. -/
  reports : ∃ expired evicted,
    s'.removals = s.removals ++ expired ++
    { key := ⟨key, true⟩, value := ⟨old, true⟩, cause := .replaced } :: evicted ∧
    (∀ removal ∈ expired, removal.cause = .expired) ∧ (∀ removal ∈ evicted, removal.cause = .size) ∧
    ((∃ record, s'.bare? handle = some record ∧ record.Fresh s.policy now key value) ∨
      (∀ handle record, s'.bare? handle = some record → record.key.data ≠ key.data) ∧
        ∃ removal ∈ evicted, removal.key.object.data = key.data ∧ removal.value = ⟨value, true⟩)
  later : ∀ s'', Continues hash key.data now s' s'' → s''.RefreshesAfter hash key.data now

theorem Flights.renews (flights : Flights ended reach s) (consistent : s.Consistent) (keyed : s.Keyed hash reach)
    (strong : s.policy.isStrong = true) (found : s.bare? handle = some record)
    (content : record.content = .loading id (some value)) (same : record.key.data = key.data)
    (fresh : s.policy.stale? reach now record = none) (loaded : Shared V) :
    Renews hash now handle key value loaded s (s.finishLoad reach now key (hash key.data) id (some loaded)) := by
  have reaches {t : Segment K V} (policy : t.policy = s.policy) :
      (∀ object : Shared K, t.policy.keyStrength.reaches reach object = true) ∧
        ∀ object : Shared V, t.policy.valueStrength.reaches reach object = true := by
    have both := strong
    simp only [Policy.isStrong, Bool.and_eq_true, decide_eq_true_eq] at both
    rw [policy, both.1, both.2]
    exact ⟨fun _ => rfl, fun _ => rfl⟩
  have purge := consistent.prepare reach now
  have policy := purge.policy consistent
  have consistent' := purge.consistent consistent
  have flights' := purge.flights consistent flights
  obtain ⟨losses, thinned⟩ := consistent.prepare_thinned reach now
  have left := consistent.prepare_bare?.mpr
    ⟨found, Policy.isLost_of_strong strong reach record, sheltered_of_fresh found fresh⟩
  have aged : ∀ removal ∈ losses.flatMap (fun loss => s.policy.removalsOf reach loss.record loss.cause),
      removal.cause = .expired := by
    intro removal told
    obtain ⟨loss, lost, told⟩ := List.mem_flatMap.mp told
    obtain ⟨_, _, rfl⟩ := List.mem_map.mp told
    have stale := thinned.permitted loss lost
    unfold Policy.stale? at stale
    split at stale
    · cases stale
    · simp only [Policy.isLost_of_strong strong, Bool.false_eq_true, ↓reduceIte] at stale
      split at stale
      · exact (Option.some.inj stale).symm
      · cases stale
  obtain ⟨entry, live, rfl⟩ := bare?_eq_some.mp left
  have located := (purge.keyed consistent keyed).find?_eq consistent'.toLinked live ((reaches policy).1 _) same
  have held : entry.load? = some id := by rw [Entry.load?, show entry.content = _ from content]
  have visible : entry.visible? = some value := by rw [Entry.visible?, show entry.content = _ from content]
  obtain ⟨u, renewed, stored⟩ := consistent'.storeLoaded_counted live visible reach now key loaded
  have finished := (finishLoad_of_own located held loaded).trans stored
  have policy' : u.policy = s.policy := renewed.policy.trans policy
  have evicted := renewed.consistent.evict reach (some handle)
  obtain ⟨made, room⟩ := evicted.thinned renewed.consistent
  -- no other entry is of the key, now or before
  have others (other : Handle) (record : Entry K V) (found : u.bare? other = some record)
      (same' : record.key.data = key.data) : other = handle := by
    by_contra different
    rw [renewed.differ.others other different] at found
    exact different (flights'.unique other handle record entry.bare found left (same'.trans same.symm))
  have fresh' :
      (entry.store loaded ((s.prepare reach now).policy.weigh key.data loaded.data) now).bare.Fresh s.policy now
        key loaded := policy ▸ Entry.fresh_store same now loaded
  rw [finished]
  constructor
  · refine ⟨losses.flatMap (fun loss => s.policy.removalsOf reach loss.record loss.cause),
      made.flatMap (fun loss => s.policy.removalsOf reach loss.record loss.cause), ?_, aged, ?_, ?_⟩
    · rw [room.removals, renewed.removals, policy']
      simp [overwrittenLedger, thinned.removals, (reaches policy).2]
    · intro removal told
      obtain ⟨loss, lost, told⟩ := List.mem_flatMap.mp told
      obtain ⟨_, _, rfl⟩ := List.mem_map.mp told
      obtain ⟨_, _, cause_eq⟩ := room.permitted loss lost
      simpa [Policy.trueCause, policy', Policy.isLost_of_strong strong] using cause_eq
    · by_cases inside : handle ∈ made.map (·.handle)
      · refine .inr ⟨fun other record found same' => ?_, ?_⟩
        · rw [others other record (evicted.bare? renewed.consistent found) same', room.bare?, if_pos inside] at found
          cases found
        · obtain ⟨loss, lost, rfl⟩ := List.mem_map.mp inside
          have record_eq := (room.held loss lost).symm.trans renewed.differ.after
          refine ⟨_, List.mem_flatMap.mpr ⟨loss, lost, List.mem_map.mpr ⟨loaded, ?_, rfl⟩⟩, ?_, ?_⟩
          · rw [Option.some.inj record_eq]
            exact Option.mem_toList.mpr rfl
          · rw [Option.some.inj record_eq]
            exact same
          · rw [(reaches rfl).2]
      · exact .inl ⟨_, by rw [room.bare?, if_neg inside, renewed.differ.after], fresh'⟩
  · have consistent'' := evicted.consistent renewed.consistent
    have since : (u.evict reach (some handle)).WrittenSince key.data now := by
      intro other record found same' _
      have found := evicted.bare? renewed.consistent found
      rw [others other record found same', renewed.differ.after] at found
      cases found
      exact fresh'.written.ge
    exact fun s'' continues => (continues.writtenSince consistent'' since).2.refreshesAfter

theorem Consistent.claimRefresh_starts (consistent : s.Consistent) {thread : ThreadId} {force : Bool}
    (started : (s.claimRefresh reach now thread key (hash key.data) force).1 = some (id, value)) :
    ∃ handle record, s.bare? handle = some record ∧ record.key.data = key.data ∧ record.content = .ready value ∧
      (s.claimRefresh reach now thread key (hash key.data) force).2.bare? handle =
        some (record.setContent (.loading id (some value))) ∧
      (s.claimRefresh reach now thread key (hash key.data) force).2.ahead handle = s.ahead handle := by
  have renewing := s.renewing reach now thread key (hash key.data) force
  generalize s.claimRefresh reach now thread key (hash key.data) force = result at renewing started ⊢
  cases renewing with
  | declined => cases started
  | @started handle entry _ located ready =>
      cases started
      obtain ⟨live, _, same⟩ := find?_eq_some located
      have renewed := consistent.startRefresh live ready thread key
      exact ⟨handle, entry.bare, bare?_of_found live, same, ready, renewed.differ.after,
        congrArg (List.takeWhile _) (congrFun renewed.ordered .write)⟩

theorem Attended.policy_eq (attended : Attended hash policy bound exponent reach ended s) : s.policy = policy := by
  induction attended with
  | create reach => rfl
  | @run reach ended s attended now op fits ih =>
      have consistent := attended.invariant.1
      exact ((consistent.runs hash reach now op).rules consistent).1.trans ih
  | release _ _ _ ih => exact ih

/-- As long as a refresh is on its way to its entry, the entry keeps its value, and with it the weight, the time and the
place in the order of writes, and requests for the key are served from it. A new value then takes its place. -/
theorem serves_while_refreshing (attended : Attended hash policy bound exponent reach ended s)
    (strong : policy.isStrong = true) (held : reach key.id = true) {thread : ThreadId} {force : Bool}
    (started : (s.claimRefresh reach now thread key (hash key.data) force).1 = some (id, value))
    (onwards : Onwards hash reach ended (s.claimRefresh reach now thread key (hash key.data) force).2 reach' ended' s')
    (running : ¬ ended' id) (undisplaced : ∀ cause, ¬ s'.Learnt id cause) :
    ∃ handle record record', s.bare? handle = some record ∧ record.key.data = key.data ∧
      record.content = .ready value ∧
      s'.bare? handle = some record' ∧ record'.key = record.key ∧ record'.content = .loading id (some value) ∧
      record'.weight = record.weight ∧ record'.written = record.written ∧
        (s'.ahead handle).Sublist (s.ahead handle) ∧
      Serves hash reach' s' handle id value record' ∧
      ∀ later loaded, s'.policy.stale? reach' later record' = none →
        Renews hash later handle key value loaded s'
          (s'.finishLoad reach' later key (hash key.data) id (some loaded)) := by
  obtain ⟨handle, record, found, same, ready, refreshing, place⟩ :=
    attended.invariant.1.claimRefresh_starts started
  have attended' : Attended hash policy bound exponent reach ended
      (s.claimRefresh reach now thread key (hash key.data) force).2 := by
    have unended : (Operation.claimRefresh (V := V) thread key force).endedAfter ended = ended := by
      funext other
      simp [Operation.endedAfter, Operation.ends?]
    have run := attended.run now (.claimRefresh thread key force)
      ⟨fun _ same => by cases same; exact held, by rintro _ _ _ ⟨⟩⟩
    rwa [unended] at run
  obtain ⟨⟨time, found'⟩, place'⟩ := onwards.keeps attended' refreshing rfl rfl running undisplaced
  obtain ⟨consistent, keyed, flights⟩ := (attended'.onwards onwards).1.invariant
  have strong' : s'.policy.isStrong = true := by rwa [(attended'.onwards onwards).1.policy_eq]
  refine ⟨handle, record, _, found, same, ready, found', rfl, rfl, rfl, rfl, place ▸ place',
    flights.serves consistent keyed strong' found' rfl, fun later loaded fresh => ?_⟩
  exact flights.renews consistent keyed strong' found' rfl same fresh loaded

theorem serves_until_reloaded :
    let run (now : Nat) (op : Operation Nat Nat) := op.run (fun _ => 3) (fun _ => true) now
    let stored := run 0 (.insert ⟨0, 7⟩ ⟨1, 70⟩ false) (create { refreshAfter := some 2 } ⟨some 2⟩ (2 ^ 1))
    let refreshed := run 3 (.claimRefresh 0 ⟨2, 7⟩ false) stored
    let served := run 5 (.read 7) (run 4 (.insert ⟨3, 8⟩ ⟨4, 80⟩ false) refreshed)
    let finished := run 6 (.finishLoad ⟨2, 7⟩ 0 (some ⟨5, 71⟩)) served
    (served.read (fun _ => true) 9 3 7).1 = .live ⟨1, 70⟩ false ∧
      finished.removals.map (·.cause) = [.replaced] ∧
      finished.RefreshesAfter (fun _ => 3) 7 6 := by
  intro run stored refreshed served finished
  have created : Attended (fun _ => 3) { refreshAfter := some 2 } ⟨some 2⟩ 1 (fun _ => true) _ _ :=
    .create (K := Nat) (V := Nat) _
  have attended := created.run 0 (.insert ⟨0, 7⟩ ⟨1, 70⟩ false) ⟨nofun, nofun⟩
  have started : (stored.claimRefresh (fun _ => true) 3 0 ⟨2, 7⟩ 3 false).1 =
    some (0, ⟨1, 70⟩) := by decide +kernel
  have here (ended : LoadId → Prop) :
      Onwards (fun _ => 3) (fun _ => true) ended refreshed (fun _ => true) ended refreshed := .here
  have served_by (ended : LoadId → Prop) :=
    ((here ended).run 4 (.insert ⟨3, 8⟩ ⟨4, 80⟩ false) ⟨nofun, nofun⟩).run 5 (.read 7) ⟨nofun, nofun⟩
  have undisplaced : (served.loads[0]?).all (·.displaced.isNone) = true := by decide +kernel
  obtain ⟨handle, record, record', _, same, _, _, key_eq, content, _, _, _, serves, renews⟩ :=
    serves_while_refreshing attended rfl rfl started (served_by _) (by simp [Operation.endedAfter, Operation.ends?])
      fun cause ⟨load, issued, known⟩ => by simpa [known] using (Option.all_eq_true _ _).mp undisplaced load issued
  have fresh (now : Nat) : served.policy.stale? (fun _ => true) now record' = none := by
    have strong : served.policy.isStrong = true ∧ served.policy.lifetime.isLimited = false := by decide +kernel
    simp [Policy.stale?, Policy.isLost_of_strong strong.1, Policy.not_isExpired_of_unlimited strong.2]
  have same : record'.key.data = 7 := (congrArg Shared.data key_eq).trans same
  have live := serves.read 9 (fresh 9)
  rw [same] at live
  exact ⟨live, by decide +kernel, (renews 6 ⟨5, 71⟩ (fresh 6)).later _ .here⟩

end Refresh

end Segment
end SegmentedCache
