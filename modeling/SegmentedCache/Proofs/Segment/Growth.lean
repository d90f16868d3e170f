import SegmentedCache.Proofs.Segment.Invariant
import SegmentedCache.Proofs.Segment.Layout

namespace SegmentedCache.Segment

/-!
How the table grows. It doubles at the last moment, before an entry comes in that would overfill it, so that it is never
more than three quarters full as long as it may grow. Whoever looks a key up does not notice.
-/

variable {K V : Type} {s s' : Segment K V} {handle : Handle} {reach : Reach}

theorem Linked.growTable_rechained (linked : s.Linked) : Rechained s.arena s.growTable.arena := by
  unfold Segment.growTable
  dsimp only
  split
  · exact .refl
  · exact linked.filled.rechained

theorem Linked.size_growTable (linked : s.Linked) :
    s.growTable.table.size = if s.table.size < Sizing.longestTable then 2 * s.table.size else s.table.size := by
  unfold Segment.growTable
  dsimp only
  split
  · rename_i long
    rw [if_neg (Nat.not_lt.mpr long)]
  · rename_i short
    rw [if_pos (Nat.not_le.mp short)]
    exact linked.filled.size

theorem Rechained.setNext_of {arena arena' : Arena (Threaded (Entry K V))} (rechained : Rechained arena arena')
    (handle : Handle) :
    ∃ next, arena'.get? handle =
      (arena.get? handle).map fun threaded => { threaded with item := threaded.item.setNext next } := by
  have same := rechained handle
  cases found : arena.get? handle with
  | none =>
      rw [found, Option.map_none, Option.map_eq_none_iff] at same
      exact ⟨none, same⟩
  | some threaded =>
      rw [found, Option.map_some, Option.map_eq_some_iff] at same
      obtain ⟨threaded', found', same⟩ := same
      refine ⟨threaded'.item.next, found'.trans (congrArg some ?_)⟩
      obtain ⟨item, access, write⟩ := threaded
      obtain ⟨item', access', write'⟩ := threaded'
      simp only [Threaded.mk.injEq] at same
      obtain ⟨bare, rfl, rfl⟩ := same
      have item_eq : item' = item.setNext item'.next := by
        rw [← show item'.bare.setNext item'.next = item' from rfl, bare]
        rfl
      rw [item_eq]
      rfl

section Find

variable [DecidableEq K] {hash : K → UInt64} {code : UInt64} {key : K}

theorem Keyed.find?_iff (keyed : s.Keyed hash reach) (linked : s.Linked) {entry : Entry K V} :
    s.find? reach code key = some (handle, entry) ↔
      s.entry? handle = some entry ∧ s.policy.standsFor reach code key entry = true := by
  constructor
  · exact live_of_find?
  · rintro ⟨live, standing⟩
    simp only [Policy.standsFor, Bool.and_eq_true, decide_eq_true_eq] at standing
    obtain ⟨⟨hashed, reached⟩, same⟩ := standing
    have hashed' : entry.hash = hash entry.key.data := keyed.hashed handle entry.bare (bare?_of_found live)
    rw [← hashed, hashed', same]
    exact keyed.find?_eq linked live reached same

/-- The handle that a lookup finds, and the record there without its link to the next. -/
def look? (s : Segment K V) (reach : Reach) (code : UInt64) (key : K) : Option (Handle × Entry K V) :=
  (s.find? reach code key).map fun found => (found.1, found.2.bare)

theorem Keyed.look?_iff (keyed : s.Keyed hash reach) (linked : s.Linked) {record : Entry K V} :
    s.look? reach code key = some (handle, record) ↔
      s.bare? handle = some record ∧ s.policy.standsFor reach code key record = true := by
  have blind (entry : Entry K V) :
      s.policy.standsFor reach code key entry.bare = s.policy.standsFor reach code key entry := rfl
  constructor
  · intro found
    obtain ⟨⟨other, entry⟩, located, same⟩ := Option.map_eq_some_iff.mp found
    cases same
    obtain ⟨live, standing⟩ := (keyed.find?_iff linked).mp located
    exact ⟨bare?_of_found live, standing⟩
  · rintro ⟨found, standing⟩
    obtain ⟨entry, live, rfl⟩ := bare?_eq_some.mp found
    exact Option.map_eq_some_iff.mpr
      ⟨(handle, entry), (keyed.find?_iff linked).mpr ⟨live, blind entry ▸ standing⟩, rfl⟩

/-- What a growth of the table does: every chain is a list that ends, without repetitions, and has the entries of its
bucket; records differ in their links to the next alone; lookups find what they found; and nothing else changes. -/
structure Regrown (reach : Reach) (s s' : Segment K V) : Prop where
  length : s'.table.size = if s.table.size < Sizing.longestTable then 2 * s.table.size else s.table.size
  look? : ∀ code key, s'.look? reach code key = s.look? reach code key
  chained : ∀ bucket, IsChain s'.arena (s'.first? bucket) (s'.chain bucket)
  distinct : ∀ bucket, (s'.chain bucket).Nodup
  mem_chain : ∀ bucket handle, handle ∈ s'.chain bucket ↔
    ∃ entry, s'.entry? handle = some entry ∧ s'.bucket entry.hash = bucket
  record : ∀ handle, ∃ next, s'.arena.get? handle =
    (s.arena.get? handle).map fun threaded => { threaded with item := threaded.item.setNext next }
  rest : s' = { s with
    table := s'.table, arena := s'.arena, fillLimit := s'.fillLimit, growths := s'.growths }

theorem Linked.regrown (linked : s.Linked) (keyed : s.Keyed hash reach) : Regrown reach s s.growTable := by
  have grown := linked.growTable
  have keyed' : s.growTable.Keyed hash reach :=
    keyed.mono grown.books.policy fun handle _ found => (grown.bare? handle).symm.trans found
  refine ⟨linked.size_growTable, fun code key => ?_, grown.linked.chained,
    fun bucket => (grown.linked.chained bucket).nodup, grown.linked.mem_chain,
    linked.growTable_rechained.setNext_of, ?_⟩
  · apply Option.ext
    rintro ⟨handle, record⟩
    rw [keyed'.look?_iff grown.linked, keyed.look?_iff linked, grown.bare?, grown.books.policy]
  · unfold Segment.growTable
    dsimp only
    split <;> rfl

end Find

def HasRoom (s : Segment K V) : Prop :=
  s.table.size < Sizing.longestTable → s.arena.size ≤ fillLimitOf s.table.size

def Lengthened (s s' : Segment K V) : Prop :=
  s'.table.size = s.table.size ∨ s.table.size < Sizing.longestTable ∧ s'.table.size = 2 * s.table.size

theorem Purge.shrinks {allowed : Entry K V → Cause → Prop} (purge : Purge reach allowed s s')
    (consistent : s.Consistent) : s'.table.size = s.table.size ∧ s'.arena.size ≤ s.arena.size := by
  induction purge with
  | done s => exact ⟨rfl, le_rfl⟩
  | @replay s s' _ ih =>
      have replayed : s.replayReads.layout = s.layout := layout_replayReads
      obtain ⟨length, outline⟩ := Prod.mk.inj replayed
      rw [← length, ← (Prod.mk.inj outline).1]
      exact ih consistent.replayReads.consistent
  | @discard s s' _ _ cause found _ _ ih =>
      obtain ⟨length, outline⟩ := Prod.mk.inj (layout_discard found reach cause)
      obtain ⟨length', fewer⟩ := ih (consistent.discard found reach cause).consistent
      exact ⟨length'.trans length, fewer.trans ((Prod.mk.inj outline).1.trans_le (Nat.sub_le ..))⟩

theorem HasRoom.mono (room : s.HasRoom) (length : s'.table.size = s.table.size)
    (fewer : s'.arena.size ≤ s.arena.size) :
    s'.HasRoom := by
  intro short
  rw [length] at short ⊢
  exact fewer.trans (room short)

theorem Linked.attach_hasRoom (linked : s.Linked) (room : s.HasRoom) (key : Shared K) (hash : UInt64)
    (content : Content V) (weight now : Nat) :
    (s.attach key hash content weight now).2.HasRoom ∧ Lengthened s (s.attach key hash content weight now).2 := by
  obtain ⟨threaded, layout⟩ := s.layout_attach key hash content weight now
  obtain ⟨length, outline⟩ := Prod.mk.inj layout
  have size : s.roomy.arena.size = s.arena.size := congrArg Prod.fst s.outline_roomy
  have stored : (s.attach key hash content weight now).2.arena.size = s.arena.size + 1 := by
    rw [(Prod.mk.inj outline).1, Arena.size_insert, size]
  have positive := linked.table_pos
  unfold HasRoom Lengthened
  rw [length, stored]
  unfold roomy
  rw [linked.fillLimit]
  split
  · rename_i full
    rw [linked.size_growTable]
    split
    · rename_i short
      have before := room short
      refine ⟨fun _ => ?_, .inr ⟨short, rfl⟩⟩
      -- one doubling is enough, also for a table of length one, whose three quarters round to nothing
      unfold fillLimitOf at before ⊢
      omega
    · rename_i long
      exact ⟨fun short => absurd short long, .inl rfl⟩
  · rename_i enough
    exact ⟨fun _ => Nat.not_lt.mp enough, .inl rfl⟩

section Operations

variable [DecidableEq K] {hash : K → UInt64} {now : Nat} {op : Operation K V}

omit [DecidableEq K] in
theorem Lengthened.of_eq {t t' : Segment K V} (lengthened : Lengthened t t') (before : t.table.size = s.table.size)
    (after : s'.table.size = t'.table.size) : Lengthened s s' := by
  unfold Lengthened at *
  rwa [after, ← before]

theorem Turnover.hasRoom (turnover : Turnover hash reach now op s s') (consistent : s.Consistent) (room : s.HasRoom) :
    s'.HasRoom ∧ Lengthened s s' := by
  cases turnover with
  | @kept t u _ before settled after =>
      obtain ⟨length, fewer⟩ := before.shrinks consistent
      obtain ⟨length', outline⟩ := Prod.mk.inj settled.layout
      obtain ⟨length'', fewer''⟩ := after.shrinks settled.consistent
      have size : u.arena.size = t.arena.size := (Prod.mk.inj outline).1
      have same : s'.table.size = s.table.size := (length''.trans length').trans length
      exact ⟨room.mono same ((fewer''.trans_eq size).trans fewer), .inl same⟩
  | @reserved t before thread key =>
      -- the load is issued before the table may grow
      obtain ⟨length, fewer⟩ := before.shrinks consistent
      have issued := (before.consistent consistent).issue thread key
      have attached := issued.consistent.toLinked.attach_hasRoom (room.mono length fewer) key (hash key.data)
        (.loading t.loads.size none) 0 now
      exact ⟨attached.1, attached.2.of_eq length rfl⟩
  | @added t before key value weight =>
      obtain ⟨length, fewer⟩ := before.shrinks consistent
      have consistent' := before.consistent consistent
      have attached := consistent'.toLinked.attach_hasRoom (room.mono length fewer) key (hash key.data) (.ready value)
        weight now
      have added := consistent'.add key (hash key.data) value weight now
      obtain ⟨length', fewer'⟩ := (added.consistent.evict reach
        (some (t.attach key (hash key.data) (.ready value) weight now).1)).shrinks added.consistent
      have enrolled : ((t.attach key (hash key.data) (.ready value) weight now).2.enroll
          (t.attach key (hash key.data) (.ready value) weight now).1).layout =
            (t.attach key (hash key.data) (.ready value) weight now).2.layout := layout_enroll
      obtain ⟨length'', outline⟩ := Prod.mk.inj enrolled
      refine ⟨attached.1.mono (length'.trans length'') (fewer'.trans_eq (Prod.mk.inj outline).1),
        attached.2.of_eq length (length'.trans length'')⟩

/-- The table has room for all that is stored, whatever comes next. It was doubled some times since it was created; of
all stored entries, reserved ones too, it is at most three quarters full while it may grow; an operation leaves its
length or doubles it once; it does so only before a new entry is attached, for a claim or for a value; and that
disturbs nothing. -/
structure Housed (hash : K → UInt64) (exponent : Nat) (reach : Reach) (s : Segment K V) : Prop where
  power : ∃ doublings, s.table.size = 2 ^ (exponent + doublings)
  room : s.table.size < Sizing.longestTable → s.stored.length ≤ s.table.size * 3 / 4
  lengthened : ∀ now (op : Operation K V), Lengthened s (op.run hash reach now s)
  turnover : ∀ now (op : Operation K V), Turnover hash reach now op s (op.run hash reach now s)
  regrown : ∀ t, Purge reach (fun _ _ => True) s t → Regrown reach t t.growTable
  regrown_issued : ∀ t, Purge reach (fun _ _ => True) s t → ∀ thread key,
    Regrown reach (t.issue thread key).2 (t.issue thread key).2.growTable

theorem Reachable.hasRoom {policy : Policy K V} {bound : Bound} {exponent : Nat}
    (reachable : Reachable hash policy bound exponent reach s) :
    (∃ doublings, s.table.size = 2 ^ (exponent + doublings)) ∧ s.HasRoom := by
  induction reachable with
  | create reach =>
      refine ⟨⟨0, Array.size_replicate⟩, fun _ => ?_⟩
      exact Nat.zero_le _
  | @run reach s reachable now op ih =>
      obtain ⟨⟨doublings, length⟩, room⟩ := ih
      have consistent := reachable.consistent_keyed.1
      obtain ⟨room', longer⟩ := (consistent.turnover hash reach now op).hasRoom consistent room
      refine ⟨?_, room'⟩
      rcases longer with same | ⟨_, twice⟩
      · exact ⟨doublings, same.trans length⟩
      · exact ⟨doublings + 1, by rw [twice, length, ← Nat.add_assoc, Nat.pow_succ']⟩
  | release _ _ ih => exact ih

theorem housed_of_reachable {policy : Policy K V} {bound : Bound} {exponent : Nat}
    (reachable : Reachable hash policy bound exponent reach s) : s.Housed hash exponent reach := by
  obtain ⟨power, room⟩ := reachable.hasRoom
  obtain ⟨consistent, keyed⟩ := reachable.consistent_keyed
  have stored : s.stored.length = s.arena.size := by
    rw [← List.length_map, s.stored_handles, consistent.arena.length_handles]
  refine ⟨power, fun short => stored ▸ room short, fun now op => ?_, consistent.turnover hash reach,
    fun t swept => ?_, fun t swept thread key => ?_⟩
  · exact ((consistent.turnover hash reach now op).hasRoom consistent room).2
  · exact (swept.consistent consistent).toLinked.regrown (swept.keyed consistent keyed)
  · have issued := (swept.consistent consistent).issue thread key
    exact issued.consistent.toLinked.regrown (issued.keyed rfl (swept.keyed consistent keyed))

theorem housed_after_doubling_twice :
    let policy : Policy Nat Nat := {}
    let first := (Operation.insert ⟨0, 7⟩ ⟨1, 70⟩ false).run (fun key => key.toUInt64) (fun _ => true) 0
      (create policy ⟨none⟩ (2 ^ 0))
    let second := (Operation.claim 0 ⟨2, 8⟩).run (fun key => key.toUInt64) (fun _ => true) 1 first
    first.table.size = 2 ∧ second.table.size = 4 ∧ second.stored.length = 2 ∧
      second.Housed (fun key => key.toUInt64) 0 (fun _ => true) :=
  ⟨by decide, by decide, by decide, housed_of_reachable (.run (.run (.create fun _ => true) 0 _) 1 _)⟩

end Operations

end SegmentedCache.Segment
