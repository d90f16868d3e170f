import Mathlib.Algebra.Order.Group.Multiset
import SegmentedCache.Proofs.Segment.Invariant

namespace SegmentedCache

/-!
Where values go. A value that a segment accepts is held by an entry until it is reported, and a value that is
reported is held no more. Keys are told apart by what they are and values by which objects they are: an entry that
is overwritten keeps its own key object, and the value it gives up is reported under the key object of the writer.
-/

variable {K V : Type}

def Entry.pair? (entry : Entry K V) : Option (K × Shared V) :=
  entry.visible?.map (entry.key.data, ·)

/-- The key and the value that are reported, also if they could not be reached any more. -/
def Removal.pair (removal : Removal K V) : K × Shared V :=
  (removal.key.object.data, removal.value.object)

namespace Segment

variable {s s' : Segment K V} {handle : Handle} {reach : Reach} {hash : K → UInt64} {now : Nat}

def pairs (s : Segment K V) : List (K × Shared V) :=
  s.counted.filterMap Entry.pair?

def owned (entry : Entry K V) : Multiset (K × Shared V) :=
  ↑entry.pair?.toList

@[simp] theorem owned_bare (entry : Entry K V) : owned entry.bare = owned entry := rfl

theorem owned_of_counted {entry : Entry K V} {value : Shared V} (counted : entry.visible? = some value) :
    owned entry = {(entry.key.data, value)} := by
  simp [owned, Entry.pair?, counted]

theorem owned_of_reserved {entry : Entry K V} (reserved : entry.visible? = none) : owned entry = 0 := by
  simp [owned, Entry.pair?, reserved]

@[simp] theorem owned_store (entry : Entry K V) (value : Shared V) (weight now : Nat) :
    owned (entry.store value weight now) = {(entry.key.data, value)} := rfl

@[simp] theorem owned_setContent_ready (entry : Entry K V) (value : Shared V) :
    owned (entry.setContent (.ready value)) = {(entry.key.data, value)} := rfl

@[simp] theorem owned_setContent_loading (entry : Entry K V) (load : LoadId) (value : Shared V) :
    owned (entry.setContent (.loading load (some value))) = {(entry.key.data, value)} := rfl

theorem pairs_eq_total (s : Segment K V) : (s.pairs : Multiset (K × Shared V)) = s.total owned := by
  rw [pairs, counted, total, records, List.map_map]
  induction s.stored with
  | nil => rfl
  | cons first rest ih =>
      obtain ⟨handle, entry⟩ := first
      simp only [List.map_cons, List.sum_cons, Function.comp_apply, owned_bare, ← ih]
      cases reserved : entry.isReserved with
      | true => simp [reserved, owned_of_reserved (entry.isReserved_iff.mp reserved)]
      | false =>
          obtain ⟨value, counted⟩ := Entry.isReserved_eq_false.mp reserved
          simp [reserved, owned_of_counted counted, Entry.pair?, counted]

def accounts (s : Segment K V) : Multiset (K × Shared V) :=
  s.pairs + s.removals.map Removal.pair

theorem pairs_removalsOf (policy : Policy K V) (reach : Reach) (entry : Entry K V) (cause : Cause) :
    ((policy.removalsOf reach entry cause).map Removal.pair : Multiset (K × Shared V)) = owned entry := by
  cases counted : entry.visible? with
  | none => simp [Policy.removalsOf, counted, owned_of_reserved counted]
  | some value => simp [Policy.removalsOf, counted, owned_of_counted counted, Removal.pair]

theorem Differ.accounts {before after : Option (Entry K V)} (differ : Differ s s' handle before after)
    {reported : List (Removal K V)} (removals : s'.removals = s.removals ++ reported)
    {accepted : List (K × Shared V)}
    (balance : after.elim 0 owned + reported.map Removal.pair = before.elim 0 owned + accepted) :
    s'.accounts = s.accounts + accepted := by
  have total := differ.total owned
  rw [← pairs_eq_total, ← pairs_eq_total] at total
  rw [Segment.accounts, Segment.accounts, removals, List.map_append, ← Multiset.coe_add]
  -- both sides of the balance are added, so that what the record contributes can be cancelled
  apply add_right_cancel (b := before.elim 0 owned)
  generalize (s'.pairs : Multiset (K × Shared V)) = pairs', (s.pairs : Multiset (K × Shared V)) = pairs,
    (s.removals.map Removal.pair : Multiset (K × Shared V)) = earlier,
    (reported.map Removal.pair : Multiset (K × Shared V)) = later at total balance ⊢
  calc pairs' + (earlier + later) + before.elim 0 owned
      = pairs' + before.elim 0 owned + (earlier + later) := by ac_rfl
    _ = pairs + earlier + (after.elim 0 owned + later) := by
        rw [total]
        ac_rfl
    _ = pairs + earlier + accepted + before.elim 0 owned := by
        rw [balance]
        ac_rfl

theorem Rebooked.accounts {ledger : Ledger K V} (rebooked : Rebooked s s' ledger) {reported : List (Removal K V)}
    (removals : ledger.removals = s.removals ++ reported) :
    s'.accounts = s.accounts + reported.map Removal.pair := by
  have same := total_congr rebooked.bare? owned
  rw [← pairs_eq_total, ← pairs_eq_total] at same
  rw [Segment.accounts, Segment.accounts, same, rebooked.removals, removals, List.map_append, ← Multiset.coe_add]
  ac_rfl

theorem Purge.accounts {allowed : Entry K V → Cause → Prop} (purge : Purge reach allowed s s')
    (consistent : s.Consistent) : s'.accounts = s.accounts := by
  induction purge with
  | done s => rfl
  | replay _ ih =>
      have replayed := consistent.replayReads
      rw [ih replayed.consistent, replayed.accounts (List.append_nil _).symm]
      simp
  | @discard s _ handle entry cause found _ _ ih =>
      have discarded := consistent.discard found reach cause
      have moved : (s.discard reach handle cause).accounts = s.accounts + ↑([] : List (K × Shared V)) := by
        apply discarded.differ.accounts discarded.removals
        rw [pairs_removalsOf]
        simp
      rw [ih discarded.consistent, moved]
      exact add_zero _

section Runs

variable [DecidableEq K] {op : Operation K V} {accepted : List (K × Shared V)} {before : Prop}

theorem Act.accounts (act : Act hash reach now before op accepted s s') : s'.accounts = s.accounts + accepted := by
  cases act with
  | idle | dropped => simp
  | @used _ _ _ _ entry _ _ _ _ transition =>
      have kept : owned (s.policy.used now entry) = owned entry := by
        unfold Policy.used
        split <;> rfl
      apply transition.differ.accounts (transition.removals.trans (List.append_nil _).symm)
      simp [kept]
  | granted _ _ transition =>
      apply transition.differ.accounts (transition.removals.trans (List.append_nil _).symm)
      exact congrArg (· + _) (owned_of_reserved rfl)
  | @renewing _ _ _ entry _ _ _ value _ ready transition =>
      have counted : entry.visible? = some value := by rw [Entry.visible?, ready]
      apply transition.differ.accounts (transition.removals.trans (List.append_nil _).symm)
      simp [owned_of_counted counted]
  | added _ _ transition =>
      apply transition.differ.accounts (transition.removals.trans (List.append_nil _).symm)
      rfl
  | filled _ found reserved transition =>
      have same := (find?_eq_some found).2.2
      apply transition.differ.accounts (transition.removals.trans (List.append_nil _).symm)
      simp [owned_of_reserved reserved, same]
  | overwritten _ found counted transition =>
      have same := (find?_eq_some found).2.2
      apply transition.differ.accounts transition.removals
      simpa [owned_of_counted counted, same, Removal.pair] using Multiset.pair_comm _ _
  | reverted found _ counted transition =>
      apply transition.differ.accounts (transition.removals.trans (List.append_nil _).symm)
      simp [owned_of_counted counted]
  | abandoned _ _ reserved transition =>
      apply transition.differ.accounts (transition.removals.trans (List.append_nil _).symm)
      simp [owned_of_reserved reserved]
  | reported _ _ rebooked =>
      rw [rebooked.accounts rfl]
      simp [Removal.pair]
  | forgot rebooked =>
      rw [rebooked.accounts (List.append_nil _).symm]
      simp

theorem Runs.accounts (runs : Runs hash reach now op accepted s s') (consistent : s.Consistent) :
    s'.accounts = s.accounts + accepted := by
  obtain ⟨first, last, purge, act, purge'⟩ := runs.parts
  rw [purge'.accounts (act.consistent (purge.consistent consistent)), act.accounts, purge.accounts consistent]

end Runs

end Segment
end SegmentedCache
