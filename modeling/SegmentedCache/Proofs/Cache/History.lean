import SegmentedCache.Proofs.Cache.Lasting

namespace SegmentedCache

/-!
Runs with all that happened in them.
-/

variable {K V τ : Type}

/-- An event in a run: the state that it meets, and what the client refers to meanwhile. -/
structure Moment (K V τ : Type) where
  cache : Cache K V τ
  held : Reach
  event : Event K V τ

namespace Moment

variable [DecidableEq K] [Clock τ]

def next (moment : Moment K V τ) : Cache K V τ :=
  (moment.cache.step moment.held moment.event).1

def signal (moment : Moment K V τ) : Signal K V :=
  (moment.cache.step moment.held moment.event).2

def accepts (moment : Moment K V τ) : List (K × Shared V) :=
  moment.cache.accepts moment.held moment.event

def notifies (moment : Moment K V τ) : List (Removal K V) :=
  moment.cache.notifies moment.event

/-- A background is only shut down after what is queued there was run or dropped. -/
def IsProper (moment : Moment K V τ) : Prop :=
  moment.event = .closeBackground → ∀ reloads, moment.cache.background = .queue reloads → reloads = []

end Moment

namespace Cache

variable [DecidableEq K] [Clock τ]

/-- The runs of a cache: the moments that have passed, first to last, and the state that they led to. -/
inductive History (config : Config K V) (hash : K → UInt64) (clock : τ) :
    List (Moment K V τ) → Cache K V τ → Prop where
  | create : History config hash clock [] (create config hash clock)
  | step {past : List (Moment K V τ)} {cache : Cache K V τ} (history : History config hash clock past cache)
      (held : Reach) (event : Event K V τ) :
      History config hash clock (past ++ [⟨cache, held, event⟩]) (cache.step held event).1

def run (held : Reach) (cache : Cache K V τ) : List (Event K V τ) → List (Moment K V τ) × Cache K V τ
  | [] => ([], cache)
  | event :: events =>
      let (later, last) := run held (cache.step held event).1 events
      (⟨cache, held, event⟩ :: later, last)

theorem event_mem_of_run {held : Reach} {cache : Cache K V τ} {events : List (Event K V τ)} :
    ∀ moment ∈ (cache.run held events).1, moment.event ∈ events := by
  induction events generalizing cache with
  | nil => exact fun moment member => absurd member List.not_mem_nil
  | cons event events ih =>
      intro moment member
      rw [run, List.mem_cons] at member
      rcases member with rfl | later
      · exact List.mem_cons_self
      · exact List.mem_cons_of_mem _ (ih moment later)

theorem proper_of_run {held : Reach} {cache : Cache K V τ} {events : List (Event K V τ)}
    (open_ended : ∀ event ∈ events, event ≠ .closeBackground) :
    ∀ moment ∈ (cache.run held events).1, moment.IsProper :=
  fun moment member closing => absurd closing (open_ended _ (event_mem_of_run moment member))

namespace History

variable {config : Config K V} {hash : K → UInt64} {clock : τ} {past : List (Moment K V τ)} {cache : Cache K V τ}

theorem recorded (history : History config hash clock past cache) :
    Recorded config hash clock cache (past.flatMap Moment.accepts) (past.flatMap Moment.notifies) := by
  induction history with
  | create => exact .create
  | step history held event ih =>
      simp only [List.flatMap_append, List.flatMap_singleton]
      exact ih.step held event

theorem of_append (history : History config hash clock past cache) {earlier later : List (Moment K V τ)}
    {moment : Moment K V τ} (split : past = earlier ++ moment :: later) :
    History config hash clock earlier moment.cache ∧ History config hash clock (earlier ++ [moment]) moment.next := by
  induction history generalizing later with
  | create => cases List.append_eq_nil_iff.mp split.symm |>.2
  | @step past cache history held event ih =>
      rcases List.eq_nil_or_concat later with rfl | ⟨later, last, rfl⟩
      · obtain ⟨rfl, same⟩ := List.append_inj' split rfl
        cases same
        exact ⟨history, history.step held event⟩
      · rw [List.concat_eq_append, ← List.cons_append, ← List.append_assoc] at split
        exact ih (List.append_inj' split rfl).1

theorem run (history : History config hash clock past cache) (held : Reach) (events : List (Event K V τ)) :
    History config hash clock (past ++ (cache.run held events).1) (cache.run held events).2 := by
  induction events generalizing past cache with
  | nil => simpa [Cache.run] using history
  | cons event events ih => simpa [Cache.run] using ih (history.step held event)

end History

end Cache
end SegmentedCache
