import Mathlib.Data.List.Induction
import Mathlib.Data.List.Perm.Basic
import SegmentedCache.Config

namespace SegmentedCache

/-!
Which options make a configuration. The setters judge each option by those given before it, and yet the order does
not matter: every conflict is found, whichever of its two sides comes last. An option is refused as soon as nothing
that could follow would make the options given so far consistent. How keys are hashed is no option: that is given
together with the configuration.
-/

variable {K V : Type}

/-- What a setting decides. Weak and soft values decide the same. -/
inductive Topic where
  | initialCapacity
  | concurrencyLevel
  | maximumSize
  | maximumWeight
  | weigher
  | keyStrength
  | valueStrength
  | expireAfterWrite
  | expireAfterAccess
  | refreshAfterWrite
  | clock
  | removalListener
  | recordStats
  | background
deriving DecidableEq

namespace Setting

def topic : Setting K V → Topic
  | initialCapacity _ => .initialCapacity
  | concurrencyLevel _ => .concurrencyLevel
  | maximumSize _ => .maximumSize
  | maximumWeight _ => .maximumWeight
  | weigher _ => .weigher
  | weakKeys => .keyStrength
  | weakValues | softValues => .valueStrength
  | expireAfterWrite _ => .expireAfterWrite
  | expireAfterAccess _ => .expireAfterAccess
  | refreshAfterWrite _ => .refreshAfterWrite
  | clock => .clock
  | removalListener => .removalListener
  | recordStats => .recordStats
  | background => .background

def inRange : Setting K V → Bool
  | concurrencyLevel threads => threads != 0
  | refreshAfterWrite span => !span.isZero
  | _ => true

def topics (settings : List (Setting K V)) : List Topic :=
  settings.map Setting.topic

/-- Nothing is decided twice, except that statistics may be asked for again; every value is in range; and a bound on
the number of entries stands beside no bound on their weight and no weigher. -/
structure Compatible (settings : List (Setting K V)) : Prop where
  once : ∀ topic, topic ≠ .recordStats → (topics settings).count topic ≤ 1
  inRange : ∀ setting ∈ settings, setting.inRange = true
  unmixed : .maximumSize ∈ topics settings →
    .maximumWeight ∉ topics settings ∧ .weigher ∉ topics settings

@[mk_iff]
structure Consistent (settings : List (Setting K V)) : Prop extends Compatible settings where
  paired : .weigher ∈ topics settings ↔ .maximumWeight ∈ topics settings

def Extendable (settings : List (Setting K V)) : Prop :=
  ∃ more, Consistent (settings ++ more)

@[simp] theorem topics_append (settings more : List (Setting K V)) :
    topics (settings ++ more) = topics settings ++ topics more :=
  List.map_append

@[simp] theorem topics_singleton (setting : Setting K V) : topics [setting] = [setting.topic] := rfl

theorem Compatible.of_append {settings more : List (Setting K V)} (compatible : Compatible (settings ++ more)) :
    Compatible settings where
  once topic other := by
    have count := compatible.once topic other
    rw [topics_append, List.count_append] at count
    omega
  inRange setting member := compatible.inRange setting (List.mem_append_left _ member)
  unmixed sized := by
    have unmixed := compatible.unmixed (by simp [sized])
    simp only [topics_append, List.mem_append, not_or] at unmixed
    exact ⟨unmixed.1.1, unmixed.2.1⟩

theorem Compatible.take {settings : List (Setting K V)} (compatible : Compatible settings) (count : Nat) :
    Compatible (settings.take count) := by
  rw [← settings.take_append_drop count] at compatible
  exact compatible.of_append

theorem Compatible.take_of_le {settings : List (Setting K V)} {few many : Nat}
    (compatible : Compatible (settings.take many)) (le : few ≤ many) : Compatible (settings.take few) := by
  rw [← Nat.min_eq_left le, ← List.take_take]
  exact compatible.take few

@[mk_iff]
structure Fits (given : List Topic) (setting : Setting K V) : Prop where
  fresh : setting.topic ≠ .recordStats → setting.topic ∉ given
  inRange : setting.inRange = true
  unweighted : setting.topic = .maximumSize → .maximumWeight ∉ given ∧ .weigher ∉ given
  unsized : setting.topic = .maximumWeight ∨ setting.topic = .weigher → .maximumSize ∉ given

theorem compatible_nil : Compatible ([] : List (Setting K V)) :=
  ⟨by simp [topics], by simp, by simp [topics]⟩

theorem compatible_concat {settings : List (Setting K V)} {setting : Setting K V} :
    Compatible (settings ++ [setting]) ↔ Compatible settings ∧ Fits (topics settings) setting := by
  constructor
  · intro compatible
    have unmixed := compatible.unmixed
    rw [topics_append, topics_singleton] at unmixed
    refine ⟨compatible.of_append, ?_, compatible.inRange setting (by simp), ?_, ?_⟩
    · intro counts given
      have count := compatible.once _ counts
      rw [topics_append, topics_singleton, List.count_append, List.count_singleton_self] at count
      have := List.count_pos_iff.mpr given
      omega
    · intro sized
      have unmixed := unmixed (by simp [sized])
      exact ⟨fun weight => unmixed.1 (by simp [weight]), fun weigher => unmixed.2 (by simp [weigher])⟩
    · rintro (weight | weigher) sized
      · exact (unmixed (by simp [sized])).1 (by simp [weight])
      · exact (unmixed (by simp [sized])).2 (by simp [weigher])
  · rintro ⟨compatible, fits⟩
    constructor
    · intro topic counts
      have once := compatible.once topic counts
      rw [topics_append, topics_singleton, List.count_append]
      by_cases same : setting.topic = topic
      · subst same
        simp [List.count_eq_zero.mpr (fits.fresh counts)]
      · rwa [List.count_singleton, beq_eq_false_iff_ne.mpr same, if_neg (by simp)]
    · simpa [or_imp, forall_and, fits.inRange] using compatible.inRange
    · rw [topics_append, topics_singleton]
      have unmixed := compatible.unmixed
      have unweighted := fits.unweighted
      have unsized := fits.unsized
      simp only [List.mem_append, List.mem_singleton, not_or] at *
      grind

theorem Compatible.eq_of_topic_eq {settings : List (Setting K V)} (compatible : Compatible settings)
    {first second : Setting K V} (memFirst : first ∈ settings) (memSecond : second ∈ settings)
    (same : first.topic = second.topic) : first = second := by
  by_cases statistics : first.topic = .recordStats
  · cases first <;> cases statistics
    cases second <;> cases same
    rfl
  · -- Otherwise the matter would be decided here and once more elsewhere.
    obtain ⟨before, after, rfl⟩ := List.append_of_mem memFirst
    have count := compatible.once _ statistics
    by_contra different
    have elsewhere : first.topic ∈ topics before ++ topics after := by
      rw [← topics_append, same]
      apply List.mem_map_of_mem
      simpa [Ne.symm different] using memSecond
    have := List.count_pos_iff.mpr elsewhere
    simp only [topics, List.map_append, List.map_cons, List.count_append, List.count_cons_self] at count this
    omega

theorem Compatible.perm {settings settings' : List (Setting K V)} (compatible : Compatible settings)
    (perm : settings.Perm settings') : Compatible settings' := by
  have shuffled : (topics settings).Perm (topics settings') := perm.map _
  constructor
  · intro topic counts
    rw [← shuffled.count_eq]
    exact compatible.once topic counts
  · exact fun setting member => compatible.inRange setting (perm.mem_iff.mpr member)
  · simpa only [shuffled.mem_iff] using compatible.unmixed

theorem Consistent.perm {settings settings' : List (Setting K V)} (consistent : Consistent settings)
    (perm : settings.Perm settings') : Consistent settings' where
  toCompatible := consistent.toCompatible.perm perm
  paired := by simpa only [(perm.map Setting.topic).mem_iff, topics] using consistent.paired

/-- Settings without a contradiction lack at most a weigher or a bound on weight. -/
theorem extendable_iff {settings : List (Setting K V)} : Extendable settings ↔ Compatible settings := by
  constructor
  · rintro ⟨more, consistent⟩
    exact consistent.toCompatible.of_append
  · intro compatible
    by_cases weigher : .weigher ∈ topics settings
    · by_cases weight : .maximumWeight ∈ topics settings
      · exact ⟨[], by simpa using ⟨compatible, iff_of_true weigher weight⟩⟩
      · have unsized : .maximumSize ∉ topics settings := fun sized => (compatible.unmixed sized).2 weigher
        refine ⟨[.maximumWeight 0], compatible_concat.mpr ⟨compatible, ?_⟩, ?_⟩
        · exact ⟨fun _ => weight, rfl, nofun, fun _ => unsized⟩
        · simp [weigher, Setting.topic]
    · by_cases weight : .maximumWeight ∈ topics settings
      · have unsized : .maximumSize ∉ topics settings := fun sized => (compatible.unmixed sized).1 weight
        refine ⟨[.weigher fun _ _ => 0], compatible_concat.mpr ⟨compatible, ?_⟩, ?_⟩
        · exact ⟨fun _ => weigher, rfl, nofun, fun _ => unsized⟩
        · simp [weight, Setting.topic]
      · exact ⟨[], by simpa using ⟨compatible, iff_of_false weigher weight⟩⟩

end Setting

namespace Options

open Setting (Compatible Consistent Extendable Fits topics)

def decides (options : Options K V) : Topic → Bool
  | .initialCapacity => options.initialCapacity.isSome
  | .concurrencyLevel => options.concurrencyLevel.isSome
  | .maximumSize => options.maximumSize.isSome
  | .maximumWeight => options.maximumWeight.isSome
  | .weigher => options.weigher.isSome
  | .keyStrength => options.keyStrength.isSome
  | .valueStrength => options.valueStrength.isSome
  | .expireAfterWrite => options.expireAfterWrite.isSome
  | .expireAfterAccess => options.expireAfterAccess.isSome
  | .refreshAfterWrite => options.refreshAfterWrite.isSome
  | .clock => options.clock
  | .removalListener => options.removalListener
  | .recordStats => options.recordStats
  | .background => options.background

def assign (options : Options K V) : Setting K V → Options K V
  | .initialCapacity entries => { options with initialCapacity := some entries }
  | .concurrencyLevel threads => { options with concurrencyLevel := some threads }
  | .maximumSize entries => { options with maximumSize := some entries }
  | .maximumWeight weight => { options with maximumWeight := some weight }
  | .weigher weigh => { options with weigher := some weigh }
  | .weakKeys => { options with keyStrength := some .weak }
  | .weakValues => { options with valueStrength := some .weak }
  | .softValues => { options with valueStrength := some .soft }
  | .expireAfterWrite span => { options with expireAfterWrite := some span }
  | .expireAfterAccess span => { options with expireAfterAccess := some span }
  | .refreshAfterWrite span => { options with refreshAfterWrite := some span }
  | .clock => { options with clock := true }
  | .removalListener => { options with removalListener := true }
  | .recordStats => { options with recordStats := true }
  | .background => { options with background := true }

def holds (options : Options K V) : Setting K V → Prop
  | .initialCapacity entries => options.initialCapacity = some entries
  | .concurrencyLevel threads => options.concurrencyLevel = some threads
  | .maximumSize entries => options.maximumSize = some entries
  | .maximumWeight weight => options.maximumWeight = some weight
  | .weigher weigh => options.weigher = some weigh
  | .weakKeys => options.keyStrength = some .weak
  | .weakValues => options.valueStrength = some .weak
  | .softValues => options.valueStrength = some .soft
  | .expireAfterWrite span => options.expireAfterWrite = some span
  | .expireAfterAccess span => options.expireAfterAccess = some span
  | .refreshAfterWrite span => options.refreshAfterWrite = some span
  | .clock => options.clock = true
  | .removalListener => options.removalListener = true
  | .recordStats => options.recordStats = true
  | .background => options.background = true

theorem holds_assign {options : Options K V} {setting : Setting K V}
    (fresh : setting.topic ≠ .recordStats → options.decides setting.topic = false) (other : Setting K V) :
    (options.assign setting).holds other ↔ setting = other ∨ options.holds other := by
  cases setting <;> cases other <;> simp_all [assign, holds, decides, Setting.topic]

theorem decides_assign (options : Options K V) (setting : Setting K V) (topic : Topic) :
    (options.assign setting).decides topic = (decide (setting.topic = topic) || options.decides topic) := by
  cases setting <;> cases topic <;> rfl

theorem assign_comm (options : Options K V) {first second : Setting K V} (different : first.topic ≠ second.topic) :
    (options.assign first).assign second = (options.assign second).assign first := by
  cases first <;> cases second <;> first | rfl | exact absurd rfl different

theorem once_bind_eq_ok {β : Type} {given : Bool} {option : String} {next : Unit → Except CacheError β}
    {result : β} : (once given option >>= next) = .ok result ↔ given = false ∧ next () = .ok result := by
  cases given <;> simp [once, bind, Except.bind]

theorem demand_bind_eq_ok {β : Type} {holds : Bool} {error : CacheError} {next : Unit → Except CacheError β}
    {result : β} : (demand holds error >>= next) = .ok result ↔ holds = true ∧ next () = .ok result := by
  cases holds <;> simp [demand, bind, Except.bind]

theorem set_eq_ok_iff {options options' : Options K V} {given : List Topic} {setting : Setting K V}
    (decided : ∀ topic, options.decides topic = true ↔ topic ∈ given) :
    options.set setting = .ok options' ↔ Fits given setting ∧ options.assign setting = options' := by
  simp only [Setting.fits_iff, ← decided]
  cases setting with
  | weakKeys =>
      cases strength : options.keyStrength <;>
        simp [set, strength, Setting.topic, Setting.inRange, decides, assign]
  | weakValues | softValues =>
      cases strength : options.valueStrength <;>
        simp [set, setValueStrength, strength, Setting.topic, Setting.inRange, decides, assign]
  | _ =>
      simp only [set, once_bind_eq_ok, demand_bind_eq_ok, pure, Except.pure]
      simp [Setting.topic, Setting.inRange, decides, assign, and_assoc]

def collected (settings : List (Setting K V)) : Options K V :=
  settings.foldl assign {}

theorem collected_concat (settings : List (Setting K V)) (setting : Setting K V) :
    collected (settings ++ [setting]) = (collected settings).assign setting := by
  simp [collected]

theorem decides_collected (settings : List (Setting K V)) (topic : Topic) :
    (collected settings).decides topic = true ↔ topic ∈ topics settings := by
  induction settings using List.reverseRecOn with
  | nil => cases topic <;> simp [collected, decides, topics]
  | append_singleton settings setting ih =>
      simp [collected_concat, decides_assign, ih, or_comm, @eq_comm _ topic]

theorem holds_collected {settings : List (Setting K V)} (compatible : Compatible settings)
    (setting : Setting K V) : (collected settings).holds setting ↔ setting ∈ settings := by
  induction settings using List.reverseRecOn with
  | nil => cases setting <;> simp [collected, holds]
  | append_singleton settings last ih =>
      obtain ⟨compatible, fits⟩ := Setting.compatible_concat.mp compatible
      have fresh (counts : last.topic ≠ .recordStats) : (collected settings).decides last.topic = false :=
        Bool.eq_false_iff.mpr ((decides_collected ..).not.mpr (fits.fresh counts))
      simp [collected_concat, holds_assign fresh, ih compatible, or_comm, eq_comm]

theorem collected_perm {settings settings' : List (Setting K V)} (compatible : Compatible settings)
    (perm : settings.Perm settings') : collected settings = collected settings' := by
  unfold collected
  apply perm.foldl_eq'
  intro first memFirst second memSecond options
  by_cases same : first.topic = second.topic
  · rw [compatible.eq_of_topic_eq memFirst memSecond same]
  · exact assign_comm options same

theorem set_collected {settings : List (Setting K V)} (compatible : Compatible settings) {setting : Setting K V}
    {options : Options K V} :
    (collected settings).set setting = .ok options ↔
      Compatible (settings ++ [setting]) ∧ collected (settings ++ [setting]) = options := by
  rw [set_eq_ok_iff (decides_collected settings), Setting.compatible_concat, collected_concat, and_iff_right compatible]

theorem setAll_cases {given : List (Setting K V)} (compatible : Compatible given) (rest : List (Setting K V)) :
    Compatible (given ++ rest) ∧ setAll (collected given) rest = .ok (collected (given ++ rest)) ∨
      ∃ index error, setAll (collected given) rest = .error (index, error) ∧ index < rest.length ∧
        Compatible (given ++ rest.take index) ∧ ¬Compatible (given ++ rest.take (index + 1)) := by
  -- On the settings still to come. Those given so far are compatible, for nobody has refused yet.
  induction rest generalizing given with
  | nil => exact .inl ⟨by simpa using compatible, by simp [setAll]⟩
  | cons setting rest ih =>
      cases attempt : (collected given).set setting with
      | error error =>
          refine .inr ⟨0, error, by simp [setAll, attempt], by simp, by simpa using compatible, ?_⟩
          intro accepted
          rw [(set_collected compatible).mpr ⟨by simpa using accepted, rfl⟩] at attempt
          cases attempt
      | ok options =>
          obtain ⟨extended, rfl⟩ := (set_collected compatible).mp attempt
          rcases ih extended with ⟨all, collects⟩ | ⟨index, error, refuses, inside, before, after⟩
          · exact .inl ⟨by simpa using all, by simp [setAll, attempt, collects]⟩
          · exact .inr ⟨index + 1, error, by simp [setAll, attempt, refuses], by simpa using inside,
              by simpa using before, by simpa using after⟩

theorem setAll_eq_ok_iff {settings : List (Setting K V)} {options : Options K V} :
    setAll {} settings = .ok options ↔ Compatible settings ∧ collected settings = options := by
  rcases setAll_cases Setting.compatible_nil settings with ⟨compatible, collects⟩ | ⟨_, _, refuses, _, _, after⟩
  · rw [show setAll {} settings = .ok (collected settings) from collects, Except.ok.injEq]
    exact (and_iff_right compatible).symm
  · rw [show setAll {} settings = .error _ from refuses]
    exact iff_of_false nofun fun accepted => after (accepted.1.take _)

theorem setAll_eq_error_iff {settings : List (Setting K V)} {index : Nat} :
    (∃ error, setAll {} settings = .error (index, error)) ↔
      index < settings.length ∧ Compatible (settings.take index) ∧ ¬Compatible (settings.take (index + 1)) := by
  rcases setAll_cases Setting.compatible_nil settings with
    ⟨compatible, collects⟩ | ⟨found, error, refuses, inside, before, after⟩
  · rw [show setAll {} settings = .ok (collected settings) from collects]
    exact iff_of_false nofun fun refused => refused.2.2 (compatible.take _)
  · rw [show setAll {} settings = .error (found, error) from refuses]
    constructor
    · rintro ⟨_, same⟩
      cases same
      exact ⟨inside, before, after⟩
    · rintro ⟨_, before', after'⟩
      have notLater : ¬found < index := fun later => after (before'.take_of_le later)
      have notEarlier : ¬index < found := fun earlier => after' (before.take_of_le earlier)
      obtain rfl : found = index := by omega
      exact ⟨error, rfl⟩

theorem build_eq_ok_iff (settings : List (Setting K V)) :
    (∃ config, (collected settings).build = .ok config) ↔
      (.weigher ∈ topics settings ↔ .maximumWeight ∈ topics settings) := by
  rw [← decides_collected, ← decides_collected]
  unfold build decides
  cases (collected settings).weigher.isSome <;> cases (collected settings).maximumWeight.isSome <;> simp

/-- The configuration that the settings make. A refusal names the setting that was refused, or none when all were
accepted and make no configuration. -/
def configure (settings : List (Setting K V)) : Except (Option Nat × CacheError) (Config K V) :=
  match setAll {} settings with
  | .error (index, error) => .error (some index, error)
  | .ok options => options.build.mapError (none, ·)

theorem configure_cases (settings : List (Setting K V)) :
    Compatible settings ∧ configure settings = (collected settings).build.mapError (none, ·) ∨
      ¬Compatible settings ∧ ∃ index error, configure settings = .error (some index, error) := by
  unfold configure
  cases outcome : setAll {} settings with
  | error refusal =>
      refine .inr ⟨fun compatible => ?_, refusal.1, refusal.2, rfl⟩
      rw [setAll_eq_ok_iff.mpr ⟨compatible, rfl⟩] at outcome
      cases outcome
  | ok options =>
      obtain ⟨compatible, rfl⟩ := setAll_eq_ok_iff.mp outcome
      exact .inl ⟨compatible, rfl⟩

theorem configure_eq_ok_iff {settings : List (Setting K V)} {config : Config K V} :
    configure settings = .ok config ↔ Compatible settings ∧ (collected settings).build = .ok config := by
  rcases configure_cases settings with ⟨compatible, judged⟩ | ⟨incompatible, index, error, judged⟩
  · cases built : (collected settings).build <;> simp [judged, built, compatible, Except.mapError]
  · simp [judged, incompatible]

theorem configure_lacks_iff {settings : List (Setting K V)} :
    (∃ error, configure settings = .error (none, error)) ↔
      Compatible settings ∧ ¬∃ config, (collected settings).build = .ok config := by
  rcases configure_cases settings with ⟨compatible, judged⟩ | ⟨incompatible, index, error, judged⟩
  · cases built : (collected settings).build <;> simp [judged, built, compatible, Except.mapError]
  · simp [judged, incompatible]

theorem configure_refuses_iff {settings : List (Setting K V)} {index : Nat} :
    (∃ error, configure settings = .error (some index, error)) ↔
      ∃ error, setAll {} settings = .error (index, error) := by
  unfold configure
  cases setAll {} settings with
  | error refusal => simp [Prod.ext_iff]
  | ok options => cases built : options.build <;> simp [built, Except.mapError]

structure Judged (settings : List (Setting K V)) : Prop where
  accepted : (∃ config, configure settings = .ok config) ↔ Consistent settings
  unordered : ∀ settings', settings.Perm settings' →
    (∀ options, setAll {} settings = .ok options ↔ setAll {} settings' = .ok options) ∧
      ∀ config, configure settings = .ok config ↔ configure settings' = .ok config
  refused : ∀ index, (∃ error, configure settings = .error (some index, error)) ↔
    index < settings.length ∧ (∀ count ≤ index, Extendable (settings.take count)) ∧
      ¬Extendable (settings.take (index + 1))
  incomplete : (∃ error, configure settings = .error (none, error)) ↔
    Extendable settings ∧ ¬(.weigher ∈ topics settings ↔ .maximumWeight ∈ topics settings)
  kept : ∀ options, setAll {} settings = .ok options →
    ∀ setting, options.holds setting ↔ setting ∈ settings

theorem judged_of_settings (settings : List (Setting K V)) : Judged settings where
  accepted := by
    simp only [configure_eq_ok_iff, exists_and_left, build_eq_ok_iff, Setting.consistent_iff]
  unordered settings' perm := by
    have same : Compatible settings ↔ Compatible settings' := ⟨(·.perm perm), (·.perm perm.symm)⟩
    constructor
    · intro options
      rw [setAll_eq_ok_iff, setAll_eq_ok_iff, same]
      exact and_congr_right fun compatible => by rw [collected_perm compatible perm.symm]
    · intro config
      rw [configure_eq_ok_iff, configure_eq_ok_iff, same]
      exact and_congr_right fun compatible => by rw [collected_perm compatible perm.symm]
  refused index := by
    simp only [configure_refuses_iff, setAll_eq_error_iff, Setting.extendable_iff]
    constructor
    · rintro ⟨inside, before, after⟩
      exact ⟨inside, fun _ le => before.take_of_le le, after⟩
    · rintro ⟨inside, before, after⟩
      exact ⟨inside, before index (Nat.le_refl _), after⟩
  incomplete := by
    rw [configure_lacks_iff, build_eq_ok_iff, Setting.extendable_iff]
  kept options collects := by
    obtain ⟨compatible, rfl⟩ := setAll_eq_ok_iff.mp collects
    exact holds_collected compatible

example : (configure [.recordStats, .weakValues, .recordStats, .softValues] :
    Except (Option Nat × CacheError) (Config Nat Nat)) =
      .error (some 3, .conflict "value_strength" "value strength was already set to Weak") := by
  rfl

end Options
end SegmentedCache
