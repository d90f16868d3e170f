import SegmentedCache.Proofs.Cache.Accounting
import SegmentedCache.Proofs.Cache.Mirroring

namespace SegmentedCache

/-!
Without a bound, and with strong keys and values, a cache can not be told from a map that forgets.
-/

variable {K V τ : Type}

namespace Config

variable {config : Config K V}

def limits (config : Config K V) : Lifetime where
  afterWrite := config.expireAfterWrite.map Span.toNanos
  afterAccess := config.expireAfterAccess.map Span.toNanos

/-- Nothing but age takes entries from the cache. -/
structure IsPlain (config : Config K V) : Prop where
  keys : config.keyStrength = .strong
  values : config.valueStrength = .strong
  unbounded : config.maximum = none
  unrenewed : config.refreshAfterWrite = none
  keeps : config.keepsNothing = false

theorem IsPlain.bound (plain : config.IsPlain) : config.bound = none := by
  simp [Config.bound, plain.keeps, plain.unbounded]

end Config

theorem Span.toNanos_pos {span : Span} (positive : span.isZero = false) : 0 < span.toNanos := by
  simp only [isZero, Bool.and_eq_false_iff, beq_eq_false_iff_ne] at positive
  have large : 0 < maxNanos := by decide
  rw [toNanos, Nat.lt_min]
  omega

theorem Config.limits_eq {config : Config K V} (keeps : config.keepsNothing = false) :
    Lifetime.ofSpans config.expireAfterWrite config.expireAfterAccess = config.limits := by
  have kept {expiration : Option Span} (positive : expiration.any Span.isZero = false) :
      (expiration.map Span.toNanos).filter (· > 0) = expiration.map Span.toNanos := by
    cases expiration with
    | none => rfl
    | some span => simpa using Span.toNanos_pos positive
  obtain ⟨written, accessed⟩ := Bool.or_eq_false_iff.mp keeps
  rw [Lifetime.ofSpans, kept written, kept accessed, Config.limits]

theorem Config.IsPlain.policy {config : Config K V} (plain : config.IsPlain) (hash : K → UInt64) (clock : τ)
    (segments index : Nat) :
    (Cache.create config hash clock).policy.Plain config.limits (Bound.share config.bound segments index) where
  keys := plain.keys
  values := plain.values
  lifetime := Config.limits_eq plain.keeps
  tracksReads := by simp [Cache.create, Config.limits_eq plain.keeps, plain.bound]
  refreshAfter := by simp [Cache.create, plain.unrenewed]
  unbounded := by simp [Bound.share, Bound.isBounded, plain.bound]

theorem Segment.mirrors_create [DecidableEq K] {policy : Policy K V} {limits : Lifetime} {bound : Bound}
    (plain : policy.Plain limits bound) (hash : K → UInt64) (exponent now : Nat) :
    (create policy bound (2 ^ exponent)).Mirrors hash limits (fun _ => none) idle now := by
  have nothing (handle : Handle) : (create policy bound (2 ^ exponent)).bare? handle = none := bare?_create ..
  refine ⟨consistent_create policy bound exponent, fun reach => keyed_create .., plain, fun ranking => ?_, ?_,
    fun _ => rfl, fun key => ?_⟩
  · apply List.pairwise_of_forall
    intro first second record record' found
    cases (nothing first).symm.trans found
  · intro handle record found
    cases (nothing handle).symm.trans found
  · cases under : (create policy bound (2 ^ exponent)).under key with
    | none => exact .gone rfl
    | some record =>
        obtain ⟨handle, found, _⟩ := found_of_under under
        cases (nothing handle).symm.trans found

namespace Cache

variable [DecidableEq K] [Clock τ]

def layoutOf (config : Config K V) (hash : K → UInt64) : Layout K where
  hash
  shift := Sizing.hashShift (Sizing.segments config.concurrencyLevel config.bound)
  limits := config.limits

theorem mirrors_create {config : Config K V} (plain : config.IsPlain) (hash : K → UInt64) {clock : τ}
    (forward : Clock.Forward clock) :
    (create config hash clock).Mirrors (layoutOf config hash) (fun _ => none) idle settled (Clock.read clock).1 := by
  refine ⟨rfl, rfl, fun key => ?_, forward, le_rfl, rfl, fun index shard found => ?_⟩
  · rw [size_create]
    exact Sizing.segmentAt_lt config.concurrencyLevel config.bound (hash key)
  · obtain ⟨exponent, rfl⟩ := shard_create found
    have empty : (layoutOf config hash).part index (fun _ => none : Reference K V) = fun _ => none :=
      funext fun _ => ite_self _
    rw [empty, Layout.part_idle]
    exact ⟨Segment.mirrors_create (plain.policy hash clock _ index) hash exponent _, Nat.zero_le _⟩

section Requests

variable {layout : Layout K} {reference : Reference K V} {loads : K → Option LoadId} {extra : Nat → Nat} {now : Nat}
  {held : Reach} {thread : ThreadId} {request : Request K V} {key : Shared K} {source : Source}

theorem Mirrors.steadfast (layout : Layout K) (reference : Reference K V) (loads : K → Option LoadId)
    (extra : Nat → Nat) (now : Nat) :
    Steadfast fun cache : Cache K V τ => cache.Mirrors layout reference loads extra now :=
  ⟨fun _ _ same mirrors => mirrors.sameStore same⟩

structure Expects (layout : Layout K) (reference : Reference K V) (now : Nat) (cache : Cache K V τ) : Prop where
  mirrors : ∃ earlier, cache.Mirrors layout reference idle settled earlier
  next : cache.readClock.1 = now

theorem Expects.steadfast (layout : Layout K) (reference : Reference K V) (now : Nat) :
    Steadfast fun cache : Cache K V τ => cache.Expects layout reference now := by
  refine ⟨fun cache cache' same expects => ⟨expects.mirrors.imp fun _ mirrors => mirrors.sameStore same, ?_⟩⟩
  rw [← expects.next, Cache.readClock, Cache.readClock, same.clock]

structure Answered (layout : Layout K) (reference : Reference K V) (now : Nat) (request : Request K V)
    (loads : List (LoaderEnd V × Nat)) (reply : Reply K V) (cache : Cache K V τ) : Prop where
  agrees : ∃ reference' later,
    reference.Answers layout.hash layout.limits ⟨now, request, loads, reply⟩ reference' ∧
    cache.Mirrors layout reference' idle settled later

theorem goes_give {reference' : Reference K V} {reply : Reply K V} (ended : List (LoaderEnd V × Nat))
    (answers : reference.Answers layout.hash layout.limits ⟨now, request, ended, reply⟩ reference') (later : Nat) :
    Goes held thread (fun loads => Answered layout reference now request (ended ++ loads))
      (fun cache : Cache K V τ => cache.Mirrors layout reference' idle settled later) [.give reply] := by
  apply Goes.give (Mirrors.steadfast ..)
  intro cache mirrors
  rw [List.append_nil]
  exact ⟨reference', later, answers, mirrors⟩

theorem Due.goes {post : List (LoaderEnd V × Nat) → Reply K V → Cache K V τ → Prop}
    {holds : Cache K V τ → Prop} {due rest : List (Frame K V)} (isDue : Due due) (steadfast : Steadfast holds)
    (goes : Goes held thread post holds rest) : Goes held thread post holds (due ++ rest) := by
  rcases isDue with rfl | rfl
  · exact goes
  · exact goes.deliver steadfast

theorem goes_lookup (key : K) :
    Goes held thread (Answered layout reference now (.lookup key))
      (fun cache : Cache K V τ => cache.Expects layout reference now) [.start (.lookup key)] := by
  apply Goes.work rfl
  rintro cache reach ⟨⟨earlier, mirrors⟩, rfl⟩
  obtain ⟨later, due, after, isDue, frames⟩ := mirrors.lookup reach key
  refine ⟨_, Mirrors.steadfast .., after, ?_⟩
  show Goes held thread _ _ ((cache.lookup reach key).2 ++ [])
  rw [frames, List.append_nil]
  exact isDue.goes (Mirrors.steadfast ..) (goes_give [] (.lookup cache.readClock.1 key) later)

theorem goes_put (key : Shared K) (value : Shared V) (onlyIfNew : Bool)
    (asks : request = bif onlyIfNew then .insertIfNew key value else .insert key value) :
    Goes held thread (Answered layout reference now request)
      (fun cache : Cache K V τ => cache.Expects layout reference now) [.start request] := by
  apply Goes.work rfl
  rintro cache reach ⟨⟨earlier, mirrors⟩, rfl⟩
  obtain ⟨frames, after⟩ := mirrors.put reach key value onlyIfNew
  have works : cache.work reach thread (.start request) = cache.put reach key value onlyIfNew := by
    rw [asks]
    cases onlyIfNew <;> rfl
  rw [works, frames]
  refine ⟨_, Mirrors.steadfast .., after, Goes.deliver (Mirrors.steadfast ..) (goes_give [] ?_ _)⟩
  rw [asks]
  cases onlyIfNew with
  | false => exact .insert cache.readClock.1 key value
  | true =>
      cases found : reference.find? layout.limits cache.readClock.1 key.data with
      | none => exact .added found value
      | some old => exact .kept found value

theorem goes_remove (key : K) :
    Goes held thread (Answered layout reference now (.remove key))
      (fun cache : Cache K V τ => cache.Expects layout reference now) [.start (.remove key)] := by
  apply Goes.work rfl
  rintro cache reach ⟨⟨earlier, mirrors⟩, rfl⟩
  obtain ⟨old, after⟩ := mirrors.remove reach key
  refine ⟨_, Mirrors.steadfast .., after, ?_⟩
  show Goes held thread _ _ [.deliver, .give (.value (cache.remove reach key).1)]
  rw [old]
  exact Goes.deliver (Mirrors.steadfast ..) (goes_give [] (.remove cache.readClock.1 key) _)

theorem goes_contains (key : K) :
    Goes held thread (Answered layout reference now (.contains key))
      (fun cache : Cache K V τ => cache.Expects layout reference now) [.start (.contains key)] := by
  apply Goes.work rfl
  rintro cache reach ⟨⟨earlier, mirrors⟩, rfl⟩
  refine ⟨_, Mirrors.steadfast .., mirrors.readClock, ?_⟩
  have live := mirrors.readClock.contains reach key
  show Goes held thread _ _ [.give (.flag ((cache.readClock.2.shards[cache.readClock.2.segmentOf key]?).any fun shard =>
    shard.segment.contains reach cache.readClock.1 (cache.readClock.2.hash key) key))]
  rw [live]
  exact goes_give [] (.contains cache.readClock.1 key) _

theorem goes_entries :
    Goes held thread (Answered layout reference now .entries)
      (fun cache : Cache K V τ => cache.Expects layout reference now) [.start .entries] := by
  apply Goes.work rfl
  rintro cache reach ⟨⟨earlier, mirrors⟩, rfl⟩
  exact ⟨_, Mirrors.steadfast .., mirrors.readClock,
    goes_give [] (.entries cache.readClock.1 (mirrors.readClock.entries reach)) _⟩

def uncleared (layout : Layout K) (reference : Reference K V) (index : Nat) : Reference K V :=
  fun key => if layout.place key < index then none else reference key

omit [DecidableEq K] in
theorem uncleared_succ (layout : Layout K) (reference : Reference K V) (index : Nat) :
    (fun key => if layout.place key = index then none else uncleared layout reference index key) =
      uncleared layout reference (index + 1) := by
  funext key
  unfold uncleared
  grind

structure Alike (layout : Layout K) (reference : Reference K V) (size : Nat) (cache : Cache K V τ) : Prop where
  mirrors : ∃ earlier, cache.Mirrors layout reference idle settled earlier
  size : cache.shards.size = size

theorem Alike.steadfast (layout : Layout K) (reference : Reference K V) (size : Nat) :
    Steadfast fun cache : Cache K V τ => cache.Alike layout reference size :=
  ⟨fun _ _ same alike =>
    ⟨alike.mirrors.imp fun _ mirrors => mirrors.sameStore same, same.shards ▸ alike.size⟩⟩

theorem goes_clear :
    Goes held thread (Answered layout reference now .clear)
      (fun cache : Cache K V τ => cache.Expects layout reference now) [.start .clear] := by
  apply Goes.work rfl
  rintro cache reach ⟨⟨earlier, mirrors⟩, rfl⟩
  generalize cache.readClock.1 = now
  have start : uncleared layout reference 0 = reference := funext fun key => if_neg (Nat.not_lt_zero _)
  refine ⟨fun t => t.Alike layout (uncleared layout reference 0) cache.shards.size, Alike.steadfast ..,
    ⟨⟨earlier, start.symm ▸ mirrors⟩, rfl⟩, ?_⟩
  refine Goes.each (fun index => .clearing index)
    (fun index t => t.Alike layout (uncleared layout reference index) cache.shards.size) cache.shards.size
    (fun _ => rfl) (fun _ => Alike.steadfast ..) ?_ ?_ (Nat.zero_le _)
  · rintro index t reach inside ⟨⟨earlier, mirrors⟩, size⟩
    have cleared := mirrors.clearing (size ▸ inside) reach
    rw [uncleared_succ] at cleared
    dsimp only [Cache.work]
    rw [if_pos (size ▸ inside)]
    exact ⟨⟨⟨earlier, cleared⟩, (changeSegment_steady ..).size.trans size⟩, rfl⟩
  · apply Goes.work rfl
    rintro t reach ⟨⟨earlier, mirrors⟩, size⟩
    have all : uncleared layout reference cache.shards.size = fun _ => none := by
      funext key
      exact if_pos (size ▸ mirrors.chosen key)
    rw [all] at mirrors
    dsimp only [Cache.work]
    rw [size, if_neg (Nat.lt_irrefl _)]
    exact ⟨_, Mirrors.steadfast .., mirrors.sameStore ⟨rfl, rfl, rfl, rfl, rfl⟩,
      goes_give [] (.clear now) earlier⟩

theorem goes_cleanUp :
    Goes held thread (Answered layout reference now .cleanUp)
      (fun cache : Cache K V τ => cache.Expects layout reference now) [.start .cleanUp] := by
  apply Goes.work rfl
  rintro cache reach ⟨⟨earlier, mirrors⟩, rfl⟩
  generalize cache.readClock.1 = now
  refine ⟨fun t => t.Alike layout reference cache.shards.size, Alike.steadfast ..,
    ⟨⟨earlier, mirrors⟩, rfl⟩, ?_⟩
  refine Goes.each (fun index => .sweeping index) (fun _ t => t.Alike layout reference cache.shards.size)
    cache.shards.size (fun _ => rfl) (fun _ => Alike.steadfast ..) ?_ ?_ (Nat.zero_le _)
  · rintro index t reach inside ⟨⟨later, mirrors⟩, size⟩
    dsimp only [Cache.work]
    rw [if_pos (size ▸ inside)]
    exact ⟨⟨⟨_, mirrors.readClock.sweeping (size ▸ inside) reach⟩,
      (changeSegment_steady ..).size.trans size⟩, rfl⟩
  · apply Goes.work rfl
    rintro t reach ⟨⟨later, mirrors⟩, size⟩
    dsimp only [Cache.work]
    rw [size, if_neg (Nat.lt_irrefl _)]
    exact ⟨_, Mirrors.steadfast .., mirrors, goes_give [] (.cleanUp now) later⟩

theorem goes_found {value : Shared V} (gets : request.Gets key)
    (found : reference.find? layout.limits now key.data = some value) :
    Goes held thread (Answered layout reference now request)
      (fun cache : Cache K V τ => cache.Mirrors layout (reference.touch layout.limits now key.data) idle
        (Function.update settled (layout.place key.data) 1) now) [.found key source value none] := by
  apply Goes.work rfl
  intro cache reach mirrors
  obtain ⟨later, counted, isDue⟩ := mirrors.countRead reach
  have works : cache.work reach thread (.found key source value none) =
      ((cache.countRead reach (layout.place key.data)).1,
        (cache.countRead reach (layout.place key.data)).2 ++ [.answer key source value none]) := by
    rw [← mirrors.segmentOf]
    rfl
  rw [works, List.append_nil]
  refine ⟨_, Mirrors.steadfast .., counted, isDue.goes (Mirrors.steadfast ..) ?_⟩
  apply Goes.work rfl
  intro cache reach mirrors
  exact ⟨_, Mirrors.steadfast .., mirrors, goes_give [] (.hit gets found) later⟩

theorem goes_conclude {reference' : Reference K V} {ended : List (LoaderEnd V × Nat)} {outcome : LoadOutcome V}
    {flight : Flight} {objects : List ObjectId}
    (answers : reference.Answers layout.hash layout.limits ⟨now, request, ended, .outcome outcome⟩ reference')
    (later : Nat) :
    Goes held thread (fun loads => Answered layout reference now request (ended ++ loads))
      (fun cache : Cache K V τ => cache.Mirrors layout reference' idle settled later)
      [.deliver, .settle flight outcome, .conclude source .fetch outcome, .holding objects] := by
  apply Goes.deliver (Mirrors.steadfast ..)
  apply Goes.work rfl
  intro cache reach mirrors
  refine ⟨_, Mirrors.steadfast .., mirrors.modifyLoad flight (·.settle outcome), ?_⟩
  apply Goes.work rfl
  intro cache reach mirrors
  exact ⟨_, Mirrors.steadfast .., mirrors, Goes.giveHolding (Mirrors.steadfast ..) (goes_give ended answers later)⟩

theorem goes_loading {load : LoadId} {started earlier : Nat} {objects : List ObjectId} (gets : request.Gets key)
    (missing : reference.find? layout.limits now key.data = none) :
    Goes held thread (Answered layout reference now request)
      (fun cache : Cache K V τ =>
        cache.Mirrors layout reference (Function.update idle key.data (some load)) settled earlier)
      [.loading key ⟨layout.place key.data, load⟩ started source .fetch, .holding objects] := by
  apply Goes.load
  intro cache reach clock ending mirrors passes quiet
  have passed : Cache.Mirrors layout reference (Function.update idle key.data (some load)) settled earlier
      { cache with clock } :=
    ⟨mirrors.hash, mirrors.shift, mirrors.chosen, passes.forward, mirrors.ahead.trans passes.le, mirrors.alone,
      mirrors.shards⟩
  obtain ⟨outcome, ends, frames, after⟩ := passed.endLoader reach started source .fetch quiet
  have answers : reference.Answers layout.hash layout.limits
      ⟨now, request, [(ending, (Clock.read clock).1)], .outcome outcome⟩
      (outcome.toOption.elim reference fun value => reference.store key.data value (Clock.read clock).1) := by
    rcases ends with ⟨value, rfl, rfl⟩ | ⟨error, failed, rfl⟩
    · exact .loaded gets missing value _
    · exact .failed gets missing failed _
  refine ⟨_, Mirrors.steadfast .., after, ?_⟩
  rw [frames]
  exact goes_conclude answers _

theorem goes_granted {load : LoadId} (gets : request.Gets key)
    (missing : reference.find? layout.limits now key.data = none) :
    Goes held thread (Answered layout reference now request)
      (fun cache : Cache K V τ =>
        cache.Mirrors layout reference (Function.update idle key.data (some load)) settled now)
      [.deliver, .claimed key source (layout.place key.data) (.granted load)] := by
  apply Goes.deliver (Mirrors.steadfast ..)
  apply Goes.work rfl
  intro cache reach mirrors
  exact ⟨_, Mirrors.steadfast .., (mirrors.count (·.countMiss)).readClock, goes_loading gets missing⟩

theorem goes_claim (gets : request.Gets key) (missing : reference.find? layout.limits now key.data = none) :
    Goes held thread (Answered layout reference now request)
      (fun cache : Cache K V τ => cache.Mirrors layout reference idle settled now) [.claim key source now] := by
  apply Goes.work rfl
  intro cache reach mirrors
  obtain ⟨load, frames, after⟩ := mirrors.claim reach thread missing source
  show ∃ holds', _ ∧ holds' (cache.claim reach thread key source now).1 ∧
    Goes held thread _ holds' ((cache.claim reach thread key source now).2 ++ [])
  rw [frames]
  exact ⟨_, Mirrors.steadfast .., after, goes_granted gets missing⟩

theorem goes_find (gets : request.Gets key) :
    Goes held thread (Answered layout reference now request)
      (fun cache : Cache K V τ => cache.Expects layout reference now) [.find key source] := by
  apply Goes.work rfl
  rintro cache reach ⟨⟨earlier, mirrors⟩, rfl⟩
  have works : cache.work reach thread (.find key source) = cache.find reach key source := rfl
  rw [works, List.append_nil]
  rcases mirrors.find reach key source with ⟨value, present, frames, after⟩ | ⟨missing, frames, after⟩
  · rw [frames]
    exact ⟨_, Mirrors.steadfast .., after, goes_found gets present⟩
  · rw [frames]
    exact ⟨_, Mirrors.steadfast .., after, goes_claim gets missing⟩

theorem goes_get (gets : request.Gets key) (source : Source)
    (starts : ∀ (cache : Cache K V τ) reach, cache.startRequest reach thread request = (cache, [.find key source])) :
    Goes held thread (Answered layout reference now request)
      (fun cache : Cache K V τ => cache.Expects layout reference now) [.start request] := by
  apply Goes.work rfl
  intro cache reach expects
  have works : cache.work reach thread (.start request) = (cache, [.find key source]) := starts cache reach
  rw [works]
  exact ⟨_, Expects.steadfast .., expects, goes_find gets⟩

theorem goes_request (request : Request K V) (known : request.isKnown = true) :
    Goes held thread (Answered layout reference now request)
      (fun cache : Cache K V τ => cache.Expects layout reference now) [.start request] := by
  cases request with
  | lookup key => exact goes_lookup key
  | get key => exact goes_get .get .given fun _ _ => rfl
  | load key => exact goes_get .load .bound fun _ _ => rfl
  | insert key value => exact goes_put key value false rfl
  | insertIfNew key value => exact goes_put key value true rfl
  | remove key => exact goes_remove key
  | clear => exact goes_clear
  | cleanUp => exact goes_cleanUp
  | contains key => exact goes_contains key
  | entries => exact goes_entries
  | loadAll | refresh | removeAll | releaseSoft | runReload | dropReload => cases known

end Requests

/-- The states between requests, with what the requests so far led to. Before a request, and while a loader runs,
time may pass. -/
inductive Served (config : Config K V) (hash : K → UInt64) (clock : τ) :
    List (Exchange K V) → Cache K V τ → Prop where
  | create : Served config hash clock [] (create config hash clock)
  | serve {exchanges : List (Exchange K V)} {cache cache' : Cache K V τ} {loads : List (LoaderEnd V × Nat)}
      {reply : Reply K V} (served : Served config hash clock exchanges cache) {clock' : τ}
      (passes : Clock.Passes cache.clock clock') (held : Reach) (thread : ThreadId) {request : Request K V}
      (known : request.isKnown = true)
      (serves : Serves held thread ({ cache with clock := clock' }.step held (.call thread request)).1 loads reply
        cache') :
      Served config hash clock (exchanges ++ [⟨(Clock.read clock').1, request, loads, reply⟩]) cache'

def play (isLater : τ → τ → Bool) (held : Reach) (thread : ThreadId) (limit : Nat) :
    List (τ × Request K V × List (τ × LoaderEnd V)) → Cache K V τ →
      Option (List (Exchange K V) × Cache K V τ)
  | [], cache => some ([], cache)
  | (clock, request, endings) :: rest, cache =>
      if isLater cache.clock clock && request.isKnown then do
        let (loads, reply, cache) ←
          ({ cache with clock }.step held (.call thread request)).1.serve isLater held thread limit endings
        let (exchanges, cache) ← cache.play isLater held thread limit rest
        some (⟨(Clock.read clock).1, request, loads, reply⟩ :: exchanges, cache)
      else none

theorem Served.play {config : Config K V} {hash : K → UInt64} {clock : τ} {isLater : τ → τ → Bool}
    {held : Reach} {thread : ThreadId}
    (passes : ∀ clock clock', isLater clock clock' = true → Clock.Passes clock clock') {limit : Nat}
    {requests : List (τ × Request K V × List (τ × LoaderEnd V))} {exchanges exchanges' : List (Exchange K V)}
    {cache cache' : Cache K V τ} (served : Served config hash clock exchanges cache)
    (plays : cache.play isLater held thread limit requests = some (exchanges', cache')) :
    Served config hash clock (exchanges ++ exchanges') cache' := by
  fun_induction Cache.play isLater held thread limit requests cache generalizing exchanges exchanges' with
  | case1 cache =>
      cases plays
      rwa [List.append_nil]
  | case2 cache clock request endings rest known ih =>
      obtain ⟨later, known⟩ := Bool.and_eq_true_iff.mp known
      obtain ⟨⟨loads, reply, t⟩, served', plays⟩ := Option.bind_eq_some_iff.mp plays
      obtain ⟨⟨following, t'⟩, plays, equal⟩ := Option.bind_eq_some_iff.mp plays
      cases equal
      have next := ih t (served.serve (passes _ _ later) held thread known (serves_of_serve passes served')) plays
      rwa [List.append_assoc] at next
  | case3 => cases plays

section Runs

variable {config : Config K V} {hash : K → UInt64} {clock : τ} {exchanges : List (Exchange K V)}
  {cache : Cache K V τ}

theorem Mirrors.completes {layout : Layout K} {reference : Reference K V} {now : Nat}
    (mirrors : cache.Mirrors layout reference idle settled now) {clock : τ} (passes : Clock.Passes cache.clock clock)
    (held : Reach) (thread : ThreadId) {request : Request K V} (known : request.isKnown = true) :
    Completes held thread (Answered layout reference (Clock.read clock).1 request)
      ({ cache with clock }.step held (.call thread request)).1 := by
  have passed : Cache.Mirrors layout reference idle settled now { cache with clock } :=
    ⟨mirrors.hash, mirrors.shift, mirrors.chosen, passes.forward, mirrors.ahead.trans passes.le, mirrors.alone,
      mirrors.shards⟩
  exact (goes_request request known).call (Expects.steadfast ..) ⟨⟨now, passed⟩, rfl⟩

theorem Served.mirrors (served : Served config hash clock exchanges cache) (plain : config.IsPlain)
    (forward : Clock.Forward clock) :
    ∃ reference now, Reference.Follows hash config.limits exchanges reference ∧
      cache.Mirrors (layoutOf config hash) reference idle settled now := by
  induction served with
  | create => exact ⟨_, _, .start, mirrors_create plain hash forward⟩
  | serve _ passes held thread known serves ih =>
      obtain ⟨reference, now, follows, mirrors⟩ := ih
      have completes := mirrors.completes passes held thread known
      obtain ⟨reference', later, answers, mirrors'⟩ := (completes.of_serves serves).agrees
      exact ⟨reference', later, follows.answer answers, mirrors'⟩

/-- Every run of requests is answered as the map answers them, and every further request will be. -/
theorem follows_of_served (plain : config.IsPlain) (forward : Clock.Forward clock)
    (served : Served config hash clock exchanges cache) :
    (∃ reference, Reference.Follows hash config.limits exchanges reference) ∧
      ∀ clock', Clock.Passes cache.clock clock' →
        ∀ held thread (request : Request K V), request.isKnown = true →
        Completes held thread
          (fun loads reply _ => ∃ reference, Reference.Follows hash config.limits
            (exchanges ++ [⟨(Clock.read clock').1, request, loads, reply⟩]) reference)
          ({ cache with clock := clock' }.step held (.call thread request)).1 := by
  obtain ⟨reference, now, follows, mirrors⟩ := served.mirrors plain forward
  refine ⟨⟨reference, follows⟩, fun clock' passes held thread request known => ?_⟩
  refine (mirrors.completes passes held thread known).imp fun loads reply cache' answered => ?_
  obtain ⟨reference', _, answers, _⟩ := answered.agrees
  exact ⟨reference', follows.answer answers⟩

def Reply.data? : Reply K V → Option V
  | .value value => value.map (·.data)
  | .outcome (.ok value) => some value.data
  | _ => none

def Exchange.data? (exchange : Exchange K V) : Option V :=
  Reply.data? exchange.reply

theorem follows_after_expiring :
    ∃ (exchanges : List (Exchange Nat Nat)) (reference : Reference Nat Nat),
      exchanges.map Exchange.data? = [none, some 70, some 70, none, some 71] ∧
        Reference.Follows (fun _ => 3) { afterWrite := some 5 } exchanges reference := by
  let config : Config Nat Nat :=
    { initialCapacity := 1, concurrencyLevel := 2, expireAfterWrite := some (.ofNanos 5), listens := true }
  have plain : config.IsPlain := ⟨rfl, rfl, rfl, rfl, rfl⟩
  have passes : Clock.Passes ({} : ManualClock) {} := ManualClock.passes rfl
  obtain ⟨⟨exchanges, cache⟩, plays, replies⟩ :
      ∃ run, (create config (fun _ => 3) ({} : ManualClock)).play
          (fun clock clock' => clock'.step == 0 && clock.nanos ≤ clock'.nanos) (fun _ => true) 0 20
          [({ nanos := 1 }, .lookup 7, []),
           ({ nanos := 1 }, .get ⟨0, 7⟩, [({ nanos := 4 }, .value ⟨1, 70⟩)]),
           ({ nanos := 8 }, .lookup 7, []),
           ({ nanos := 9 }, .lookup 7, []),
           ({ nanos := 9 }, .load ⟨2, 7⟩, [({ nanos := 9 }, .value ⟨3, 71⟩)])] = some run ∧
        run.1.map Exchange.data? = [none, some 70, some 70, none, some 71] :=
    ⟨_, (Option.some_get (by decide +kernel)).symm, by decide +kernel⟩
  have limits : config.limits = { afterWrite := some 5 } := by
    rw [Config.limits, show config.expireAfterWrite = some (.ofNanos 5) from rfl, Option.map_some,
      show (Span.ofNanos 5).toNanos = 5 by decide]
    rfl
  have served := Served.create.play (fun _ _ => ManualClock.passes) plays
  obtain ⟨reference, follows⟩ := (follows_of_served plain passes.forward served).1
  exact ⟨exchanges, reference, replies, limits ▸ follows⟩

end Runs
end Cache
end SegmentedCache
