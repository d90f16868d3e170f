import SegmentedCache.Scenario.World

namespace SegmentedCache.Scenario

/-!
Running the steps of a scenario. Loaders and listeners run steps of their own, so a step that drives a call may run
further steps. How deep they may be nested is limited by a number that only has to be large enough.
-/

inductive Ended where
  | returned (reply : Reply String UInt64)
  | panicked (message : String)
  | blocked

namespace Ended

def value? : Ended → Option Value
  | returned (.value found) => found
  | returned (.outcome (.ok found)) => some found
  | _ => none

def result : Ended → Result Answer
  | returned .done => .nothing
  | returned (.flag b) => .flag b
  | returned (.value none) => .nothing
  | returned (.value (some found)) => .number found.data
  | returned (.outcome (.ok found)) => .number found.data
  | returned (.outcome (.error error)) => .error error
  | returned (.entries found) => .entries (found.map fun entry => (entry.1.data, entry.2.data))
  | returned (.gathered (.ok found)) => .entries (found.map fun entry => (entry.1.data, entry.2.data))
  | returned (.gathered (.error error)) => .error error
  | panicked message => .panicked message
  | blocked => .nothing

def result? : Ended → Option (Result Answer)
  | blocked => none
  | ended => some ended.result

def effect : Ended → Result Answer
  | panicked message => .panicked message
  | _ => .nothing

def entries : Ended → List (String × UInt64)
  | returned reply => reply.listed.map fun entry => (entry.1.data, entry.2.data)
  | _ => []

def keys : Ended → List String
  | returned reply => reply.keys.map (·.data)
  | _ => []

def values : Ended → List UInt64
  | returned reply => reply.values.map (·.data)
  | _ => []

end Ended

def stateOf (world : World) : Result Answer :=
  let segments := world.cache.shards.toList.map (·.segment)
  .shape (segments.map (·.table.size)) (segments.map (·.bound.limit)) (segments.map (·.changes))

def debugText (world : World) : String :=
  (if world.loader.isSome then "LoadingCache" else "Cache") ++ " \x7b .. \x7d"

def waitingReloads (world : World) : Nat :=
  match world.cache.background with
  | .queue reloads => reloads.length
  | _ => 0

def gather (run : Run (Result Answer)) : Nat → List (Result Answer) → Run (Result Answer)
  | 0, results => return .repeated results.reverse
  | times + 1, results => do
      match ← run with
      | .panicked message => return .panicked message
      | .refused refusal => return .refused refusal
      | result => gather run times (result :: results)

mutual

/-- Runs the innermost call of a thread until it ends or waits for another thread. `given` is the loader that
came with the call. -/
def drive : Nat → ThreadId → Option Outcome → Run Ended
  | 0, _, _ => return .blocked
  | depth + 1, thread, given => do
      match ← advance thread with
      | .returned reply => return .returned reply
      | .panicked message => return .panicked message
      | .blocked => return .blocked
      | .idle => return .returned .done
      | .progress => drive depth thread given
      | .runLoader call =>
          let (outcome, old) ← nextOutcome given call
          let answers ← runSteps depth thread outcome.steps
          let ending ← endLoader call.key old outcome.ending
          note fun notes => { notes with loads := notes.loads ++ [⟨call.key, old, answers⟩] }
          send (.loaderEnded thread ending)
          drive depth thread given
      | .notify notice =>
          let ending ← listen depth thread notice
          send (.listenerEnded thread ending)
          drive depth thread given

def runSteps : Nat → ThreadId → Option (List Step) → Run (Option (List Answer))
  | 0, _, _ => return none
  | _, _, none => return none
  | depth + 1, thread, some steps => return some (← steps.mapM (runStep depth thread))

def listen : Nat → ThreadId → Notice String UInt64 → Run ListenerEnd
  | 0, _, _ => return .quiet
  | depth + 1, thread, notice => do
      match (← get).listener with
      | .queuing =>
          modify fun world => { world with queued := world.queued ++ [notice] }
          return .quiet
      | .counting =>
          modify fun world => { world with counted := world.counted + 1 }
          return .quiet
      | .recording _ panics =>
          let key := notice.key.map (·.data)
          let answers ← runSteps depth thread (← takeSteps key)
          note fun notes => { notes with
            heard := notes.heard ++ [.removal key (notice.value.map (·.data)) notice.cause answers] }
          return listenerEnd panics key

def ask : Nat → ThreadId → Option Outcome → Request String UInt64 → Run Ended
  | 0, _, _, _ => return .blocked
  | depth + 1, thread, given, request => do
      send (.call thread request)
      drive depth thread given

def runReloads : Nat → Nat → Run Unit
  | 0, _ => return
  | depth + 1, count => do
      for _ in List.range count do
        let _ ← ask depth backgroundThread none .runReload

def wake : Nat → Waiter → Run Waiter
  | 0, waiter => return waiter
  | depth + 1, waiter => do
      match waiter.result with
      | none => return { waiter with result := (← drive depth waiter.thread none).result? }
      | some _ => return waiter

def perform : Nat → ThreadId → Step → Run (Result Answer)
  | 0, _, _ => return .nothing
  | depth + 1, thread, step => do
      let request (request : Request String UInt64) : Run Ended := ask depth thread none request
      /- A request for a key, on behalf of a step that may hold the value. -/
      let forKey (key : Named String) (hold : Option String) (given : Option Outcome)
          (request : Key → Request String UInt64) : Run (Result Answer) := do
        match ← resolveKey key with
        | .error refusal => return .refused refusal
        | .ok key =>
            let ended ← ask depth thread given (request key)
            holdValue hold ended.value?
            return ended.result
      let forPair (key : Named String) (value : Named UInt64) (hold : Option String)
          (result : Ended → Result Answer) (request : Key → Value → Option Outcome × Request String UInt64) :
          Run (Result Answer) := do
        match ← resolveKey key, ← resolveValue value with
        | .error refusal, _ | _, .error refusal => return .refused refusal
        | .ok key, .ok value =>
            let (given, request) := request key value
            let ended ← ask depth thread given request
            holdValue hold ended.value?
            return result ended
      match step with
      | .get key loader hold => forKey key hold (some loader) .get
      | .getWith key value hold =>
          forPair key value hold Ended.result fun key value =>
            (some (.mk none (.give value.data)), .get key)
      | .lookup key hold =>
          let ended ← request (.lookup key)
          holdValue hold ended.value?
          return ended.result
      | .insert key value => forPair key value none Ended.effect fun key value => (none, .insert key value)
      | .put key value hold => forPair key value hold Ended.result fun key value => (none, .insert key value)
      | .putIfNew key value hold =>
          forPair key value hold Ended.result fun key value => (none, .insertIfNew key value)
      | .invalidate key => return (← request (.remove key)).effect
      | .remove key hold =>
          let ended ← request (.remove key)
          holdValue hold ended.value?
          return ended.result
      | .invalidateKeys keys => return (← request (.removeAll keys)).effect
      | .invalidateAll => return (← request .clear).effect
      | .cleanUp => return (← request .cleanUp).effect
      | .releaseSoft => return (← request .releaseSoft).effect
      | .contains key => return (← request (.contains key)).result
      | .entries => return .entries (← request .entries).entries
      | .keys => return .keys (← request .entries).keys
      | .values => return .values (← request .entries).values
      | .stats => return .stats (← get).cache.stats (← get).timed
      | .state => return stateOf (← get)
      | .check => return .text (if (← get).cache.isConsistent then "consistent" else "inconsistent")
      | .debug => return .text (debugText (← get))
      | .viewLength =>
          let size := (← get).cache.size
          return .length size (size == 0)
      | .load key hold =>
          if (← get).loader.isNone then return .refused .notLoading
          else forKey key hold none .load
      | .loadAll keys =>
          if (← get).loader.isNone then return .refused .notLoading
          else
            match ← resolveKeys keys with
            | .error refusal => return .refused refusal
            | .ok keys => return (← request (.loadAll keys)).result
      | .refresh key =>
          if (← get).loader.isNone then return .refused .notLoading
          else forKey key none none .refresh
      | .advance span =>
          changeClock (·.advance span)
          return .nothing
      | .autoIncrement span =>
          changeClock (·.setStep span)
          return .nothing
      | .holdKey name key =>
          match ← resolveKey key with
          | .error refusal => return .refused refusal
          | .ok key =>
              modify fun world => { world with heldKeys := assign name key world.heldKeys }
              return .nothing
      | .holdValue name value =>
          match ← resolveValue value with
          | .error refusal => return .refused refusal
          | .ok value =>
              holdValue (some name) (some value)
              return .nothing
      | .drop name =>
          let world ← get
          set { world with
            heldKeys := world.heldKeys.filter (·.1 ≠ name)
            heldValues := world.heldValues.filter (·.1 ≠ name) }
          return .flag ((world.heldKeys.lookup name).isSome || (world.heldValues.lookup name).isSome)
      | .again times step => gather (within (perform depth thread step)) times []
      | .fill first count =>
          for offset in List.range count do
            within do
              let n := first + offset
              let key ← keep (← newObject (toString n))
              let value ← keep (← newObject (UInt64.ofNat n))
              let _ ← request (.insert key value)
          return .nothing
      | .thread steps =>
          let thread ← newThread
          return .answers ((← runSteps depth thread (some steps)).getD [])
      | .waiter name key loader =>
          match ← resolveKey key with
          | .error refusal => return .refused refusal
          | .ok key =>
              let thread ← newThread
              let ended ← ask depth thread (some loader) (.get key)
              modify fun world => { world with waiters := assign name ⟨thread, ended.result?⟩ world.waiters }
              return .nothing
      | .join name =>
          match (← get).waiters.lookup name with
          | none => return .refused .noWaiter
          | some waiter =>
              let waiter ← wake depth waiter
              modify fun world => { world with waiters := world.waiters.filter (·.1 ≠ name) }
              return waiter.result.getD .nothing
      | .runBackground =>
          match (← get).cache.background with
          | .none => return .refused .noBackground
          | _ =>
              runReloads depth (waitingReloads (← get))
              return .nothing
      | .stopBackground =>
          match (← get).cache.background with
          | .none => return .refused .noBackground
          | _ =>
              runReloads depth (waitingReloads (← get))
              for _ in List.range (waitingReloads (← get)) do
                let _ ← ask depth backgroundThread none .dropReload
              send .closeBackground
              return .nothing
      | .unknown name => return .refused (.unknownStep name)

/-- Runs a step and answers it. Then all waiters go on that can. -/
def runStep : Nat → ThreadId → Step → Run Answer
  | 0, _, _ => return ⟨.nothing, 0, 0, [], [], []⟩
  | depth + 1, thread, step => do
      modify fun world => { world with notes := {} :: world.notes }
      let result ← within (perform depth thread step)
      for (name, waiter) in (← get).waiters do
        let waiter ← wake depth waiter
        modify fun world => { world with waiters := assign name waiter world.waiters }
      noteKept
      modifyGet fun world =>
        let notes := world.notes.headD {}
        (⟨result, world.cache.size, world.cache.weight, notes.heard, notes.loads, notes.log⟩,
          { world with notes := world.notes.tail })

end

end SegmentedCache.Scenario
