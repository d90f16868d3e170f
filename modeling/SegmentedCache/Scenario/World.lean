import SegmentedCache.Cache.Step
import SegmentedCache.Scenario.Answer
import SegmentedCache.Scenario.Script

namespace SegmentedCache.Scenario

/-!
The world in which a scenario runs: the cache, the objects that its client holds, and how far the scripts have
come.
-/

abbrev Key := Shared String

abbrev Value := Shared UInt64

structure Notes where
  heard : List (Heard Answer) := []
  loads : List (LoadCall Answer) := []
  log : List LogEvent := []

/-- A thread that was started to get a key. It keeps the result of its call and none of the objects. -/
structure Waiter where
  thread : ThreadId
  result : Option (Result Answer)

structure World where
  cache : Cache String UInt64 ManualClock
  timed : Bool
  loader : Option LoaderScript
  listener : Listener
  objects : Nat := 0
  threads : Nat
  heldKeys : List (String × Key) := []
  heldValues : List (String × Value) := []
  kept : List ObjectId := []
  loads : List (String × Nat) := []
  reloads : List (String × Nat) := []
  queued : List (Notice String UInt64) := []
  counted : Nat := 0
  waiters : List (String × Waiter) := []
  notes : List Notes := []

def mainThread : ThreadId := 0

def backgroundThread : ThreadId := 1

abbrev Run := StateM World

def assign {α : Type} (name : String) (value : α) (entries : List (String × α)) : List (String × α) :=
  (name, value) :: entries.filter (·.1 ≠ name)

namespace World

def held (world : World) : Reach :=
  let objects := world.heldKeys.map (·.2.id) ++ world.heldValues.map (·.2.id) ++ world.kept
    ++ world.queued.flatMap Notice.objects
  fun object => objects.contains object

def modifyNotes (world : World) (f : Notes → Notes) : World :=
  match world.notes with
  | [] => world
  | notes :: outer => { world with notes := f notes :: outer }

end World

def newObject {α : Type} (data : α) : Run (Shared α) :=
  modifyGet fun world => (⟨world.objects, data⟩, { world with objects := world.objects + 1 })

def keep {α : Type} (object : Shared α) : Run (Shared α) :=
  modifyGet fun world => (object, { world with kept := object.id :: world.kept })

def resolve {α : Type} (held : List (String × Shared α)) : Named α → Run (Except Refusal (Shared α))
  | .fresh data => return .ok (← keep (← newObject data))
  | .held name =>
      match held.lookup name with
      | none => return .error (.notHeld name)
      | some object => return .ok (← keep object)

def within {α : Type} (run : Run α) : Run α := do
  let kept := (← get).kept
  let result ← run
  modify fun world => { world with kept }
  return result

def resolveKey (key : Named String) : Run (Except Refusal Key) := do
  resolve (← get).heldKeys key

def resolveValue (value : Named UInt64) : Run (Except Refusal Value) := do
  resolve (← get).heldValues value

def resolveKeys : List (Named String) → Run (Except Refusal (List Key))
  | [] => return .ok []
  | key :: rest => do
      match ← resolveKey key with
      | .error refusal => return .error refusal
      | .ok key => return (← resolveKeys rest).map (key :: ·)

def holdValue (hold : Option String) (value : Option Value) : Run Unit :=
  match hold, value with
  | some name, some value => modify fun world =>
      { world with heldValues := assign name value world.heldValues }
  | _, _ => return

def newThread : Run ThreadId :=
  modifyGet fun world => (world.threads, { world with threads := world.threads + 1 })

def collectLog : Run Unit :=
  modify fun world =>
    match world.cache.log with
    | [] => world
    | log =>
        { world with cache := { world.cache with log := [] } }.modifyNotes fun notes =>
          { notes with log := notes.log ++ log }

def send (event : Event String UInt64 ManualClock) : Run Unit := do
  modify fun world =>
    let held := world.held
    { world with cache := (world.cache.step held event).1 }
  collectLog

def advance (thread : ThreadId) : Run (Signal String UInt64) := do
  let signal ← modifyGet fun world =>
    let held := world.held
    let limit := 4 * world.cache.shards.size + 64
    let (cache, signal) := Cache.advance held thread limit world.cache
    (signal, { world with cache })
  collectLog
  return signal

def changeClock (f : ManualClock → ManualClock) : Run Unit := do
  let world ← get
  if world.timed then send (.setClock (f world.cache.clock))

def nextLoad (script : Script) (key : String) : Run Outcome :=
  modifyGet fun world =>
    let count := (world.loads.lookup key).getD 0
    (script.outcome key count, { world with loads := assign key (count + 1) world.loads })

def nextReload (script : Script) (key : String) : Run Outcome :=
  modifyGet fun world =>
    let count := (world.reloads.lookup key).getD 0
    (script.outcome key count, { world with reloads := assign key (count + 1) world.reloads })

def nextOutcome (given : Option Outcome) (call : LoaderCall String UInt64) :
    Run (Outcome × Option UInt64) := do
  match call.source, given, (← get).loader with
  | .given, some outcome, _ => return (outcome, none)
  | .bound, _, some script =>
      match call.purpose, script.reload with
      | .renew old, some reload | .renewLater old, some reload =>
          return (← nextReload reload call.key, some old.data)
      | _, _ => return (← nextLoad script.load call.key, none)
  | _, _, _ => return (.mk none .nothing, none)

def endLoader (key : String) (old : Option UInt64) : Ending → Run (LoaderEnd UInt64)
  | .panic message => return .panicked message
  | .fail texts => return .failed (Failure.ofTexts texts)
  | .give value => return .value (← newObject value)
  | .add amount => return .value (← newObject (old.getD 0 + amount))
  | .length => return .value (← newObject (UInt64.ofNat key.utf8ByteSize))
  | .nothing => return .nothing

def takeSteps (key : Option String) : Run (Option (List Step)) := do
  match key, (← get).listener with
  | some key, .recording steps panics =>
      modify fun world => { world with listener := .recording (steps.filter (·.1 ≠ key)) panics }
      return steps.lookup key
  | _, _ => return none

def listenerEnd (panics : List (String × PanicPayload)) (key : Option String) : ListenerEnd :=
  match key, key.bind fun key => panics.lookup key with
  | some key, some .text => .panicked (some ("listener: " ++ key))
  | _, some .fixed => .panicked (some "static text")
  | _, some .other => .panicked none
  | _, _ => .quiet

def note (f : Notes → Notes) : Run Unit :=
  modify (·.modifyNotes f)

def noteKept : Run Unit :=
  modify fun world =>
    let queued := world.queued.map fun notice =>
      Heard.removal (notice.key.map (·.data)) (notice.value.map (·.data)) notice.cause none
    let counted := if world.counted = 0 then [] else [Heard.count world.counted]
    { world with queued := [], counted := 0 }.modifyNotes fun notes =>
      { notes with heard := notes.heard ++ queued ++ counted }

end SegmentedCache.Scenario
