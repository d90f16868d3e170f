import SegmentedCache.Scenario.Run

namespace SegmentedCache.Scenario

/-!
Whole scenarios: a cache is configured, and then the steps are run on it.
-/

namespace Choice

def setting? : Choice → Option (Setting String UInt64)
  | setting option => some option
  | listener _ => some .removalListener
  | unknown _ => none

def listener? : Choice → Option Listener
  | listener script => some script
  | _ => none

end Choice

/-- Gives the options up to the first unknown one, which is refused when all before it were accepted. -/
def configure (choices : List Choice) : Except Report (Options String UInt64) :=
  let known := choices.takeWhile (·.setting?.isSome)
  match Options.setAll {} (known.filterMap (·.setting?)), choices.drop known.length with
  | .error (index, error), _ => .error (.misconfigured error (some index))
  | .ok _, .unknown name :: _ => .error (.refused (.unknownOption name))
  | .ok options, _ => .ok options

def depthLimit : Nat := 1 <<< 30

structure Plan where
  choices : List Choice
  hashing : Hashing := .fnv
  loader : Option LoaderScript := none
  steps : List Step := []

namespace Plan

def report (plan : Plan) : Except Report Report := do
  let options ← configure plan.choices
  let config ← options.build.mapError (.misconfigured · none)
  let cache := Cache.create config plan.hashing.hash ({} : ManualClock)
  let world : World :=
    { cache := { cache with log := [] }
      timed := options.clock
      loader := plan.loader
      listener := (plan.choices.findSome? (·.listener?)).getD .counting
      threads := backgroundThread + 1 }
  return .ran cache.log ((plan.steps.mapM (runStep depthLimit mainThread)).run world).1

def run (plan : Plan) : Report :=
  match plan.report with
  | .ok report | .error report => report

end Plan
end SegmentedCache.Scenario
