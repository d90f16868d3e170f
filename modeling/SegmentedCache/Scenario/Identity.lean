import SegmentedCache.Cache.Step
import SegmentedCache.Scenario.Hashing

namespace SegmentedCache.Scenario

/-!
A cache of one segment whose loader gives every key back as its value, and counts how often it was called.
-/

structure Batch where
  entries : List (String × String)
  calls : Nat
  size : Nat

structure IdentityRun where
  cache : Cache String String ManualClock
  calls : Nat := 0
  objects : Nat := 0

namespace IdentityRun

def create : Except CacheError IdentityRun := do
  let options ← Options.set {} (.concurrencyLevel 1)
  let config ← options.build
  return { cache := Cache.create config Hashing.fnv.hash {} }

def finish : Nat → IdentityRun → List (String × String) × IdentityRun
  | 0, run => ([], run)
  | limit + 1, run =>
      let (cache, signal) := run.cache.proceed (fun _ => true) 0
      let run := { run with cache }
      match signal with
      | .progress => finish limit run
      | .runLoader call =>
          let loaded : Shared String := ⟨run.objects, call.key⟩
          finish limit { run with
            cache := (run.cache.step (fun _ => true) (.loaderEnded 0 (.value loaded))).1
            calls := run.calls + 1
            objects := run.objects + 1 }
      | .returned (.gathered (.ok entries)) => (entries.map fun entry => (entry.1.data, entry.2.data), run)
      | _ => ([], run)

def getAll (run : IdentityRun) (keys : List String) : Batch × IdentityRun :=
  let objects := keys.mapIdx fun index key => (⟨run.objects + index, key⟩ : Shared String)
  let cache := (run.cache.step (fun _ => true) (.call 0 (.loadAll objects))).1
  let (entries, run) := { run with cache, objects := run.objects + keys.length }.finish (16 * keys.length + 16)
  (⟨entries, run.calls, run.cache.size⟩, run)

def batches (run : IdentityRun) : List (List String) → List Batch
  | [] => []
  | keys :: rest =>
      let (batch, run) := run.getAll keys
      batch :: run.batches rest

end IdentityRun
end SegmentedCache.Scenario
