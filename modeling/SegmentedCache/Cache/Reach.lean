import SegmentedCache.Cache.Basic

namespace SegmentedCache

/-!
What a cache itself keeps reachable apart from its entries: the arguments and the intermediate results of calls
in progress, removals that were not delivered, and background reloads.
-/

variable {K V τ : Type}

namespace Request

def objects : Request K V → List ObjectId
  | .get key | .load key | .refresh key => [key.id]
  | .loadAll keys => keys.map (·.id)
  | .insert key value | .insertIfNew key value => [key.id, value.id]
  | _ => []

end Request

namespace Purpose

def objects : Purpose V → List ObjectId
  | .fetch => []
  | .renew old | .renewLater old => [old.id]

end Purpose

namespace Reply

def objects : Reply K V → List ObjectId
  | .value (some object) | .outcome (.ok object) => [object.id]
  | .entries found | .gathered (.ok found) => found.flatMap fun entry => [entry.1.id, entry.2.id]
  | _ => []

end Reply

namespace Frame

def objects : Frame K V → List ObjectId
  | .find key _ | .claim key _ _ | .await key _ | .cancel key _ | .claimed key _ _ (.granted _)
  | .claimed key _ _ (.taken _) => [key.id]
  | .claimed key _ _ (.needless value) => [key.id, value.id]
  | .renew key _ _ value | .found key _ value _ | .answer key _ value _ => [key.id, value.id]
  | .settle _ (.ok value) | .conclude _ _ (.ok value) => [value.id]
  | .holding objects => objects
  | .give reply => reply.objects
  | .gather key rest gathered =>
      key.id :: rest.map (·.id) ++ gathered.flatMap fun entry => [entry.1.id, entry.2.id]
  | .renewed key renewal => key.id :: (renewal.map (·.2.id)).toList
  | _ => []

def awaited? : Frame K V → Option Flight
  | .await _ flight => some flight
  | .claimed _ _ segment (.taken load) => some ⟨segment, load⟩
  | _ => none

end Frame

namespace Cache

/-- The value of a settled load, while there is a caller who has yet to pick it up. -/
def awaitedObjects (cache : Cache K V τ) (frame : Frame K V) : List ObjectId :=
  match (frame.awaited?.bind cache.load?).bind (·.outcome) with
  | some (.ok value) => [value.id]
  | _ => []

def callObjects (cache : Cache K V τ) (call : Call K V) : List ObjectId :=
  call.arguments ++ call.frames.flatMap fun frame => frame.objects ++ cache.awaitedObjects frame

def backgroundObjects : Background K V → List ObjectId
  | .queue reloads => reloads.flatMap fun reload => [reload.key.id, reload.old.id]
  | _ => []

def objects (cache : Cache K V τ) : List ObjectId :=
  cache.undelivered.flatMap Removal.objects ++ backgroundObjects cache.background
    ++ cache.calls.toList.flatMap fun calls => calls.flatMap cache.callObjects

/-- The objects that are reachable when the client holds on to `held`. Where nothing can be reclaimed it does
not matter what the cache itself refers to. -/
def reach (cache : Cache K V τ) (held : Reach) : Reach :=
  let kept := if cache.policy.reclaims then cache.objects else []
  fun object => held object || kept.contains object

end Cache
end SegmentedCache
