import SegmentedCache.Cache.Basic

namespace SegmentedCache

/-!
How a cache and its client talk. The client sends events. Each is answered by a signal, which may ask the client to
run the loader or the listener, and the event that tells how that ended lets the call go on.
-/

structure LoaderCall (K V : Type) where
  key : K
  source : Source
  purpose : Purpose V

inductive LoaderEnd (V : Type) where
  | value (value : Shared V)
  | nothing
  | failed (failure : Failure)
  | panicked (message : String)

inductive ListenerEnd where
  | quiet
  | panicked (message : Option String)

inductive Event (K V τ : Type) where
  | call (thread : ThreadId) (request : Request K V)
  | proceed (thread : ThreadId)
  | loaderEnded (thread : ThreadId) (ending : LoaderEnd V)
  | listenerEnded (thread : ThreadId) (ending : ListenerEnd)
  | setClock (clock : τ)
  /-- Another thread takes a lock, or gives it back. -/
  | contend (contended : Bool)
  /-- Shut the background down. What is queued there must be dropped first. -/
  | closeBackground

inductive Signal (K V : Type) where
  | progress
  | idle
  | runLoader (call : LoaderCall K V)
  | notify (notice : Notice K V)
  | blocked
  | returned (reply : Reply K V)
  | panicked (message : String)

end SegmentedCache
