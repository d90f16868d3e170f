import SegmentedCache.CacheError
import SegmentedCache.Shared
import SegmentedCache.Span

namespace SegmentedCache

/-!
Configuring a cache. Options are given one by one. Each may be given once, and is refused when its value is out
of range or when it contradicts an option given earlier. What can only be judged when all are known is judged at
the end.
-/

inductive Setting (K V : Type) where
  | initialCapacity (entries : Nat)
  | concurrencyLevel (threads : Nat)
  | maximumSize (entries : Nat)
  | maximumWeight (weight : Nat)
  | weigher (weigh : K → V → Nat)
  | weakKeys
  | weakValues
  | softValues
  | expireAfterWrite (span : Span)
  | expireAfterAccess (span : Span)
  | refreshAfterWrite (span : Span)
  | clock
  | removalListener
  | recordStats
  | background

structure Options (K V : Type) where
  initialCapacity : Option Nat := none
  concurrencyLevel : Option Nat := none
  maximumSize : Option Nat := none
  maximumWeight : Option Nat := none
  weigher : Option (K → V → Nat) := none
  keyStrength : Option Strength := none
  valueStrength : Option Strength := none
  expireAfterWrite : Option Span := none
  expireAfterAccess : Option Span := none
  refreshAfterWrite : Option Span := none
  clock : Bool := false
  removalListener : Bool := false
  recordStats : Bool := false
  background : Bool := false

structure Config (K V : Type) where
  initialCapacity : Nat
  concurrencyLevel : Nat
  maximum : Option Nat := none
  weigher : Option (K → V → Nat) := none
  keyStrength : Strength := .strong
  valueStrength : Strength := .strong
  expireAfterWrite : Option Span := none
  expireAfterAccess : Option Span := none
  refreshAfterWrite : Option Span := none
  listens : Bool := false
  recordsStats : Bool := false
  background : Bool := false

namespace Options

variable {K V : Type}

def defaultCapacity : Nat := 16

def defaultConcurrency : Nat := 4

def once (given : Bool) (option : String) : Except CacheError Unit :=
  if given then .error (.givenTwice option) else .ok ()

def demand (holds : Bool) (error : CacheError) : Except CacheError Unit :=
  if holds then .ok () else .error error

def setValueStrength (options : Options K V) (strength : Strength) : Except CacheError (Options K V) :=
  match options.valueStrength with
  | some given =>
      .error (.conflict "value_strength" ("value strength was already set to " ++ given.name))
  | none => .ok { options with valueStrength := some strength }

def set (options : Options K V) : Setting K V → Except CacheError (Options K V)
  | .initialCapacity entries => do
      once options.initialCapacity.isSome "initial_capacity"
      return { options with initialCapacity := some entries }
  | .concurrencyLevel threads => do
      once options.concurrencyLevel.isSome "concurrency_level"
      demand (threads != 0) (.badValue "concurrency_level" "must be positive")
      return { options with concurrencyLevel := some threads }
  | .maximumSize entries => do
      once options.maximumSize.isSome "maximum_size"
      demand options.maximumWeight.isNone (.conflict "maximum_size" "maximum weight was already set")
      demand options.weigher.isNone
        (.conflict "maximum_size" "maximum size can not be combined with a weigher")
      return { options with maximumSize := some entries }
  | .maximumWeight weight => do
      once options.maximumWeight.isSome "maximum_weight"
      demand options.maximumSize.isNone (.conflict "maximum_weight" "maximum size was already set")
      return { options with maximumWeight := some weight }
  | .weigher weigh => do
      once options.weigher.isSome "weigher"
      demand options.maximumSize.isNone
        (.conflict "weigher" "weigher can not be combined with maximum size")
      return { options with weigher := some weigh }
  | .weakKeys =>
      match options.keyStrength with
      | some given => .error (.conflict "key_strength" ("key strength was already set to " ++ given.name))
      | none => .ok { options with keyStrength := some .weak }
  | .weakValues => options.setValueStrength .weak
  | .softValues => options.setValueStrength .soft
  | .expireAfterWrite span => do
      once options.expireAfterWrite.isSome "expire_after_write"
      return { options with expireAfterWrite := some span }
  | .expireAfterAccess span => do
      once options.expireAfterAccess.isSome "expire_after_access"
      return { options with expireAfterAccess := some span }
  | .refreshAfterWrite span => do
      once options.refreshAfterWrite.isSome "refresh_after_write"
      demand (!span.isZero) (.badValue "refresh_after_write" "must be positive")
      return { options with refreshAfterWrite := some span }
  | .clock => do
      once options.clock "ticker"
      return { options with clock := true }
  | .removalListener => do
      once options.removalListener "removal_listener"
      return { options with removalListener := true }
  | .recordStats => .ok { options with recordStats := true }
  | .background => do
      once options.background "spawner"
      return { options with background := true }

/-- Gives the options in turn. A refusal comes with the number of the option refused. -/
def setAll (options : Options K V) : List (Setting K V) → Except (Nat × CacheError) (Options K V)
  | [] => .ok options
  | setting :: rest =>
      match options.set setting with
      | .error error => .error (0, error)
      | .ok options =>
          match options.setAll rest with
          | .error (index, error) => .error (index + 1, error)
          | .ok options => .ok options

def build (options : Options K V) : Except CacheError (Config K V) :=
  match options.weigher.isSome, options.maximumWeight.isSome with
  | true, false => .error (.conflict "weigher" "weigher requires a maximum weight")
  | false, true => .error (.conflict "maximum_weight" "maximum weight requires a weigher")
  | _, _ =>
      .ok
        { initialCapacity := options.initialCapacity.getD defaultCapacity
          concurrencyLevel := options.concurrencyLevel.getD defaultConcurrency
          maximum := options.maximumSize.or options.maximumWeight
          weigher := options.weigher
          keyStrength := options.keyStrength.getD .strong
          valueStrength := options.valueStrength.getD .strong
          expireAfterWrite := options.expireAfterWrite
          expireAfterAccess := options.expireAfterAccess
          refreshAfterWrite := options.refreshAfterWrite
          listens := options.removalListener
          recordsStats := options.recordStats
          background := options.background }

def shown (options : Options K V) : Text.Shown :=
  let number (option : Option Nat) := Text.Shown.optional (option.map .number)
  let strength (option : Option Strength) := Text.Shown.optional (option.map fun s => .atom s.name)
  let span (option : Option Span) := Text.Shown.optional (option.map Span.shown)
  .record "CacheBuilder"
    [("initial_capacity", number options.initialCapacity),
     ("concurrency_level", number options.concurrencyLevel),
     ("maximum_size", number options.maximumSize),
     ("maximum_weight", number options.maximumWeight),
     ("key_strength", strength options.keyStrength),
     ("value_strength", strength options.valueStrength),
     ("expire_after_write", span options.expireAfterWrite),
     ("expire_after_access", span options.expireAfterAccess),
     ("refresh_after_write", span options.refreshAfterWrite),
     ("record_stats", .flag options.recordStats)]

end Options

namespace Config

variable {K V : Type}

def keepsNothing (config : Config K V) : Bool :=
  config.expireAfterWrite.any Span.isZero || config.expireAfterAccess.any Span.isZero

def bound (config : Config K V) : Option Nat :=
  if config.keepsNothing then some 0 else config.maximum

end Config
end SegmentedCache
