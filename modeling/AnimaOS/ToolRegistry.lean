import AnimaOS.FixedWidth
import AnimaOS.Machine

/-!
# The tool registry and its circuit breakers

`CircuitBreaker` and the two critical sections of `ToolRegistry::dispatch`, the
admission check and the record of the outcome. The driver runs between them with
the lock released, so a run is any order of such sections. Times are nanoseconds
of the monotonic clock.
-/

namespace ToolRegistry

open FixedWidth Machine

universe u

inductive ToolInvocationError where
  | invalidPayload
  | executionFailed (message : String)
  | breakerOpen
  deriving DecidableEq, Repr

inductive BreakerState where
  | closed
  | opened
  | halfOpen
  deriving DecidableEq, Repr

structure CircuitBreaker where
  failureCount : Nat
  state : BreakerState
  lastFailure : Option Nat
  cooldown : Nat
  deriving DecidableEq, Repr

namespace CircuitBreaker

def new : CircuitBreaker := ⟨0, .closed, none, 30_000_000_000⟩

def withCooldown (cooldown : Nat) : CircuitBreaker := { new with cooldown := cooldown }

def recordFailure (b : CircuitBreaker) (openThreshold now : Nat) : CircuitBreaker :=
  let b := { b with failureCount := satAdd 32 b.failureCount 1, lastFailure := some now }
  if b.failureCount ≥ openThreshold then { b with state := .opened } else b

def recordSuccess (b : CircuitBreaker) : CircuitBreaker :=
  let b := { b with failureCount := 0 }
  if b.state = .halfOpen then { b with state := .closed } else b

def verifyPathwayHealth (b : CircuitBreaker) (now : Nat) :
    CircuitBreaker × Except ToolInvocationError Unit :=
  if b.state = .opened then
    match b.lastFailure with
    | some lastFail =>
      if now - lastFail > b.cooldown then ({ b with state := .halfOpen }, .ok ())
      else (b, .error .breakerOpen)
    | none => (b, .error .breakerOpen)
  else (b, .ok ())

end CircuitBreaker

/-- A driver: what it does when invoked is up to the environment of a run. -/
structure ToolDriver (D : Type u) where
  id : String
  code : D
  deriving DecidableEq, Repr

structure ToolEnvelope where
  toolId : String
  payload : List UInt8
  deriving DecidableEq, Repr

abbrev ToolResult := Except ToolInvocationError (List UInt8)

variable {D : Type u}

structure RegistryEntry (D : Type u) where
  driver : ToolDriver D
  breaker : CircuitBreaker
  deriving DecidableEq, Repr

abbrev Entries (D : Type u) := String → Option (RegistryEntry D)

def insert (entries : Entries D) (id : String) (entry : RegistryEntry D) : Entries D :=
  fun other => if other = id then some entry else entries other

def defaultOpenThreshold : Nat := 5

/-- The constants of the source, which the results below keep general. -/
structure Settings where
  openThreshold : Nat
  cooldown : Nat
  deriving DecidableEq, Repr

def Settings.default : Settings := ⟨defaultOpenThreshold, CircuitBreaker.new.cooldown⟩

/-- A driver registered again starts with a new breaker. -/
def register (cfg : Settings) (entries : Entries D) (driver : ToolDriver D) : Entries D :=
  insert entries driver.id ⟨driver, CircuitBreaker.withCooldown cfg.cooldown⟩

/-- The first critical section of a dispatch. -/
def checkAdmission (entries : Entries D) (envelope : ToolEnvelope) (now : Nat) :
    Entries D × Except ToolInvocationError (ToolDriver D) :=
  match entries envelope.toolId with
  | none => (entries, .error (.executionFailed ("unknown tool: " ++ envelope.toolId)))
  | some entry =>
    let checked := entry.breaker.verifyPathwayHealth now
    let entries := insert entries envelope.toolId { entry with breaker := checked.1 }
    match checked.2 with
    | .error e => (entries, .error e)
    | .ok () => (entries, .ok entry.driver)

/-- The second: the entry may be gone or new, and an open breaker's refusal is not recorded. -/
def recordOutcome (cfg : Settings) (entries : Entries D) (toolId : String) (result : ToolResult)
    (now : Nat) : Entries D :=
  match entries toolId with
  | none => entries
  | some entry =>
    match result with
    | .ok _ => insert entries toolId { entry with breaker := entry.breaker.recordSuccess }
    | .error .breakerOpen => entries
    | .error _ =>
      insert entries toolId
        { entry with breaker := entry.breaker.recordFailure cfg.openThreshold now }

def breakerOf (entries : Entries D) (id : String) : Option CircuitBreaker :=
  (entries id).map RegistryEntry.breaker

def breakerState (entries : Entries D) (id : String) : Option BreakerState :=
  (breakerOf entries id).map CircuitBreaker.state

/-! ## Interleaved dispatches -/

structure Flight (D : Type u) where
  envelope : ToolEnvelope
  driver : ToolDriver D
  deriving DecidableEq, Repr

structure System (D : Type u) where
  entries : Entries D
  inFlight : List (Flight D)
  now : Nat

def empty : System D := ⟨fun _ => none, [], 0⟩

inductive Event (D : Type u) where
  | register (driver : ToolDriver D)
  | dispatchBegin (envelope : ToolEnvelope)
  | dispatchEnd (flight : Nat) (result : ToolResult)

/-- The clock advances by `elapsed`, then the event takes the lock. -/
structure Request (D : Type u) where
  elapsed : Nat
  event : Event D

inductive Response (D : Type u) where
  | registered
  | admitted (driver : ToolDriver D)
  | refused (error : ToolInvocationError)
  | returned (result : ToolResult)
  | idle

def step (cfg : Settings) (s : System D) (r : Request D) : System D × Response D :=
  let now := s.now + r.elapsed
  match r.event with
  | .register driver => (⟨register cfg s.entries driver, s.inFlight, now⟩, .registered)
  | .dispatchBegin envelope =>
    match checkAdmission s.entries envelope now with
    | (entries, .ok driver) => (⟨entries, s.inFlight ++ [⟨envelope, driver⟩], now⟩, .admitted driver)
    | (entries, .error e) => (⟨entries, s.inFlight, now⟩, .refused e)
  | .dispatchEnd flight result =>
    match s.inFlight[flight]? with
    | some f =>
      (⟨recordOutcome cfg s.entries f.envelope.toolId result now, s.inFlight.eraseIdx flight, now⟩,
        .returned result)
    | none => (⟨s.entries, s.inFlight, now⟩, .idle)

def after (cfg : Settings) (run : List (Request D)) : System D := final (step cfg) empty run

end ToolRegistry
