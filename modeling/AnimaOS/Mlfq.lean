import AnimaOS.FixedWidth
import AnimaOS.Machine

/-!
# The iteration-aware multi-level feedback queue

`TaskAgenda`, `IterationAwareMlfq` and the loop that runs them. A task carries a
`stamp` the source does not have: no function reads it, the code's tasks have
`Unit` there, and runs are compared across stamps.
-/

namespace Mlfq

open FixedWidth

universe u v

structure Task (G : Type u) where
  id : Nat
  mlfqLevel : Nat
  prompt : String
  tokenBudget : Option Nat
  stamp : G
  deriving DecidableEq, Repr

/-- The level, clamped to the last tier. -/
def tierOf {G : Type u} (t : Task G) : Nat := min t.mlfqLevel 2

variable {G : Type u} {H : Type v}

structure TaskAgenda (G : Type u) where
  high : List (Task G)
  medium : List (Task G)
  low : List (Task G)
  deriving DecidableEq, Repr

def TaskAgenda.new : TaskAgenda G := ⟨[], [], []⟩

def push (a : TaskAgenda G) (t : Task G) : TaskAgenda G :=
  match tierOf t with
  | 0 => { a with high := a.high ++ [t] }
  | 1 => { a with medium := a.medium ++ [t] }
  | _ => { a with low := a.low ++ [t] }

def len (a : TaskAgenda G) : Nat := a.high.length + a.medium.length + a.low.length

def selectOptimalTask (a : TaskAgenda G) : Option (Task G × TaskAgenda G) :=
  match a.high with
  | t :: rest => some (t, { a with high := rest })
  | [] =>
    match a.medium with
    | t :: rest => some (t, { a with medium := rest })
    | [] =>
      match a.low with
      | t :: rest => some (t, { a with low := rest })
      | [] => none

def toHigh (t : Task G) : Task G := { t with mlfqLevel := 0 }

/-- Medium, then Low, is appended behind High; the number promoted is returned. -/
def boostAllToHigh (a : TaskAgenda G) : TaskAgenda G × Nat :=
  (⟨a.high ++ a.medium.map toHigh ++ a.low.map toHigh, [], []⟩, a.medium.length + a.low.length)

inductive StreamingCompletion where
  | token (text : String)
  | done
  | cancelled
  deriving DecidableEq, Repr

inductive LlmBackendError where
  | provider (message : String)
  | cancelled
  deriving DecidableEq, Repr

abbrev Stream := Except LlmBackendError (List StreamingCompletion)

structure TaskOutcome (G : Type u) where
  task : Task G
  response : String
  tokensEmitted : Nat
  deriving DecidableEq, Repr

structure TierCounters where
  high : Nat
  medium : Nat
  low : Nat
  deriving DecidableEq, Repr

def TierCounters.count (c : TierCounters) : Nat → TierCounters
  | 0 => { c with high := satAdd 64 c.high 1 }
  | 1 => { c with medium := satAdd 64 c.medium 1 }
  | _ => { c with low := satAdd 64 c.low 1 }

structure IterationAwareMlfq (G : Type u) where
  dispatchedTasks : List (Task G)
  maxDispatchedTasks : Nat
  tierCounters : TierCounters
  totalTokensDispatched : Nat
  boostInterval : Nat
  dispatchCount : Nat
  deriving DecidableEq, Repr

def defaultMaxDispatchedTasks : Nat := 10_000

def withBoostInterval (boostInterval : Nat) : IterationAwareMlfq G :=
  ⟨[], defaultMaxDispatchedTasks, ⟨0, 0, 0⟩, 0, boostInterval, 0⟩

def boostDue (s : IterationAwareMlfq G) : Bool :=
  !(s.boostInterval = 0 || s.dispatchCount = 0) && s.dispatchCount % s.boostInterval = 0

def checkAndBoost (s : IterationAwareMlfq G) (a : TaskAgenda G) : TaskAgenda G × Nat :=
  if boostDue s then boostAllToHigh a else (a, 0)

/-- The history keeps its newest entries; a cap of zero keeps them all. -/
def boundHistory (cap : Nat) (history : List (Task G)) : List (Task G) :=
  if cap > 0 then history.drop (history.length - cap) else history

/-- The event loop of a dispatch, up to the end of the stream or of the budget. -/
def drainStream (budget : Option Nat) (response : String) (tokensEmitted : Nat) :
    List StreamingCompletion → Except LlmBackendError (String × Nat)
  | [] => .ok (response, tokensEmitted)
  | .token text :: rest =>
    let tokensEmitted := satAdd 32 tokensEmitted 1
    let response := response ++ text
    match budget with
    | some budget =>
      if tokensEmitted ≥ budget then .ok (response, tokensEmitted)
      else drainStream (some budget) response tokensEmitted rest
    | none => drainStream none response tokensEmitted rest
  | .done :: rest => drainStream budget response tokensEmitted rest
  | .cancelled :: _ => .error .cancelled

/-- Counters and history change before the backend is called. -/
def recordDispatch (s : IterationAwareMlfq G) (task : Task G) : IterationAwareMlfq G :=
  { s with
    tierCounters := s.tierCounters.count (tierOf task)
    dispatchedTasks := boundHistory s.maxDispatchedTasks (s.dispatchedTasks ++ [task])
    dispatchCount := satAdd 64 s.dispatchCount 1 }

def dispatchTask (s : IterationAwareMlfq G) (task : Task G) (backend : String → Stream) :
    IterationAwareMlfq G × Except LlmBackendError (TaskOutcome G) :=
  let s := recordDispatch s task
  match backend task.prompt with
  | .error e => (s, .error e)
  | .ok stream =>
    match drainStream task.tokenBudget "" 0 stream with
    | .error e => (s, .error e)
    | .ok (response, tokensEmitted) =>
      ({ s with totalTokensDispatched := satAdd 64 s.totalTokensDispatched tokensEmitted },
        .ok ⟨task, response, tokensEmitted⟩)

/-! ## The scheduler loop -/

structure Loop (G : Type u) where
  agenda : TaskAgenda G
  scheduler : IterationAwareMlfq G
  deriving DecidableEq, Repr

def start (boostInterval : Nat) : Loop G := ⟨TaskAgenda.new, withBoostInterval boostInterval⟩

/-- What arrives before an iteration, and the backend its dispatch would call. -/
structure Iteration (G : Type u) where
  arrivals : List (Task G)
  backend : String → Stream

def pushAll (a : TaskAgenda G) (ts : List (Task G)) : TaskAgenda G := ts.foldl push a

/-- Boost, select, dispatch: the agenda the arrivals leave is served once. -/
def serve (s : IterationAwareMlfq G) (a : TaskAgenda G) (backend : String → Stream) :
    Loop G × Option (Task G) :=
  let a := (checkAndBoost s a).1
  match selectOptimalTask a with
  | some (task, a) => (⟨a, (dispatchTask s task backend).1⟩, some task)
  | none => (⟨a, s⟩, none)

def step (l : Loop G) (i : Iteration G) : Loop G × Option (Task G) :=
  serve l.scheduler (pushAll l.agenda i.arrivals) i.backend

end Mlfq
