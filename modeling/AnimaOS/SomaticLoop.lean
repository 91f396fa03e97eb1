import AnimaOS.Prospective
import AnimaOS.SensoryBridge

/-!
# The somatic execution loop

Intake of sensory packets, injection of due intentions and dispatch, as the loop
interleaves them over one agenda, with restarts that reopen the intention store.
A task's `stamp` says what it was made from, which the code does not keep.
-/

namespace SomaticLoop

open FixedWidth Mlfq Prospective
open SensoryBridge (SensoryOrigin SensoryPriority)

/-- `prompt` is the text, or the line that describes samples or an image. -/
structure PrioritizedPacket where
  prompt : String
  priority : SensoryPriority
  gateOverrideReason : Option String
  origin : SensoryOrigin
  deriving DecidableEq, Repr

def priorityToMlfqTier : SensoryPriority → Nat
  | .critical => 0
  | .high => 0
  | .normal => 1
  | .low => 2

inductive Source where
  | packet (origin : SensoryOrigin)
  | intention (id : Nat) (repeatIntervalNs : Option Nat)
  | caller
  deriving DecidableEq, Repr

def maxTrackedOperatorTasks : Nat := 256

/-- Where the ids of sensory tasks start, above those of the callers. -/
def firstSensoryTaskId : Nat := 2 ^ 63

structure LifecycleManager where
  agenda : TaskAgenda Source
  scheduler : IterationAwareMlfq Source
  nextSensoryTaskId : Nat
  gateOperatorInput : Bool
  operatorTasks : Finset Nat
  /-- Whether a conversation memory is installed. -/
  conversation : Bool
  intentions : Option IntentionStore
  deriving DecidableEq

/-- The running loop and the file of its intention store. -/
structure World where
  manager : LifecycleManager
  file : Option IntentionFile
  deriving DecidableEq

/-! ## Sensory ingestion -/

/-- A packet and what the Striatal Gate decides if it is asked. -/
structure Arrival where
  packet : PrioritizedPacket
  invoke : Bool
  deriving DecidableEq, Repr

def gateThis (m : LifecycleManager) (p : PrioritizedPacket) : Bool :=
  p.gateOverrideReason.isSome || (p.origin.isOperator && m.gateOperatorInput)

def admitted (m : LifecycleManager) (a : Arrival) : Bool := !gateThis m a.packet || a.invoke

/-- A full set gives up its lowest id. -/
def trackOperatorTask (tasks : Finset Nat) (taskId : Nat) : Finset Nat :=
  if full : maxTrackedOperatorTasks ≤ tasks.card ∧ tasks.Nonempty then
    insert taskId (tasks.erase (tasks.min' full.2))
  else insert taskId tasks

/-- The id is used up even if the gate declines the packet. -/
def takeIn (m : LifecycleManager) (a : Arrival) : LifecycleManager :=
  let taskId := m.nextSensoryTaskId
  let next := { m with nextSensoryTaskId := wrap 64 (taskId + 1) }
  if admitted m a then
    { next with
      operatorTasks :=
        if a.packet.origin.isOperator then trackOperatorTask m.operatorTasks taskId
        else m.operatorTasks
      agenda := push m.agenda ⟨taskId, priorityToMlfqTier a.packet.priority, a.packet.prompt,
        none, .packet a.packet.origin⟩ }
  else next

def takeInAll (m : LifecycleManager) (arrivals : List Arrival) : LifecycleManager :=
  arrivals.foldl takeIn m

/-! ## One iteration -/

def overdueGraceNs : Nat := 3_600_000_000_000

def intentionSource (i : Intention) : Source := .intention i.id i.repeatIntervalNs

/-- The result of the scan is discarded, a failed flush included. -/
def injectDue (w : World) (nowNs : Nat) (io : Except String Unit) : World :=
  match w.manager.intentions with
  | none => w
  | some store =>
    let injected := injectDueIntentions intentionSource ⟨store, w.file⟩ w.manager.agenda nowNs
      overdueGraceNs io
    ⟨{ w.manager with intentions := some injected.1.store, agenda := injected.2.1 },
      injected.1.file⟩

structure Iteration where
  arrivals : List Arrival
  nowNs : Nat
  io : Except String Unit
  /-- Whether the active bounds could be read; the loop returns if not. -/
  bounds : Bool
  /-- What the conversation memory makes of a task's guidance. -/
  compose : Nat → String → String
  backend : String → Stream

/-- Boost, intake and injection, in this order. -/
def ingest (w : World) (i : Iteration) : World :=
  let boosted := { w.manager with
    agenda := (checkAndBoost w.manager.scheduler w.manager.agenda).1 }
  injectDue ⟨takeInAll boosted i.arrivals, w.file⟩ i.nowNs i.io

inductive ConversationCall where
  | compose (taskId : Nat) (guidance : String)
  | recordReply (taskId : Nat) (response : String)
  deriving DecidableEq, Repr

/-- A dispatched task, what the conversation memory was called with, and the result. -/
structure Dispatch where
  task : Mlfq.Task Source
  calls : List ConversationCall
  outcome : Except LlmBackendError (TaskOutcome Source)

/-- The calls for a task of the operator: its guidance, then the reply if there is one. -/
def conversationTurn (task : Mlfq.Task Source)
    (outcome : Except LlmBackendError (TaskOutcome Source)) : List ConversationCall :=
  .compose task.id task.prompt ::
    match outcome with
    | .ok outcome => [.recordReply task.id outcome.response]
    | .error _ => []

def dispatchSelected (m : LifecycleManager) (i : Iteration) (task : Mlfq.Task Source) :
    LifecycleManager × Dispatch :=
  let operatorTask := decide (task.id ∈ m.operatorTasks)
  let sent :=
    if operatorTask && m.conversation then { task with prompt := i.compose task.id task.prompt }
    else task
  let result := dispatchTask m.scheduler sent i.backend
  ({ m with operatorTasks := m.operatorTasks.erase task.id, scheduler := result.1 },
    ⟨task, if operatorTask && m.conversation then conversationTurn task result.2 else [],
      result.2⟩)

/-- An iteration that finds the agenda empty sleeps, which leaves this state as it is. -/
def iterate (w : World) (i : Iteration) : World × Option Dispatch :=
  let ready := ingest w i
  if i.bounds then
    match selectOptimalTask ready.manager.agenda with
    | none => (ready, none)
    | some (task, agenda) =>
      let dispatched := dispatchSelected { ready.manager with agenda := agenda } i task
      (⟨dispatched.1, ready.file⟩, some dispatched.2)
  else (ready, none)

/-! ## Runs -/

/-- What a host does with a store it has opened, before the loop takes it over. -/
inductive StoreCall where
  | addOnce (description : String) (dueAtNs nowNs : Nat) (io : Except String Unit)
  | addRecurring (description : String) (dueAtNs intervalNs nowNs : Nat) (io : Except String Unit)
  | remove (id : Nat) (io : Except String Unit)
  | complete (id nowNs : Nat) (io : Except String Unit)

def callStore (k : Kept) : StoreCall → Kept
  | .addOnce description dueAtNs nowNs io => (addOnce k description dueAtNs nowNs io).1
  | .addRecurring description dueAtNs intervalNs nowNs io =>
    (addRecurring k description dueAtNs intervalNs nowNs io).1
  | .remove id io => (remove k id io).1
  | .complete id nowNs io => (complete k id nowNs io).1

structure Boot where
  gateOperatorInput : Bool
  conversation : Bool
  boostInterval : Nat
  /-- The calls on the reopened store; `none` installs no store. -/
  intentions : Option (List StoreCall)

def LifecycleManager.new (b : Boot) (intentions : Option IntentionStore) : LifecycleManager :=
  ⟨TaskAgenda.new, withBoostInterval b.boostInterval, firstSensoryTaskId, b.gateOperatorInput, ∅,
    b.conversation, intentions⟩

def boot (file : Option IntentionFile) (b : Boot) : World :=
  match b.intentions with
  | none => ⟨.new b none, file⟩
  | some calls =>
    let k := calls.foldl callStore ⟨openStore file, file⟩
    ⟨.new b (some k.store), k.file⟩

inductive Op where
  | push (id mlfqLevel : Nat) (prompt : String) (tokenBudget : Option Nat)
  | iterate (i : Iteration)
  | restart (b : Boot)

def step (w : World) : Op → World × Option Dispatch
  | .push id mlfqLevel prompt tokenBudget =>
    ({ w with
      manager := { w.manager with
        agenda := push w.manager.agenda ⟨id, mlfqLevel, prompt, tokenBudget, .caller⟩ } }, none)
  | .iterate i => iterate w i
  | .restart b => (boot w.file b, none)

end SomaticLoop
