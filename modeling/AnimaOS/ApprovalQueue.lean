import AnimaOS.Machine

/-!
# The approval queue

Proposals of the agent wait here for an operator. The queue keeps a status for
every proposal and, beside it, a log of what was done.
-/

namespace ApprovalQueue

open Machine

inductive ProposalKind where
  | newSkill (name description promptHash : String)
  | newTool (name description wasmHash : String) (requestedCapabilities : List String)
  | weightUpdate (modelId adapterHash : String) (rank : Option Nat) (trainingSummary : String)
  deriving DecidableEq, Repr

inductive ProposalStatus where
  | pending
  | approved (approvedAtNs : Nat) (reason : String)
  | rejected (rejectedAtNs : Nat) (reason : String)
  | rolledBack (rolledBackAtNs : Nat) (reason : String)
  deriving DecidableEq, Repr

structure SandboxTestResult where
  passed : Bool
  fuelConsumed : Nat
  peakMemoryBytes : Nat
  summary : String
  deriving DecidableEq, Repr

structure DefenceVerdict where
  cleared : Bool
  flaggedBy : List String
  summary : String
  deriving DecidableEq, Repr

structure Proposal where
  id : String
  kind : ProposalKind
  createdAtNs : Nat
  provenance : String
  sandboxResult : Option SandboxTestResult
  defenceVerdict : Option DefenceVerdict
  status : ProposalStatus
  deriving DecidableEq, Repr

namespace Proposal

def isPending (p : Proposal) : Bool :=
  match p.status with
  | .pending => true
  | _ => false

def isApproved (p : Proposal) : Bool :=
  match p.status with
  | .approved _ _ => true
  | _ => false

end Proposal

structure ApprovalLogEntry where
  proposalId : String
  action : String
  timestampNs : Nat
  reason : Option String
  deriving DecidableEq, Repr

structure Queue where
  proposals : String → Option Proposal
  insertionOrder : List String
  log : List ApprovalLogEntry

def empty : Queue := ⟨fun _ => none, [], []⟩

def Queue.put (q : Queue) (id : String) (p : Proposal) : String → Option Proposal :=
  fun other => if other = id then some p else q.proposals other

def enqueue (q : Queue) (proposal : Proposal) : Queue × Bool :=
  match q.proposals proposal.id with
  | some _ => (q, false)
  | none =>
    ({ proposals := q.put proposal.id proposal
       insertionOrder := q.insertionOrder ++ [proposal.id]
       log := q.log ++ [⟨proposal.id, "enqueued", proposal.createdAtNs, none⟩] }, true)

inductive QueueError where
  | notFound (id : String)
  | isNotPending (id : String) (status : ProposalStatus)
  | isNotApproved (id : String) (status : ProposalStatus)
  deriving DecidableEq, Repr

/-- The message of an error; `debug` writes a status as the derived formatter does. -/
def QueueError.message (debug : ProposalStatus → String) : QueueError → String
  | .notFound id => "proposal '" ++ id ++ "' not found"
  | .isNotPending id status =>
    "proposal '" ++ id ++ "' is not pending (status: " ++ debug status ++ ")"
  | .isNotApproved id status =>
    "proposal '" ++ id ++ "' is not approved (status: " ++ debug status ++ ")"

/-- A decision on proposal `id`: it must be `ready`, and gets the new status and a log entry. -/
def transition (q : Queue) (id : String) (ready : Proposal → Bool)
    (refused : String → ProposalStatus → QueueError) (status : ProposalStatus) (action : String)
    (ts : Nat) (reason : String) : Queue × Except QueueError Unit :=
  match q.proposals id with
  | none => (q, .error (.notFound id))
  | some proposal =>
    if ready proposal then
      ({ q with
         proposals := q.put id { proposal with status := status }
         log := q.log ++ [⟨id, action, ts, some reason⟩] }, .ok ())
    else (q, .error (refused id proposal.status))

def approve (q : Queue) (id reason : String) (ts : Nat) : Queue × Except QueueError Unit :=
  transition q id Proposal.isPending .isNotPending (.approved ts reason) "approved" ts reason

def reject (q : Queue) (id reason : String) (ts : Nat) : Queue × Except QueueError Unit :=
  transition q id Proposal.isPending .isNotPending (.rejected ts reason) "rejected" ts reason

def rollback (q : Queue) (id reason : String) (ts : Nat) : Queue × Except QueueError Unit :=
  transition q id Proposal.isApproved .isNotApproved (.rolledBack ts reason) "rolled_back" ts reason

/-- All proposals in insertion order. -/
def all (q : Queue) : List Proposal := q.insertionOrder.filterMap q.proposals

def approved (q : Queue) : List Proposal := (all q).filter Proposal.isApproved

/-- The calls that change the queue. A decision reads the clock, whose time is part of the call. -/
inductive Op where
  | enqueue (proposal : Proposal)
  | approve (id reason : String) (ts : Nat)
  | reject (id reason : String) (ts : Nat)
  | rollback (id reason : String) (ts : Nat)
  deriving DecidableEq, Repr

inductive Reply where
  | enqueued (added : Bool)
  | decided (answer : Except QueueError Unit)

def Reply.failed : Reply → Bool
  | .enqueued added => !added
  | .decided (.ok ()) => false
  | .decided (.error _) => true

def step (q : Queue) : Op → Queue × Reply
  | .enqueue proposal =>
    let r := ApprovalQueue.enqueue q proposal
    (r.1, .enqueued r.2)
  | .approve id reason ts =>
    let r := ApprovalQueue.approve q id reason ts
    (r.1, .decided r.2)
  | .reject id reason ts =>
    let r := ApprovalQueue.reject q id reason ts
    (r.1, .decided r.2)
  | .rollback id reason ts =>
    let r := ApprovalQueue.rollback q id reason ts
    (r.1, .decided r.2)

def after (ops : List Op) : Queue := final step empty ops

/-! ## What a step does -/

/-- The decisions an operator may take, with the action each logs. -/
inductive Decision : (Proposal → Bool) → ProposalStatus → String → Prop where
  | approves (ts : Nat) (reason : String) :
      Decision Proposal.isPending (.approved ts reason) "approved"
  | rejects (ts : Nat) (reason : String) :
      Decision Proposal.isPending (.rejected ts reason) "rejected"
  | rollsBack (ts : Nat) (reason : String) :
      Decision Proposal.isApproved (.rolledBack ts reason) "rolled_back"

/-- Every call fails and changes nothing, files a new proposal, or decides a filed one. -/
inductive Change (q : Queue) (op : Op) : Queue → Bool → Prop where
  | failed : Change q op q true
  | filed (proposal : Proposal) (made : op = .enqueue proposal)
      (free : q.proposals proposal.id = none) :
      Change q op
        ⟨q.put proposal.id proposal, q.insertionOrder ++ [proposal.id],
          q.log ++ [⟨proposal.id, "enqueued", proposal.createdAtNs, none⟩]⟩ false
  | decided (id : String) (proposal : Proposal) (ready : Proposal → Bool)
      (status : ProposalStatus) (action : String) (ts : Nat) (reason : String)
      (decision : Decision ready status action) (found : q.proposals id = some proposal)
      (met : ready proposal = true) :
      Change q op
        ⟨q.put id { proposal with status := status }, q.insertionOrder,
          q.log ++ [⟨id, action, ts, some reason⟩]⟩ false

/-- A decision is refused and changes nothing, or it gives a ready proposal the new status. -/
theorem transition_cases (q : Queue) (id : String) (ready : Proposal → Bool)
    (refused : String → ProposalStatus → QueueError) (status : ProposalStatus) (action : String)
    (ts : Nat) (reason : String) :
    (∃ e, transition q id ready refused status action ts reason = (q, .error e) ∧
      ∀ p, q.proposals id = some p → ready p = false) ∨
    ∃ p, q.proposals id = some p ∧ ready p = true ∧
      transition q id ready refused status action ts reason =
        (⟨q.put id { p with status := status }, q.insertionOrder,
          q.log ++ [⟨id, action, ts, some reason⟩]⟩, .ok ()) := by
  simp only [transition]
  cases found : q.proposals id with
  | none =>
    refine .inl ⟨_, rfl, ?_⟩
    intro p again
    cases again
  | some p =>
    cases met : ready p with
    | true => exact .inr ⟨p, rfl, met, by simp [met]⟩
    | false =>
      refine .inl ⟨refused id p.status, by simp [met], ?_⟩
      intro other again
      cases again
      exact met

theorem transition_change {ready : Proposal → Bool} {status : ProposalStatus} {action : String}
    (decision : Decision ready status action) (q : Queue) (op : Op) (id : String)
    (refused : String → ProposalStatus → QueueError) (ts : Nat) (reason : String) :
    Change q op (transition q id ready refused status action ts reason).1
      (Reply.decided (transition q id ready refused status action ts reason).2).failed := by
  rcases transition_cases q id ready refused status action ts reason with
    ⟨e, same, -⟩ | ⟨p, found, met, same⟩
  · rw [same]
    exact .failed
  · rw [same]
    exact .decided id p ready status action ts reason decision found met

theorem step_change (q : Queue) (op : Op) : Change q op (step q op).1 (step q op).2.failed := by
  cases op with
  | enqueue proposal =>
    simp only [step, enqueue]
    split
    · exact .failed
    · rename_i free
      exact .filed proposal rfl free
  | approve id reason ts => exact transition_change (.approves ts reason) q _ id _ ts reason
  | reject id reason ts => exact transition_change (.rejects ts reason) q _ id _ ts reason
  | rollback id reason ts => exact transition_change (.rollsBack ts reason) q _ id _ ts reason

theorem after_snoc (ops : List Op) (op : Op) : after (ops ++ [op]) = (step (after ops) op).1 :=
  final_snoc step empty ops op

end ApprovalQueue
