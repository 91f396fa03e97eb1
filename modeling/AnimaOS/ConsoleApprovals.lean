import AnimaOS.AdapterLibrary
import AnimaOS.ApprovalQueue
import AnimaOS.TextSplit

/-!
# Operator decisions at the console

What the approve and reject endpoints do with the queue, what they forward to
the adapter library, and the proposals that adopted adapters become.
-/

namespace ConsoleApprovals

open AdapterLibrary ApprovalQueue TextSplit

/-! ## Proposals of adopted adapters -/

def proposalIdOf (adapterId weightsDigest : String) : String := adapterId ++ "@" ++ weightsDigest

def adapterAdoptionToProposal (artifact : AdapterArtifact) (decision : AdoptionDecision)
    (trainingSummary : String) (nowNs : Nat) : Option Proposal :=
  if !decision.approved || artifact.adapterId ≠ decision.adapterId ||
      artifact.weightsDigest ≠ decision.weightsDigest || !artifact.isMountable then none
  else
    some
      { id := proposalIdOf artifact.adapterId artifact.weightsDigest
        kind := .weightUpdate artifact.provenance.baseModel artifact.weightsDigest
          artifact.provenance.method.rank trainingSummary
        createdAtNs := nowNs
        provenance := "self-trained adapter `" ++ artifact.adapterId ++ "` (" ++
          artifact.provenance.method.label ++
          "); cleared finetune adoption gate (eval + alignment), job `" ++
          artifact.provenance.sourceJob ++ "`"
        sandboxResult := none
        defenceVerdict := none
        status := .pending }

/-! ## The endpoints -/

/-- The text before the last `@` of a proposal id, or all of it. -/
def adapterIdOf (proposalId : String) : String :=
  match rsplitOnce '@' proposalId.toList with
  | some (before, _) => String.ofList before
  | none => proposalId

/-- The adapter id and digest that a decision on the proposal is forwarded with. -/
def weightOp (queue : Queue) (proposalId : String) : Option (String × String) :=
  match queue.proposals proposalId with
  | some p =>
    match p.kind with
    | .weightUpdate _ adapterHash _ _ => some (adapterIdOf p.id, adapterHash)
    | .newSkill _ _ _ => none
    | .newTool _ _ _ _ => none
  | none => none

structure Forward where
  approve : Bool
  adapterId : String
  weightsDigest : String
  deriving DecidableEq, Repr

/-- What the handler makes of a request body. -/
inductive ActionBody where
  | tooLarge
  | notUtf8
  | notJson
  | reason (reason : String)
  deriving DecidableEq, Repr

structure Response where
  status : Nat
  body : String
  deriving DecidableEq, Repr

def jsonString (s : String) : String :=
  "\"" ++ String.ofList (s.toList.flatMap fun c =>
    match c with
    | '"' => ['\\', '"']
    | '\\' => ['\\', '\\']
    | '\n' => ['\\', 'n']
    | '\r' => ['\\', 'r']
    | '\t' => ['\\', 't']
    | c => [c]) ++ "\""

structure ActionResult where
  queue : Queue
  response : Response
  forward : Option Forward

/-- The part of the handler under the queue's lock; the forward reaches the library later, under the
library's own lock. -/
def decideProposal (debug : ProposalStatus → String) (queue : Queue) (proposalId : String)
    (approve : Bool) (reason : String) (ts : Nat) : ActionResult :=
  let weight := weightOp queue proposalId
  let decided :=
    if approve then ApprovalQueue.approve queue proposalId reason ts
    else ApprovalQueue.reject queue proposalId reason ts
  match decided.2 with
  | .ok () =>
    ⟨decided.1, ⟨200, "\x7b\"ok\":true\x7d"⟩,
      weight.map fun (adapterId, digest) => ⟨approve, adapterId, digest⟩⟩
  | .error e =>
    ⟨decided.1, ⟨422, "\x7b\"ok\":false,\"error\":" ++ jsonString (e.message debug) ++ "\x7d"⟩, none⟩

def serveApprovalAction (debug : ProposalStatus → String) (queue : Queue) (proposalId : String)
    (approve : Bool) (body : ActionBody) (ts : Nat) : ActionResult :=
  match body with
  | .tooLarge =>
    ⟨queue, ⟨413, "\x7b\"ok\":false,\"error\":\"request body exceeds 4 KiB limit\"\x7d"⟩, none⟩
  | .notUtf8 =>
    ⟨queue, ⟨400, "\x7b\"ok\":false,\"error\":\"request body is not valid UTF-8\"\x7d"⟩, none⟩
  | .notJson =>
    ⟨queue, ⟨400, "\x7b\"ok\":false,\"error\":\"request body is not valid JSON\"\x7d"⟩, none⟩
  | .reason reason => decideProposal debug queue proposalId approve reason ts

def forwardDecision (lib : Library) (f : Forward) : Library :=
  if f.approve then recordOperatorApproval lib f.adapterId f.weightsDigest
  else revokeOperatorApproval lib f.adapterId f.weightsDigest

/-! ## Ids of proposals -/

theorem adapterIdOf_proposalIdOf {digest : String} (plain : '@' ∉ digest.toList)
    (adapterId : String) : adapterIdOf (proposalIdOf adapterId digest) = adapterId := by
  have text : (proposalIdOf adapterId digest).toList = adapterId.toList ++ '@' :: digest.toList := by
    simp [proposalIdOf]
  rw [adapterIdOf, text, rsplitOnce_last plain]
  exact String.ofList_toList

theorem proposalIdOf_inj {adapterId adapterId' digest digest' : String}
    (plain : '@' ∉ digest.toList) (plain' : '@' ∉ digest'.toList)
    (same : proposalIdOf adapterId digest = proposalIdOf adapterId' digest') :
    adapterId = adapterId' ∧ digest = digest' := by
  have ids : adapterId = adapterId' := by
    rw [← adapterIdOf_proposalIdOf plain adapterId, same, adapterIdOf_proposalIdOf plain']
  subst ids
  refine ⟨rfl, String.toList_inj.mp ?_⟩
  simpa [proposalIdOf] using congrArg String.toList same

/-! ## What the endpoints do -/

theorem proposal_of_adoption {artifact : AdapterArtifact} {decision : AdoptionDecision}
    {trainingSummary : String} {nowNs : Nat} {proposal : Proposal}
    (made : adapterAdoptionToProposal artifact decision trainingSummary nowNs = some proposal) :
    proposal.id = proposalIdOf artifact.adapterId artifact.weightsDigest ∧
      proposal.status = .pending ∧ ∃ modelId rank,
        proposal.kind = .weightUpdate modelId artifact.weightsDigest rank trainingSummary := by
  rw [adapterAdoptionToProposal] at made
  split at made
  · cases made
  · cases made
    exact ⟨rfl, rfl, _, _, rfl⟩

/-- An action is refused, or it decides a pending proposal and forwards the decision. -/
theorem action_cases (debug : ProposalStatus → String) (queue : Queue) (proposalId : String)
    (approve : Bool) (body : ActionBody) (ts : Nat) :
    let r := serveApprovalAction debug queue proposalId approve body ts
    (r.queue = queue ∧ r.forward = none ∧ r.response.status ≠ 200) ∨
    ∃ p reason log, queue.proposals proposalId = some p ∧ p.isPending = true ∧
      r.queue = ⟨queue.put proposalId { p with
          status := if approve then .approved ts reason else .rejected ts reason },
        queue.insertionOrder, log⟩ ∧
      r.forward = (weightOp queue proposalId).map fun (id, digest) => ⟨approve, id, digest⟩ := by
  cases body with
  | tooLarge => exact .inl ⟨rfl, rfl, by simp [serveApprovalAction]⟩
  | notUtf8 => exact .inl ⟨rfl, rfl, by simp [serveApprovalAction]⟩
  | notJson => exact .inl ⟨rfl, rfl, by simp [serveApprovalAction]⟩
  | reason reason =>
    have unsuccessful : 422 ≠ 200 := by omega
    simp only [serveApprovalAction, decideProposal]
    cases approve with
    | true =>
      rcases transition_cases queue proposalId Proposal.isPending .isNotPending (.approved ts reason)
        "approved" ts reason with ⟨e, same, -⟩ | ⟨p, found, pending, same⟩
      · rw [if_pos rfl, ApprovalQueue.approve, same]
        exact .inl ⟨rfl, rfl, unsuccessful⟩
      · rw [if_pos rfl, ApprovalQueue.approve, same]
        exact .inr ⟨p, reason, _, found, pending, rfl, rfl⟩
    | false =>
      rcases transition_cases queue proposalId Proposal.isPending .isNotPending (.rejected ts reason)
        "rejected" ts reason with ⟨e, same, -⟩ | ⟨p, found, pending, same⟩
      · rw [if_neg Bool.false_ne_true, ApprovalQueue.reject, same]
        exact .inl ⟨rfl, rfl, unsuccessful⟩
      · rw [if_neg Bool.false_ne_true, ApprovalQueue.reject, same]
        exact .inr ⟨p, reason, _, found, pending, rfl, rfl⟩

end ConsoleApprovals
