import AnimaOS.ApprovalQueue
import AnimaOS.JsonString
import AnimaOS.KeyedMap
import AnimaOS.SkillRegistry
import Mathlib.Algebra.Group.Nat.Defs

/-!
# The bridge from skills to the approval queue

Evaluated skills and tools become proposals, and a decision on a skill's
proposal is routed back to the registry.
-/

namespace SkillBridge

open ApprovalQueue SkillRegistry TextLines TextSplit

/-! ## Proposals -/

def fnvOffset : UInt64 := 0xcbf29ce484222325

def fnvPrime : UInt64 := 0x00000100000001b3

/-- FNV-1a as sixteen hexadecimal digits. -/
def contentFingerprint (bytes : List UInt8) : String :=
  let hash := bytes.foldl (fun hash b => (hash ^^^ b.toUInt64) * fnvPrime) fnvOffset
  String.ofList ((List.range 16).reverse.map fun i =>
    JsonString.hexDigit (hash.toNat / 16 ^ i % 16))

def provenanceNote (author : SkillAuthor) : Option String → String
  | some ep => author.display ++ " (episode " ++ ep ++ ")"
  | none => author.display

/-- Stops as soon as both fields are known. -/
def nameAndDescriptionFrom : List (List Char) → Option String × Option String →
    Option String × Option String
  | [], found => found
  | line :: rest, (name, description) =>
    let line := trimWhitespace line
    let found :=
      match TextSplit.stripPrefix "name:".toList line with
      | some value => (some (String.ofList (trimWhitespace value)), description)
      | none =>
        match TextSplit.stripPrefix "description:".toList line with
        | some value => (name, some (String.ofList (trimWhitespace value)))
        | none => (name, description)
    if found.1.isSome && found.2.isSome then found else nameAndDescriptionFrom rest found

def parseNameAndDescription (skillText : String) : String × String :=
  let found := nameAndDescriptionFrom (lines skillText.toList) (none, none)
  (found.1.getD "unnamed-skill", found.2.getD "")

def skillProposalToQueueProposalWithHash (outcome : ProposalOutcome) (proposal : SkillProposal)
    (promptHash : String) : Option Proposal :=
  if outcome.action ≠ .pendingApproval then none
  else
    outcome.artifactId.map fun skillId =>
      let (name, description) := parseNameAndDescription proposal.skillText
      { id := skillId
        kind := .newSkill name description promptHash
        createdAtNs := proposal.proposedAtNs
        provenance := provenanceNote proposal.authoredBy proposal.sourceEpisode
        sandboxResult := none
        defenceVerdict := none
        status := .pending }

def skillProposalToQueueProposal (outcome : ProposalOutcome) (proposal : SkillProposal) :
    Option Proposal :=
  skillProposalToQueueProposalWithHash outcome proposal
    (contentFingerprint proposal.skillText.toUTF8.toList)

structure ToolProposal where
  name : String
  description : String
  capabilities : List String
  wasmBytes : List UInt8
  authoredBy : SkillAuthor
  proposedAtNs : Nat
  sourceEpisode : Option String
  deriving DecidableEq, Repr

def toolProposalToQueueProposalWithVerdicts (toLowercase : String → String)
    (proposal : ToolProposal) (wasmHash : String) (sandboxResult : SandboxTestResult)
    (defenceVerdict : Option DefenceVerdict) : Proposal where
  id := idFromName toLowercase proposal.name
  kind := .newTool proposal.name proposal.description wasmHash proposal.capabilities
  createdAtNs := proposal.proposedAtNs
  provenance := provenanceNote proposal.authoredBy proposal.sourceEpisode
  sandboxResult := some sandboxResult
  defenceVerdict := defenceVerdict
  status := .pending

def toolProposalToQueueProposal (toLowercase : String → String) (proposal : ToolProposal)
    (fixtureSummary : String) : Proposal :=
  toolProposalToQueueProposalWithVerdicts toLowercase proposal
    (contentFingerprint proposal.wasmBytes) ⟨true, 0, 0, fixtureSummary⟩ none

/-! ## The bridge -/

inductive BridgeError where
  | duplicateProposal (id : String)
  | queue (e : QueueError)
  | registry (e : RegistryError)
  deriving DecidableEq, Repr

def BridgeError.message (debug : ProposalStatus → String) : BridgeError → String
  | .duplicateProposal id => "proposal already enqueued: " ++ id
  | .queue e => "approval queue error: " ++ e.message debug
  | .registry e => "skill registry error: " ++ e.message

/-- A skill's proposal goes under the id of the skill. -/
structure SkillApprovalBridge where
  skillOfProposal : KeyedMap String String
  direct : ∀ proposalId skillId, skillOfProposal.get proposalId = some skillId →
    skillId = proposalId

def SkillApprovalBridge.new : SkillApprovalBridge where
  skillOfProposal := .empty
  direct := by
    intro proposalId skillId mapped
    cases mapped

def track (b : SkillApprovalBridge) (id : String) : SkillApprovalBridge where
  skillOfProposal := b.skillOfProposal.insert id id
  direct := by
    intro proposalId skillId mapped
    rw [KeyedMap.get_insert] at mapped
    split at mapped
    · rename_i same
      exact (Option.some.inj mapped).symm.trans same.symm
    · exact b.direct proposalId skillId mapped

structure Desk where
  bridge : SkillApprovalBridge
  queue : Queue
  registry : Registry

def enqueueSkillProposal (d : Desk) (proposal : Proposal) : Desk × Except BridgeError String :=
  match ApprovalQueue.enqueue d.queue proposal with
  | (_, false) => (d, .error (.duplicateProposal proposal.id))
  | (queue, true) => ({ d with queue := queue, bridge := track d.bridge proposal.id }, .ok proposal.id)

def enqueueSkill (d : Desk) (outcome : ProposalOutcome) (proposal : SkillProposal) :
    Desk × Except BridgeError (Option String) :=
  match skillProposalToQueueProposal outcome proposal with
  | none => (d, .ok none)
  | some queueProposal =>
    let r := enqueueSkillProposal d queueProposal
    (r.1, r.2.map some)

def enqueueTool (toLowercase : String → String) (d : Desk) (proposal : ToolProposal)
    (fixtureSummary : String) : Desk × Except BridgeError String :=
  let queueProposal := toolProposalToQueueProposal toLowercase proposal fixtureSummary
  match ApprovalQueue.enqueue d.queue queueProposal with
  | (_, false) => (d, .error (.duplicateProposal queueProposal.id))
  | (queue, true) => ({ d with queue := queue }, .ok queueProposal.id)

/-- A decision that the queue accepts is carried out on the skill of the proposal, if it has one. -/
def routeDecision (d : Desk) (proposalId : String) (decided : Queue × Except QueueError Unit)
    (carryOut : Registry → String → Registry × Except RegistryError Unit) :
    Desk × Except BridgeError Unit :=
  match decided with
  | (_, .error e) => (d, .error (.queue e))
  | (queue, .ok ()) =>
    match d.bridge.skillOfProposal.get proposalId with
    | none => ({ d with queue := queue }, .ok ())
    | some skillId =>
      let r := carryOut d.registry skillId
      ({ d with queue := queue, registry := r.1 }, r.2.mapError .registry)

def approve (d : Desk) (proposalId reason : String) (ts : Nat) : Desk × Except BridgeError Unit :=
  routeDecision d proposalId (ApprovalQueue.approve d.queue proposalId reason ts) promote

def reject (d : Desk) (proposalId reason : String) (ts : Nat) : Desk × Except BridgeError Unit :=
  match ApprovalQueue.reject d.queue proposalId reason ts with
  | (_, .error e) => (d, .error (.queue e))
  | (queue, .ok ()) => ({ d with queue := queue }, .ok ())

def rollback (d : Desk) (proposalId reason : String) (ts : Nat) : Desk × Except BridgeError Unit :=
  routeDecision d proposalId (ApprovalQueue.rollback d.queue proposalId reason ts)
    SkillRegistry.rollback

end SkillBridge
