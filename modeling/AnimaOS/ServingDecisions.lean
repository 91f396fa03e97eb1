import AnimaOS.AdapterClearance
import AnimaOS.ApprovalEvents
import AnimaOS.ConsoleApprovals

/-!
# What an operator decides and what is served

The decision on a weight update lives in the queue and is enforced by the
library. The two agree as long as no decision is taken back in the queue alone.
-/

namespace ConsoleApprovals

open AdapterLibrary ApprovalQueue

/-- `forwards` are the decisions that have left the queue and not yet reached the library. -/
structure Serving where
  queue : Queue
  library : Library
  forwards : List Forward

inductive ServingOp where
  | enqueue (artifact : AdapterArtifact) (decision : AdoptionDecision) (trainingSummary : String)
      (nowNs : Nat)
  | action (proposalId : String) (approve : Bool) (body : ActionBody) (ts : Nat)
  /-- The handler of the `n`th decision under way gets hold of the library. -/
  | deliver (n : Nat)
  | rollback (proposalId reason : String) (ts : Nat)
  | register (artifact : AdapterArtifact)
  | recordAdoption (decision : AdoptionDecision)
  | mountGated (mountId : MountId) (adapterId : String)
  | unmount (mountId : MountId)
  deriving DecidableEq, Repr

variable (debug : ProposalStatus → String)

def servingStep (w : Serving) : ServingOp → Serving
  | .enqueue artifact decision trainingSummary nowNs =>
    match adapterAdoptionToProposal artifact decision trainingSummary nowNs with
    | some proposal => { w with queue := (enqueue w.queue proposal).1 }
    | none => w
  | .action proposalId approve body ts =>
    let r := serveApprovalAction debug w.queue proposalId approve body ts
    { w with queue := r.queue, forwards := w.forwards ++ r.forward.toList }
  | .deliver n =>
    match w.forwards[n]? with
    | some f =>
      { w with library := forwardDecision w.library f, forwards := w.forwards.eraseIdx n }
    | none => w
  | .rollback proposalId reason ts =>
    { w with queue := (rollback w.queue proposalId reason ts).1 }
  | .register artifact => { w with library := (register w.library artifact).1 }
  | .recordAdoption decision => { w with library := recordAdoption w.library decision }
  | .mountGated mountId adapterId =>
    { w with library := (mountGated w.library mountId adapterId).1 }
  | .unmount mountId => { w with library := (unmount w.library mountId).1 }

def serving (capacity : Nat) (policy : EvictionPolicy) (ops : List ServingOp) : Serving :=
  ops.foldl (servingStep debug) ⟨empty, withPolicy capacity policy, []⟩

/-- The artifact was handed to the queue under the proposal id. -/
def Submitted (ops : List ServingOp) (proposalId : String) (artifact : AdapterArtifact) : Prop :=
  ∃ decision trainingSummary nowNs proposal,
    .enqueue artifact decision trainingSummary nowNs ∈ ops ∧
    adapterAdoptionToProposal artifact decision trainingSummary nowNs = some proposal ∧
    proposal.id = proposalId

/-- Whatever is mounted has an approved proposal, and every decision that the console would forward
carries the id and the digest of the artifact that the proposal was made for. -/
structure Governed (ops : List ServingOp) (w : Serving) : Prop where
  mounted : ∀ mountId id, (mountId, id) ∈ w.library.mounts.entries →
    ∃ a, w.library.adapters.get id = some a ∧
      HoldsApproved w.queue (proposalIdOf id a.weightsDigest)
  forwarded : ∀ proposalId pair, weightOp w.queue proposalId = some pair →
    (∃ artifact, Submitted ops proposalId artifact) ∧
      ∀ artifact, Submitted ops proposalId artifact →
        pair = (artifact.adapterId, artifact.weightsDigest)

/-- The library has the sign-off of the proposal on record, or is about to. -/
def InForce (w : Serving) (proposalId : String) : Prop :=
  (∃ id digest, w.library.operatorApproved.get id = some digest ∧
    proposalIdOf id digest = proposalId) ∨
  ∃ f ∈ w.forwards, f.approve = true ∧ proposalIdOf f.adapterId f.weightsDigest = proposalId

/-- A submitted digest is free of `@`, and a proposal whose sign-off is in force is not rolled
back. -/
def Meets (w : Serving) : ServingOp → Prop
  | .enqueue artifact decision trainingSummary nowNs =>
    adapterAdoptionToProposal artifact decision trainingSummary nowNs ≠ none →
      '@' ∉ artifact.weightsDigest.toList
  | .rollback proposalId _ _ => HoldsApproved w.queue proposalId → ¬ InForce w proposalId
  | _ => True

/-! ## The invariant -/

structure Linked (ops : List ServingOp) (w : Serving) : Prop where
  library : ∃ libraryOps, Sound libraryOps w.library
  inForce : ∀ proposalId, InForce w proposalId → HoldsApproved w.queue proposalId
  submitted : ∀ proposalId p, w.queue.proposals proposalId = some p →
    ∃ artifact modelId rank summary, Submitted ops proposalId artifact ∧
      '@' ∉ artifact.weightsDigest.toList ∧
      proposalId = proposalIdOf artifact.adapterId artifact.weightsDigest ∧ p.id = proposalId ∧
      p.kind = .weightUpdate modelId artifact.weightsDigest rank summary
  plain : ∀ proposalId artifact, Submitted ops proposalId artifact →
    '@' ∉ artifact.weightsDigest.toList ∧
      proposalId = proposalIdOf artifact.adapterId artifact.weightsDigest

theorem Submitted.append {ops : List ServingOp} {proposalId : String} {artifact : AdapterArtifact}
    (submitted : Submitted ops proposalId artifact) (op : ServingOp) :
    Submitted (ops ++ [op]) proposalId artifact := by
  obtain ⟨decision, trainingSummary, nowNs, proposal, listed, rest⟩ := submitted
  exact ⟨decision, trainingSummary, nowNs, proposal, List.mem_append_left _ listed, rest⟩

theorem submitted_snoc {ops : List ServingOp} {op : ServingOp} {proposalId : String}
    {artifact : AdapterArtifact} (submitted : Submitted (ops ++ [op]) proposalId artifact) :
    Submitted ops proposalId artifact ∨ ∃ decision trainingSummary nowNs proposal,
      op = .enqueue artifact decision trainingSummary nowNs ∧
      adapterAdoptionToProposal artifact decision trainingSummary nowNs = some proposal ∧
      proposal.id = proposalId := by
  obtain ⟨decision, trainingSummary, nowNs, proposal, listed, made, named⟩ := submitted
  rcases List.mem_append.mp listed with before | last
  · exact .inl ⟨decision, trainingSummary, nowNs, proposal, before, made, named⟩
  · exact .inr ⟨decision, trainingSummary, nowNs, proposal, (List.mem_singleton.mp last).symm, made,
      named⟩

theorem Meets.plain {w : Serving} {op : ServingOp} (meets : Meets w op)
    {ops : List ServingOp} (linked : Linked ops w) {proposalId : String}
    {artifact : AdapterArtifact} (submitted : Submitted (ops ++ [op]) proposalId artifact) :
    '@' ∉ artifact.weightsDigest.toList ∧
      proposalId = proposalIdOf artifact.adapterId artifact.weightsDigest := by
  rcases submitted_snoc submitted with before | ⟨decision, trainingSummary, nowNs, proposal, rfl,
    made, named⟩
  · exact linked.plain proposalId artifact before
  · refine ⟨meets (made ▸ Option.some_ne_none proposal), ?_⟩
    rw [← named, (proposal_of_adoption made).1]

/-- The queue keeps its proposals, and the statuses that a step leaves fit what is in force. -/
theorem Linked.advance {ops : List ServingOp} {w w' : Serving} {op : ServingOp}
    (linked : Linked ops w) (meets : Meets w op)
    (library : ∃ libraryOps, Sound libraryOps w'.library)
    (inForce : ∀ proposalId, InForce w' proposalId → HoldsApproved w'.queue proposalId)
    (kept : ∀ proposalId p', w'.queue.proposals proposalId = some p' →
      ∃ p, w.queue.proposals proposalId = some p ∧ p'.id = p.id ∧ p'.kind = p.kind) :
    Linked (ops ++ [op]) w' where
  library := library
  inForce := inForce
  submitted proposalId p' found := by
    obtain ⟨p, before, sameId, sameKind⟩ := kept proposalId p' found
    obtain ⟨artifact, modelId, rank, summary, submitted, plain, named, own, kind⟩ :=
      linked.submitted proposalId p before
    exact ⟨artifact, modelId, rank, summary, submitted.append op, plain, named, sameId.trans own,
      sameKind.trans kind⟩
  plain proposalId artifact submitted := meets.plain linked submitted

theorem kept_put {q : Queue} {id : String} {p : Proposal} {status : ProposalStatus}
    {order : List String} {log : List ApprovalLogEntry} (found : q.proposals id = some p)
    (proposalId : String) (p' : Proposal)
    (at_ : (⟨q.put id { p with status := status }, order, log⟩ : Queue).proposals proposalId =
      some p') :
    ∃ p, q.proposals proposalId = some p ∧ p'.id = p.id ∧ p'.kind = p.kind := by
  simp only [Queue.put] at at_
  split at at_
  · rename_i same
    cases at_
    exact ⟨p, same ▸ found, rfl, rfl⟩
  · exact ⟨p', at_, rfl, rfl⟩

/-! ## The steps -/

theorem Linked.libraryStep {ops : List ServingOp} {w : Serving} {op : ServingOp}
    (linked : Linked ops w) (meets : Meets w op) {libraryOp : LibraryOp} {forwards : List Forward}
    (fewer : ∀ f ∈ forwards, f ∈ w.forwards)
    (signs : ∀ id digest, libraryOp = .recordOperatorApproval id digest →
      ⟨true, id, digest⟩ ∈ w.forwards) :
    Linked (ops ++ [op]) ⟨w.queue, (AdapterLibrary.step w.library libraryOp).1, forwards⟩ := by
  obtain ⟨libraryOps, sound⟩ := linked.library
  refine linked.advance meets ⟨_, sound.step libraryOp⟩ ?_ fun _ p' found => ⟨p', found, rfl, rfl⟩
  rintro proposalId (⟨id, digest, recorded, named⟩ | ⟨f, listed, approves, named⟩)
  · refine linked.inForce proposalId ?_
    rcases signOff_of_step recorded with before | made
    · exact .inl ⟨id, digest, before, named⟩
    · exact .inr ⟨_, signs id digest made, rfl, named⟩
  · exact linked.inForce proposalId (.inr ⟨f, fewer f listed, approves, named⟩)

theorem Linked.enqueue {ops : List ServingOp} {w : Serving} (linked : Linked ops w)
    {artifact : AdapterArtifact} {decision : AdoptionDecision} {trainingSummary : String}
    {nowNs : Nat} (meets : Meets w (.enqueue artifact decision trainingSummary nowNs)) :
    Linked (ops ++ [.enqueue artifact decision trainingSummary nowNs])
      (servingStep debug w (.enqueue artifact decision trainingSummary nowNs)) := by
  cases made : adapterAdoptionToProposal artifact decision trainingSummary nowNs with
  | none =>
    simp only [servingStep, made]
    exact linked.advance meets linked.library linked.inForce fun _ p' found => ⟨p', found, rfl, rfl⟩
  | some proposal =>
    simp only [servingStep, made, ApprovalQueue.enqueue]
    split
    · exact linked.advance meets linked.library linked.inForce
        fun _ p' found => ⟨p', found, rfl, rfl⟩
    · rename_i free
      obtain ⟨named, pending, modelId, rank, kind⟩ := proposal_of_adoption made
      have mine : Submitted (ops ++ [.enqueue artifact decision trainingSummary nowNs]) proposal.id
          artifact :=
        ⟨decision, trainingSummary, nowNs, proposal, List.mem_append_right _ List.mem_cons_self,
          made, rfl⟩
      refine ⟨linked.library, ?_, ?_, fun _ _ submitted => meets.plain linked submitted⟩
      · intro proposalId inForce
        have held := linked.inForce proposalId inForce
        have different : proposalId ≠ proposal.id := by
          rintro rfl
          obtain ⟨p, found, -⟩ := held
          cases free.symm.trans found
        exact (holds_put_other different).mpr held
      · intro proposalId p found
        simp only [Queue.put] at found
        split at found
        · rename_i same
          cases found
          subst same
          obtain ⟨plain, id⟩ := meets.plain linked mine
          exact ⟨artifact, modelId, rank, trainingSummary, mine, plain, id, rfl, kind⟩
        · obtain ⟨other, modelId, rank, summary, submitted, rest⟩ :=
            linked.submitted proposalId p found
          exact ⟨other, modelId, rank, summary, submitted.append _, rest⟩

theorem Linked.rollback {ops : List ServingOp} {w : Serving} (linked : Linked ops w)
    {proposalId reason : String} {ts : Nat} (meets : Meets w (.rollback proposalId reason ts)) :
    Linked (ops ++ [.rollback proposalId reason ts])
      (servingStep debug w (.rollback proposalId reason ts)) := by
  simp only [servingStep, ApprovalQueue.rollback]
  rcases transition_cases w.queue proposalId Proposal.isApproved .isNotApproved
    (.rolledBack ts reason) "rolled_back" ts reason with ⟨e, same, -⟩ | ⟨p, found, approved, same⟩
  · rw [same]
    exact linked.advance meets linked.library linked.inForce fun _ p' found => ⟨p', found, rfl, rfl⟩
  · rw [same]
    refine linked.advance meets linked.library ?_ (kept_put found)
    intro other inForce
    have different : other ≠ proposalId := by
      rintro rfl
      exact meets ⟨p, found, approved⟩ inForce
    exact (holds_put_other different).mpr (linked.inForce other inForce)

theorem forward_key {ops : List ServingOp} {w : Serving} (linked : Linked ops w)
    {proposalId : String} {pair : String × String}
    (forwarded : weightOp w.queue proposalId = some pair) :
    ∃ artifact, Submitted ops proposalId artifact ∧ '@' ∉ artifact.weightsDigest.toList ∧
      proposalId = proposalIdOf artifact.adapterId artifact.weightsDigest ∧
      pair = (artifact.adapterId, artifact.weightsDigest) := by
  cases found : w.queue.proposals proposalId with
  | none => simp [weightOp, found] at forwarded
  | some p =>
    obtain ⟨artifact, modelId, rank, summary, submitted, plain, named, own, kind⟩ :=
      linked.submitted proposalId p found
    have forwards : weightOp w.queue proposalId =
        some (artifact.adapterId, artifact.weightsDigest) := by
      simp only [weightOp, found, kind, own]
      rw [named, adapterIdOf_proposalIdOf plain]
    exact ⟨artifact, submitted, plain, named, Option.some.inj (forwarded.symm.trans forwards)⟩

/-- A decision that is forwarded puts in force at most what it approves. -/
theorem inForce_forwarded {w : Serving} {queue : Queue} {forward : Option Forward}
    {proposalId : String}
    (inForce : InForce ⟨queue, w.library, w.forwards ++ forward.toList⟩ proposalId) :
    InForce w proposalId ∨ ∃ f, forward = some f ∧ f.approve = true ∧
      proposalIdOf f.adapterId f.weightsDigest = proposalId := by
  rcases inForce with recorded | ⟨f, listed, approves, named⟩
  · exact .inl (.inl recorded)
  · rcases List.mem_append.mp listed with earlier | fresh
    · exact .inl (.inr ⟨f, earlier, approves, named⟩)
    · exact .inr ⟨f, Option.mem_toList.mp fresh, approves, named⟩

theorem Linked.action {ops : List ServingOp} {w : Serving} (linked : Linked ops w)
    (proposalId : String) (approve : Bool) (body : ActionBody) (ts : Nat) :
    Linked (ops ++ [.action proposalId approve body ts])
      (servingStep debug w (.action proposalId approve body ts)) := by
  have meets : Meets w (.action proposalId approve body ts) := trivial
  rcases action_cases debug w.queue proposalId approve body ts with
    ⟨queue, none, -⟩ | ⟨p, reason, log, found, pending, queue, forward⟩
  · simp only [servingStep, queue, none, Option.toList_none, List.append_nil]
    exact linked.advance meets linked.library linked.inForce fun _ p' found => ⟨p', found, rfl, rfl⟩
  · simp only [servingStep, queue, forward]
    refine linked.advance meets linked.library ?_ (kept_put found)
    intro other inForce
    by_cases same : other = proposalId
    case neg =>
      refine (holds_put_other same).mpr (linked.inForce other ?_)
      rcases inForce_forwarded inForce with before | ⟨f, made, approves, named⟩
      · exact before
      · obtain ⟨pair, forwarded, rfl⟩ := Option.map_eq_some_iff.mp made
        obtain ⟨artifact, -, -, own, rfl⟩ := forward_key linked forwarded
        exact absurd (named.symm.trans own.symm) same
    subst same
    rw [holds_put_self]
    cases approve with
    | true => rfl
    | false =>
      -- A rejected proposal was pending, so nothing of it was in force before.
      have before : InForce w other := by
        rcases inForce_forwarded inForce with before | ⟨f, made, approves, named⟩
        · exact before
        · obtain ⟨pair, -, rfl⟩ := Option.map_eq_some_iff.mp made
          cases approves
      obtain ⟨held, again, approved⟩ := linked.inForce other before
      cases found.symm.trans again
      simp only [Proposal.isPending, Proposal.isApproved] at pending approved
      split at pending
      · rename_i status
        simp [status] at approved
      · cases pending

theorem Linked.deliver {ops : List ServingOp} {w : Serving} (linked : Linked ops w) (n : Nat) :
    Linked (ops ++ [.deliver n]) (servingStep debug w (.deliver n)) := by
  have meets : Meets w (.deliver n) := trivial
  simp only [servingStep]
  split
  · rename_i f listed
    have member := List.mem_of_getElem? listed
    have fewer : ∀ g ∈ w.forwards.eraseIdx n, g ∈ w.forwards :=
      fun g kept => List.eraseIdx_subset kept
    obtain ⟨approve, adapterId, digest⟩ := f
    cases approve with
    | true =>
      refine @Linked.libraryStep ops w _ linked meets (.recordOperatorApproval adapterId digest) _
        fewer ?_
      intro id digest made
      cases made
      exact member
    | false =>
      exact @Linked.libraryStep ops w _ linked meets (.revokeOperatorApproval adapterId digest) _
        fewer fun _ _ made => LibraryOp.noConfusion made
  · exact linked.advance meets linked.library linked.inForce fun _ p' found => ⟨p', found, rfl, rfl⟩

theorem Linked.step {ops : List ServingOp} {w : Serving} (linked : Linked ops w) {op : ServingOp}
    (meets : Meets w op) : Linked (ops ++ [op]) (servingStep debug w op) := by
  cases op with
  | enqueue artifact decision trainingSummary nowNs => exact linked.enqueue debug meets
  | action proposalId approve body ts => exact linked.action debug proposalId approve body ts
  | deliver n => exact linked.deliver debug n
  | rollback proposalId reason ts => exact linked.rollback debug meets
  | register artifact =>
    exact @Linked.libraryStep ops w _ linked meets (.register artifact) _ (fun _ kept => kept)
      fun _ _ made => LibraryOp.noConfusion made
  | recordAdoption decision =>
    exact @Linked.libraryStep ops w _ linked meets (.recordAdoption decision) _
      (fun _ kept => kept) fun _ _ made => LibraryOp.noConfusion made
  | mountGated mountId adapterId =>
    exact @Linked.libraryStep ops w _ linked meets (.mountGated mountId adapterId) _
      (fun _ kept => kept) fun _ _ made => LibraryOp.noConfusion made
  | unmount mountId =>
    exact @Linked.libraryStep ops w _ linked meets (.unmount mountId) _ (fun _ kept => kept)
      fun _ _ made => LibraryOp.noConfusion made

theorem Linked.governed {ops : List ServingOp} {w : Serving} (linked : Linked ops w) :
    Governed ops w := by
  constructor
  · intro mountId id mounted
    obtain ⟨libraryOps, sound⟩ := linked.library
    obtain ⟨a, found, -, -, approved⟩ := (sound.at_ id).mounted mountId mounted
    exact ⟨a, found, linked.inForce _ (.inl ⟨id, a.weightsDigest, approved, rfl⟩)⟩
  · intro proposalId pair forwarded
    obtain ⟨artifact, submitted, plain, named, rfl⟩ := forward_key linked forwarded
    refine ⟨⟨artifact, submitted⟩, ?_⟩
    intro other again
    obtain ⟨plain', named'⟩ := linked.plain proposalId other again
    obtain ⟨ids, digests⟩ := proposalIdOf_inj plain plain' (named.symm.trans named')
    rw [ids, digests]

theorem serving_snoc (capacity : Nat) (policy : EvictionPolicy) (ops : List ServingOp)
    (op : ServingOp) : serving debug capacity policy (ops ++ [op]) =
      servingStep debug (serving debug capacity policy ops) op :=
  List.foldl_append

theorem serving_linked {capacity : Nat} {policy : EvictionPolicy} {ops : List ServingOp}
    (meets : ∀ pre op post, ops = pre ++ op :: post → Meets (serving debug capacity policy pre) op) :
    Linked ops (serving debug capacity policy ops) := by
  induction ops using List.reverseRecOn with
  | nil =>
    refine ⟨⟨[], after_sound capacity policy []⟩, ?_, ?_, ?_⟩
    · rintro proposalId (⟨id, digest, recorded, -⟩ | ⟨f, listed, -⟩)
      · cases recorded
      · cases listed
    · intro proposalId p found
      cases found
    · rintro proposalId artifact ⟨decision, trainingSummary, nowNs, proposal, listed, -⟩
      cases listed
  | append_singleton ops op ih =>
    rw [serving_snoc]
    refine (ih ?_).step debug (meets ops op [] rfl)
    rintro pre other post rfl
    exact meets pre other (post ++ [op]) (by simp)

/-- Over every run in which only digests without `@` are submitted and no proposal is rolled back
while its sign-off is in force, in every state reached each mounted adapter has an approved proposal
for its registered weights, and what the console forwards is the id and digest of the artifact. -/
theorem decisions_govern_serving (capacity : Nat) (policy : EvictionPolicy) (ops : List ServingOp)
    (meets : ∀ pre op post, ops = pre ++ op :: post → Meets (serving debug capacity policy pre) op)
    (pre post : List ServingOp) (split : ops = pre ++ post) :
    Governed pre (serving debug capacity policy pre) := by
  subst split
  refine (serving_linked debug ?_).governed
  rintro earlier op later rfl
  exact meets earlier op (later ++ post) (by simp)

def showStatus (_ : ProposalStatus) : String := ""

/-- An adapter adopted, approved by the operator and mounted. -/
def sampleServing : List ServingOp :=
  [.register sampleAdapter, .recordAdoption ⟨"nightly", "abc", true⟩,
    .enqueue sampleAdapter ⟨"nightly", "abc", true⟩ "120 pairs" 200,
    .action "nightly@abc" true (.reason "ok") 300, .deliver 0, .mountGated sampleMount "nightly"]

theorem sample_served :
    ∃ a, (serving showStatus 1 .oldestFirst sampleServing).library.adapters.get "nightly" = some a ∧
      HoldsApproved (serving showStatus 1 .oldestFirst sampleServing).queue
        (proposalIdOf "nightly" a.weightsDigest) := by
  have meets : ∀ pre op post, sampleServing = pre ++ op :: post →
      Meets (serving showStatus 1 .oldestFirst pre) op := by
    intro pre op post split
    have listed : op ∈ sampleServing := by
      rw [split]
      exact List.mem_append_right _ List.mem_cons_self
    simp only [sampleServing, List.mem_cons, List.not_mem_nil, or_false] at listed
    rcases listed with rfl | rfl | rfl | rfl | rfl | rfl
    · trivial
    · trivial
    · intro _
      decide
    · trivial
    · trivial
    · trivial
  have governed := decisions_govern_serving showStatus 1 .oldestFirst sampleServing meets
    sampleServing [] (List.append_nil _).symm
  exact governed.mounted sampleMount "nightly" (by decide)

/-- The same run and a rollback after it; and a digest with an `@` in it. -/
theorem rolled_back_still_served :
    ((serving showStatus 1 .oldestFirst
        (sampleServing ++ [.rollback "nightly@abc" "regressed" 400])).library.mounts.entries =
      [(sampleMount, "nightly")] ∧
    ((serving showStatus 1 .oldestFirst
        (sampleServing ++ [.rollback "nightly@abc" "regressed" 400])).queue.proposals
          "nightly@abc").map Proposal.status = some (.rolledBack 400 "regressed")) ∧
    weightOp (serving showStatus 1 .oldestFirst
        [.enqueue { sampleAdapter with weightsDigest := "v1@abc" }
          ⟨"nightly", "v1@abc", true⟩ "" 0]).queue
      "nightly@v1@abc" = some ("nightly@v1", "v1@abc") := by
  refine ⟨⟨by decide, by decide⟩, by decide⟩

end ConsoleApprovals
