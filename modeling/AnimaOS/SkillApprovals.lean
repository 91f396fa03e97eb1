import AnimaOS.ApprovalEvents
import AnimaOS.ConsoleApprovals
import AnimaOS.SkillBridge

/-!
# Approvals of skills

How the states of skills move when proposals are decided, and what an approval
does to a skill that was blocked while its proposal waited.
-/

namespace SkillBridge

open ApprovalQueue SkillRegistry

inductive DeskOp where
  | evaluate (proposal : SkillProposal) (screen : SkillContentScreen) (gate : PromotionGateConfig)
  | enqueueSkill (outcome : ProposalOutcome) (proposal : SkillProposal)
  | enqueueTool (proposal : ToolProposal) (fixtureSummary : String)
  | approve (proposalId reason : String) (ts : Nat)
  | reject (proposalId reason : String) (ts : Nat)
  | rollback (proposalId reason : String) (ts : Nat)
  | rollbackSkill (id : String)
  | quarantine (id reason : String)
  | killSwitch (reason : String)
  deriving DecidableEq, Repr

section Runs

variable (toLowercase : String → String)

def deskStep (d : Desk) : DeskOp → Desk
  | .evaluate proposal screen gate =>
    { d with registry := (evaluateSkillProposal toLowercase proposal d.registry screen gate).1 }
  | .enqueueSkill outcome proposal => (enqueueSkill d outcome proposal).1
  | .enqueueTool proposal fixtureSummary => (enqueueTool toLowercase d proposal fixtureSummary).1
  | .approve proposalId reason ts => (approve d proposalId reason ts).1
  | .reject proposalId reason ts => (reject d proposalId reason ts).1
  | .rollback proposalId reason ts => (rollback d proposalId reason ts).1
  | .rollbackSkill id => { d with registry := (SkillRegistry.rollback d.registry id).1 }
  | .quarantine id reason => { d with registry := (quarantine d.registry id reason).1 }
  | .killSwitch reason => { d with registry := (killSwitch d.registry reason).1 }

def desk (start : Desk) (ops : List DeskOp) : Desk := ops.foldl (deskStep toLowercase) start

end Runs

def Blocked : Option SkillState → Prop
  | some (.quarantined _) => True
  | some .rolledBack => True
  | _ => False

/-- The proposal waits for a decision and belongs to the skill. -/
def Awaits (d : Desk) (proposalId skillId : String) : Prop :=
  (∃ p, d.queue.proposals proposalId = some p ∧ p.isPending = true) ∧
    d.bridge.skillOfProposal.get proposalId = some skillId

/-- The approval of a pending proposal whose skill is quarantined or rolled back. -/
def Revives (d : Desk) : DeskOp → Prop
  | .approve proposalId _ _ =>
    ∃ skillId, Awaits d proposalId skillId ∧ Blocked (stateOf d.registry skillId)
  | _ => False

/-- A registered skill that a step makes active was proposed before it. -/
def ActivatesProposed (before after : Desk) : Prop :=
  ∀ id state, stateOf before.registry id = some state → state ≠ .active →
    stateOf after.registry id = some .active → state = .proposed

/-! ## One step -/

/-- A decision is refused, or it gives a ready proposal its new status and is carried out. -/
theorem routeDecision_cases (d : Desk) (proposalId : String) (ready : Proposal → Bool)
    (refused : String → ProposalStatus → QueueError) (status : ProposalStatus) (action : String)
    (ts : Nat) (reason : String)
    (carryOut : Registry → String → Registry × Except RegistryError Unit) :
    let d' := (routeDecision d proposalId
      (transition d.queue proposalId ready refused status action ts reason) carryOut).1
    (d' = d ∧ ∀ p, d.queue.proposals proposalId = some p → ready p = false) ∨
    ∃ p log, d.queue.proposals proposalId = some p ∧ ready p = true ∧ d'.bridge = d.bridge ∧
      d'.queue = ⟨d.queue.put proposalId { p with status := status }, d.queue.insertionOrder, log⟩ ∧
      d'.registry = match d.bridge.skillOfProposal.get proposalId with
        | none => d.registry
        | some skillId => (carryOut d.registry skillId).1 := by
  rcases transition_cases d.queue proposalId ready refused status action ts reason with
    ⟨e, same, unready⟩ | ⟨p, found, met, same⟩
  · rw [same]
    exact .inl ⟨rfl, unready⟩
  · rw [same]
    refine .inr ⟨p, d.queue.log ++ [⟨proposalId, action, ts, some reason⟩], found, met, ?_⟩
    simp only [routeDecision]
    cases d.bridge.skillOfProposal.get proposalId with
    | none => exact ⟨rfl, rfl, rfl⟩
    | some skillId => exact ⟨rfl, rfl, rfl⟩

theorem approve_cases (d : Desk) (proposalId reason : String) (ts : Nat) :
    let d' := (approve d proposalId reason ts).1
    (d' = d ∧ ∀ p, d.queue.proposals proposalId = some p → p.isPending = false) ∨
    ∃ p log, d.queue.proposals proposalId = some p ∧ p.isPending = true ∧ d'.bridge = d.bridge ∧
      d'.queue = ⟨d.queue.put proposalId { p with status := .approved ts reason },
        d.queue.insertionOrder, log⟩ ∧
      d'.registry = match d.bridge.skillOfProposal.get proposalId with
        | none => d.registry
        | some skillId => (promote d.registry skillId).1 :=
  routeDecision_cases d proposalId Proposal.isPending .isNotPending (.approved ts reason) "approved"
    ts reason promote

theorem rollback_cases (d : Desk) (proposalId reason : String) (ts : Nat) :
    let d' := (rollback d proposalId reason ts).1
    (d' = d ∧ ∀ p, d.queue.proposals proposalId = some p → p.isApproved = false) ∨
    ∃ p log, d.queue.proposals proposalId = some p ∧ p.isApproved = true ∧ d'.bridge = d.bridge ∧
      d'.queue = ⟨d.queue.put proposalId { p with status := .rolledBack ts reason },
        d.queue.insertionOrder, log⟩ ∧
      d'.registry = match d.bridge.skillOfProposal.get proposalId with
        | none => d.registry
        | some skillId => (SkillRegistry.rollback d.registry skillId).1 :=
  routeDecision_cases d proposalId Proposal.isApproved .isNotApproved (.rolledBack ts reason)
    "rolled_back" ts reason SkillRegistry.rollback

/-- An approval activates the skill of a proposal that waits, and does nothing to other skills. -/
theorem approve_states (d : Desk) (proposalId reason : String) (ts : Nat) :
    ((approve d proposalId reason ts).1.registry = d.registry ∧
      ∀ skillId, ¬ Awaits d proposalId skillId) ∨
    ∃ skillId, Awaits d proposalId skillId ∧
      ∀ id, stateOf (approve d proposalId reason ts).1.registry id =
        if id = skillId then (stateOf d.registry skillId).map fun _ => .active
        else stateOf d.registry id := by
  rcases approve_cases d proposalId reason ts with
    ⟨same, unready⟩ | ⟨p, log, found, pending, -, -, registry⟩
  · left
    rw [same]
    refine ⟨rfl, ?_⟩
    rintro skillId ⟨⟨p, found, pending⟩, -⟩
    rw [unready p found] at pending
    cases pending
  · cases mapped : d.bridge.skillOfProposal.get proposalId with
    | none =>
      left
      rw [registry, mapped]
      refine ⟨rfl, ?_⟩
      rintro skillId ⟨-, owner⟩
      cases mapped.symm.trans owner
    | some skillId =>
      refine .inr ⟨skillId, ⟨⟨p, found, pending⟩, mapped⟩, fun id => ?_⟩
      rw [registry, mapped]
      exact stateOf_setState d.registry skillId .active id

theorem enqueueSkill_registry (d : Desk) (outcome : ProposalOutcome) (proposal : SkillProposal) :
    (enqueueSkill d outcome proposal).1.registry = d.registry := by
  rw [enqueueSkill]
  split
  · rfl
  · rw [enqueueSkillProposal]
    split <;> rfl

theorem enqueueTool_registry (toLowercase : String → String) (d : Desk) (proposal : ToolProposal)
    (fixtureSummary : String) :
    (enqueueTool toLowercase d proposal fixtureSummary).1.registry = d.registry := by
  simp only [enqueueTool]
  split <;> rfl

theorem reject_registry (d : Desk) (proposalId reason : String) (ts : Nat) :
    (reject d proposalId reason ts).1.registry = d.registry := by
  rw [reject]
  split <;> rfl

/-- Blocking a skill leaves every skill as it was or blocked. -/
theorem setState_blocks {r : Registry} {other : String} {before : SkillState}
    (found : stateOf r other = some before) (id : String) {state : SkillState}
    (blocks : Blocked (some state)) :
    ∃ after, stateOf (setState r id state).1 other = some after ∧
      (after = before ∨ Blocked (some after)) := by
  rw [stateOf_setState]
  split
  · rename_i same
    subst same
    rw [found]
    exact ⟨state, rfl, .inr blocks⟩
  · exact ⟨before, found, .inl rfl⟩

theorem killSwitch_blocks {r : Registry} {id : String} {before : SkillState}
    (found : stateOf r id = some before) (reason : String) :
    ∃ after, stateOf (killSwitch r reason).1 id = some after ∧
      (after = before ∨ Blocked (some after)) := by
  obtain ⟨after, kept, same | moved⟩ := stateOf_killSwitch r reason id found
  · exact ⟨after, kept, .inl same⟩
  · exact ⟨after, kept, .inr (by simp [moved, Blocked])⟩

theorem blocked_iff {state : SkillState} :
    Blocked (some state) ↔ state ≠ .active ∧ state ≠ .proposed := by
  cases state <;> simp [Blocked]

/-- A step leaves a skill as it was or blocks it, unless it is an approval. -/
theorem step_states (toLowercase : String → String) (d : Desk) (op : DeskOp) {id : String}
    {before : SkillState} (found : stateOf d.registry id = some before) :
    ∃ after, stateOf (deskStep toLowercase d op).registry id = some after ∧
      (after = before ∨ Blocked (some after) ∨ ∃ proposalId reason ts,
        op = .approve proposalId reason ts) := by
  cases op with
  | evaluate proposal screen gate =>
    refine ⟨before, ?_, .inl rfl⟩
    rcases evaluate_cases toLowercase proposal d.registry screen gate with
      ⟨same, -⟩ | ⟨added, free, -, -, -, entries⟩
    · simpa [deskStep, same] using found
    · have apart : id ≠ added.id := by
        rintro rfl
        simp [stateOf, free] at found
      simpa [deskStep, stateOf, entries, apart] using found
  | enqueueSkill outcome proposal =>
    exact ⟨before, by rw [deskStep, enqueueSkill_registry, found], .inl rfl⟩
  | enqueueTool proposal fixtureSummary =>
    exact ⟨before, by rw [deskStep, enqueueTool_registry, found], .inl rfl⟩
  | approve proposalId reason ts =>
    rcases approve_states d proposalId reason ts with ⟨same, -⟩ | ⟨skillId, -, states⟩
    · exact ⟨before, by rw [deskStep, same, found], .inl rfl⟩
    · simp only [deskStep, states]
      split
      · rename_i same
        subst same
        rw [found]
        exact ⟨.active, rfl, .inr (.inr ⟨proposalId, reason, ts, rfl⟩)⟩
      · exact ⟨before, found, .inl rfl⟩
  | reject proposalId reason ts =>
    exact ⟨before, by rw [deskStep, reject_registry, found], .inl rfl⟩
  | rollback proposalId reason ts =>
    rcases rollback_cases d proposalId reason ts with ⟨same, -⟩ | ⟨p, log, -, -, -, -, registry⟩
    · exact ⟨before, by rw [deskStep, same, found], .inl rfl⟩
    · rw [deskStep, registry]
      split
      · exact ⟨before, found, .inl rfl⟩
      · rename_i skillId _
        have blocks : Blocked (some .rolledBack) := trivial
        obtain ⟨after, kept, moved⟩ := setState_blocks found skillId blocks
        exact ⟨after, kept, moved.imp_right .inl⟩
  | rollbackSkill skillId =>
    have blocks : Blocked (some .rolledBack) := trivial
    obtain ⟨after, kept, moved⟩ := setState_blocks found skillId blocks
    exact ⟨after, kept, moved.imp_right .inl⟩
  | quarantine skillId reason =>
    have blocks : Blocked (some (.quarantined reason)) := trivial
    obtain ⟨after, kept, moved⟩ := setState_blocks found skillId blocks
    exact ⟨after, kept, moved.imp_right .inl⟩
  | killSwitch reason =>
    obtain ⟨after, kept, moved⟩ := killSwitch_blocks found reason
    exact ⟨after, kept, moved.imp_right .inl⟩

/-- A step activates a skill that was not proposed exactly when it revives a blocked one. -/
theorem activatesProposed_iff (toLowercase : String → String) (d : Desk) (op : DeskOp) :
    ActivatesProposed d (deskStep toLowercase d op) ↔ ¬ Revives d op := by
  constructor
  · intro proposed revives
    cases op with
    | approve proposalId reason ts =>
      obtain ⟨skillId, awaits, blocked⟩ := revives
      rcases approve_states d proposalId reason ts with ⟨-, idle⟩ | ⟨owner, awaits', states⟩
      · exact idle skillId awaits
      · cases awaits.2.symm.trans awaits'.2
        cases before : stateOf d.registry skillId with
        | none =>
          rw [before] at blocked
          exact blocked
        | some state =>
          rw [before, blocked_iff] at blocked
          have activated := states skillId
          rw [if_pos rfl, before] at activated
          exact blocked.2 (proposed skillId state before blocked.1 activated)
    | _ => exact revives
  · intro unrevived id before found inactive activated
    obtain ⟨after, kept, same | moved | ⟨proposalId, reason, ts, rfl⟩⟩ :=
      step_states toLowercase d op found
    · cases kept.symm.trans activated
      exact absurd same.symm inactive
    · cases kept.symm.trans activated
      exact absurd rfl (blocked_iff.mp moved).1
    · rcases approve_states d proposalId reason ts with ⟨same, -⟩ | ⟨skillId, awaits, states⟩
      · rw [deskStep, same, found] at activated
        exact absurd (Option.some.inj activated) inactive
      · have after := states id
        split at after
        · rename_i own
          subst own
          by_contra unproposed
          refine unrevived ⟨id, awaits, ?_⟩
          rw [found]
          exact blocked_iff.mpr ⟨inactive, unproposed⟩
        · change stateOf (approve d proposalId reason ts).1.registry id = some .active at activated
          rw [after, found] at activated
          exact absurd (Option.some.inj activated) inactive

/-! ## Agent skills that were not promoted -/

/-- The skill is registered, and active only with an approved proposal of its own. -/
structure Gated (d : Desk) (id : String) : Prop where
  registered : stateOf d.registry id ≠ none
  approved : stateOf d.registry id = some .active →
    HoldsApproved d.queue id ∧ d.bridge.skillOfProposal.get id = some id

/-- A desk on which the skill's approval and the bridge's record of it are still there. -/
theorem Gated.keep {d d' : Desk} {id : String} (gated : Gated d id)
    (registered : stateOf d'.registry id ≠ none)
    (fewer : stateOf d'.registry id = some .active → stateOf d.registry id = some .active)
    (holds : HoldsApproved d.queue id → d.bridge.skillOfProposal.get id = some id →
      stateOf d'.registry id = some .active →
      HoldsApproved d'.queue id ∧ d'.bridge.skillOfProposal.get id = some id) : Gated d' id where
  registered := registered
  approved active := by
    obtain ⟨held, mapped⟩ := gated.approved (fewer active)
    exact holds held mapped active

theorem pending_not_approved {p : Proposal} (pending : p.isPending = true) :
    p.isApproved = false := by
  cases status : p.status <;> simp_all [Proposal.isPending, Proposal.isApproved]

theorem holds_enqueue {q : Queue} {id : String} (held : HoldsApproved q id) (proposal : Proposal) :
    HoldsApproved (ApprovalQueue.enqueue q proposal).1 id := by
  rw [ApprovalQueue.enqueue]
  split
  · exact held
  · rename_i free
    obtain ⟨p, found, approved⟩ := held
    have apart : id ≠ proposal.id := by
      rintro rfl
      cases free.symm.trans found
    exact (holds_put_other apart).mpr ⟨p, found, approved⟩

theorem track_get (b : SkillApprovalBridge) (other : String) {id : String}
    (mapped : b.skillOfProposal.get id = some id) :
    (track b other).skillOfProposal.get id = some id := by
  rw [track, KeyedMap.get_insert]
  split
  · rename_i same
    rw [same]
  · exact mapped

theorem enqueueSkill_keeps {d : Desk} {id : String} (held : HoldsApproved d.queue id)
    (mapped : d.bridge.skillOfProposal.get id = some id) (outcome : ProposalOutcome)
    (proposal : SkillProposal) :
    HoldsApproved (enqueueSkill d outcome proposal).1.queue id ∧
      (enqueueSkill d outcome proposal).1.bridge.skillOfProposal.get id = some id := by
  rw [enqueueSkill]
  split
  · exact ⟨held, mapped⟩
  · rename_i queueProposal _
    have kept := holds_enqueue held queueProposal
    rw [enqueueSkillProposal]
    split
    · exact ⟨held, mapped⟩
    · rename_i queue added
      rw [added] at kept
      exact ⟨kept, track_get d.bridge queueProposal.id mapped⟩

theorem enqueueTool_keeps {d : Desk} {id : String} (held : HoldsApproved d.queue id)
    (mapped : d.bridge.skillOfProposal.get id = some id) (toLowercase : String → String)
    (proposal : ToolProposal) (fixtureSummary : String) :
    HoldsApproved (enqueueTool toLowercase d proposal fixtureSummary).1.queue id ∧
      (enqueueTool toLowercase d proposal fixtureSummary).1.bridge.skillOfProposal.get id =
        some id := by
  have kept := holds_enqueue held (toolProposalToQueueProposal toLowercase proposal fixtureSummary)
  simp only [enqueueTool]
  split
  · exact ⟨held, mapped⟩
  · rename_i queue added
    rw [added] at kept
    exact ⟨kept, mapped⟩

theorem reject_keeps {d : Desk} {id : String} (held : HoldsApproved d.queue id)
    (mapped : d.bridge.skillOfProposal.get id = some id) (proposalId reason : String) (ts : Nat) :
    HoldsApproved (reject d proposalId reason ts).1.queue id ∧
      (reject d proposalId reason ts).1.bridge.skillOfProposal.get id = some id := by
  rw [reject, ApprovalQueue.reject]
  rcases transition_cases d.queue proposalId Proposal.isPending .isNotPending (.rejected ts reason)
    "rejected" ts reason with ⟨e, same, -⟩ | ⟨p, found, pending, same⟩
  · rw [same]
    exact ⟨held, mapped⟩
  · rw [same]
    have apart : id ≠ proposalId := by
      rintro rfl
      obtain ⟨q, again, approved⟩ := held
      cases found.symm.trans again
      simp [pending_not_approved pending] at approved
    exact ⟨(holds_put_other apart).mpr held, mapped⟩

theorem Gated.rollback {d : Desk} {id : String} (gated : Gated d id) (proposalId reason : String)
    (ts : Nat) (registered : stateOf (rollback d proposalId reason ts).1.registry id ≠ none)
    (fewer : stateOf (rollback d proposalId reason ts).1.registry id = some .active →
      stateOf d.registry id = some .active) : Gated (rollback d proposalId reason ts).1 id := by
  refine gated.keep registered fewer ?_
  intro held mapped active
  rcases rollback_cases d proposalId reason ts with
    ⟨same, -⟩ | ⟨p, log, -, -, bridge, queue, registry⟩
  · rw [same]
    exact ⟨held, mapped⟩
  · rw [registry] at active
    rw [bridge, queue]
    refine ⟨(holds_put_other ?_).mpr held, mapped⟩
    rintro rfl
    rw [mapped] at active
    dsimp only at active
    rw [SkillRegistry.rollback, stateOf_setState, if_pos rfl] at active
    cases before : stateOf d.registry id with
    | none => simp [before] at active
    | some state => simp [before] at active

theorem Gated.approve {d : Desk} {id : String} (gated : Gated d id) (proposalId reason : String)
    (ts : Nat) (registered : stateOf (approve d proposalId reason ts).1.registry id ≠ none) :
    Gated (approve d proposalId reason ts).1 id := by
  refine ⟨registered, ?_⟩
  intro active
  rcases approve_cases d proposalId reason ts with
    ⟨same, -⟩ | ⟨p, log, found, pending, bridge, queue, registry⟩
  · rw [same] at active ⊢
    exact gated.approved active
  · rw [registry] at active
    rw [bridge, queue]
    have unapproved : ¬ HoldsApproved d.queue proposalId := by
      rintro ⟨q, again, approved⟩
      cases found.symm.trans again
      simp [pending_not_approved pending] at approved
    by_cases own : id = proposalId
    · subst own
      refine ⟨holds_put_self.mpr rfl, ?_⟩
      cases mapped : d.bridge.skillOfProposal.get id with
      | none =>
        rw [mapped] at active
        exact absurd (gated.approved active).1 unapproved
      | some skillId => rw [d.bridge.direct id skillId mapped]
    · have before : stateOf d.registry id = some .active := by
        cases mapped : d.bridge.skillOfProposal.get proposalId with
        | none => simpa [mapped] using active
        | some skillId =>
          have apart : id ≠ skillId := by
            rw [d.bridge.direct proposalId skillId mapped]
            exact own
          simpa [mapped, promote, stateOf_setState, apart] using active
      obtain ⟨held, mapped⟩ := gated.approved before
      exact ⟨(holds_put_other own).mpr held, mapped⟩

theorem Gated.step {d : Desk} {id : String} (gated : Gated d id) (toLowercase : String → String)
    (op : DeskOp) : Gated (deskStep toLowercase d op) id := by
  obtain ⟨before, found⟩ := Option.ne_none_iff_exists'.mp gated.registered
  obtain ⟨after, kept, moved⟩ := step_states toLowercase d op found
  have registered : stateOf (deskStep toLowercase d op).registry id ≠ none :=
    kept ▸ Option.some_ne_none after
  have fewer : (∀ proposalId reason ts, op ≠ .approve proposalId reason ts) →
      stateOf (deskStep toLowercase d op).registry id = some .active →
        stateOf d.registry id = some .active := by
    intro other active
    cases kept.symm.trans active
    rcases moved with same | inactive | ⟨proposalId, reason, ts, made⟩
    · rw [found, same]
    · exact absurd rfl (blocked_iff.mp inactive).1
    · exact absurd made (other proposalId reason ts)
  cases op with
  | approve proposalId reason ts => exact gated.approve proposalId reason ts registered
  | rollback proposalId reason ts =>
    exact gated.rollback proposalId reason ts registered (fewer fun _ _ _ => by simp)
  | enqueueSkill outcome proposal =>
    exact gated.keep registered (fewer fun _ _ _ => by simp) fun held mapped _ =>
      enqueueSkill_keeps held mapped outcome proposal
  | enqueueTool proposal fixtureSummary =>
    exact gated.keep registered (fewer fun _ _ _ => by simp) fun held mapped _ =>
      enqueueTool_keeps held mapped toLowercase proposal fixtureSummary
  | reject proposalId reason ts =>
    exact gated.keep registered (fewer fun _ _ _ => by simp) fun held mapped _ =>
      reject_keeps held mapped proposalId reason ts
  | evaluate proposal screen gate =>
    exact gated.keep registered (fewer fun _ _ _ => by simp) fun held mapped _ => ⟨held, mapped⟩
  | rollbackSkill skillId =>
    exact gated.keep registered (fewer fun _ _ _ => by simp) fun held mapped _ => ⟨held, mapped⟩
  | quarantine skillId reason =>
    exact gated.keep registered (fewer fun _ _ _ => by simp) fun held mapped _ => ⟨held, mapped⟩
  | killSwitch reason =>
    exact gated.keep registered (fewer fun _ _ _ => by simp) fun held mapped _ => ⟨held, mapped⟩

/-! ## Runs -/

theorem desk_snoc (toLowercase : String → String) (start : Desk) (ops : List DeskOp) (op : DeskOp) :
    desk toLowercase start (ops ++ [op]) = deskStep toLowercase (desk toLowercase start ops) op :=
  List.foldl_append

theorem gated_run (toLowercase : String → String) {d : Desk} {id : String} (gated : Gated d id)
    (ops : List DeskOp) : Gated (desk toLowercase d ops) id := by
  induction ops generalizing d with
  | nil => exact gated
  | cons op rest ih => exact ih (gated.step toLowercase op)

theorem blocked_step (toLowercase : String → String) {d : Desk} {op : DeskOp} {id : String}
    (blocked : Blocked (stateOf d.registry id)) (unrevived : ¬ Revives d op) :
    Blocked (stateOf (deskStep toLowercase d op).registry id) := by
  cases found : stateOf d.registry id with
  | none =>
    rw [found] at blocked
    exact blocked.elim
  | some before =>
    obtain ⟨after, kept, same | moved | ⟨proposalId, reason, ts, rfl⟩⟩ :=
      step_states toLowercase d op found
    · rw [kept, same, ← found]
      exact blocked
    · rw [kept]
      exact moved
    · rcases approve_states d proposalId reason ts with ⟨same, -⟩ | ⟨skillId, awaits, states⟩
      · rw [deskStep, same]
        exact blocked
      · have unowned : id ≠ skillId := by
          rintro rfl
          exact unrevived ⟨id, awaits, blocked⟩
        rw [deskStep, states, if_neg unowned]
        exact blocked

theorem blocked_run (toLowercase : String → String) {d : Desk} {id : String}
    (blocked : Blocked (stateOf d.registry id)) {ops : List DeskOp}
    (unrevived : ∀ pre op post, ops = pre ++ op :: post → ¬ Revives (desk toLowercase d pre) op) :
    Blocked (stateOf (desk toLowercase d ops).registry id) := by
  induction ops using List.reverseRecOn with
  | nil => exact blocked
  | append_singleton ops op ih =>
    rw [desk_snoc]
    refine blocked_step toLowercase (ih ?_) (unrevived ops op [] rfl)
    rintro pre other post rfl
    exact unrevived pre other (post ++ [op]) (by simp)

/-- Only proposed skills are promoted and blocked ones stay inactive exactly in the runs that approve
no waiting proposal of a blocked skill. In every run an agent's skill that the gate held back is
active only while its proposal is approved. -/
theorem skill_approvals_safe_iff (toLowercase : String → String) (start : Desk)
    (ops : List DeskOp) :
    ((∀ pre op post, ops = pre ++ op :: post →
        ActivatesProposed (desk toLowercase start pre) (desk toLowercase start (pre ++ [op]))) ∧
      (∀ pre post id, ops = pre ++ post →
        Blocked (stateOf (desk toLowercase start pre).registry id) →
          stateOf (desk toLowercase start ops).registry id ≠ some .active) ↔
      ∀ pre op post, ops = pre ++ op :: post → ¬ Revives (desk toLowercase start pre) op) ∧
    ∀ pre proposal screen gate post id action,
      ops = pre ++ .evaluate proposal screen gate :: post → proposal.authoredBy = .agent →
      gate.autoPromoteAgentSkills = false →
      (evaluateSkillProposal toLowercase proposal (desk toLowercase start pre).registry screen
        gate).2 = .ok ⟨some id, action⟩ →
      stateOf (desk toLowercase start ops).registry id = some .active →
        HoldsApproved (desk toLowercase start ops).queue id := by
  refine ⟨⟨?_, ?_⟩, ?_⟩
  · rintro ⟨proposed, -⟩ pre op post split
    have step := proposed pre op post split
    rw [desk_snoc] at step
    exact (activatesProposed_iff toLowercase _ op).mp step
  · intro unrevived
    constructor
    · intro pre op post split
      rw [desk_snoc]
      exact (activatesProposed_iff toLowercase _ op).mpr (unrevived pre op post split)
    · rintro pre post id rfl blocked
      have kept : Blocked (stateOf (desk toLowercase start (pre ++ post)).registry id) := by
        rw [desk, List.foldl_append]
        refine blocked_run toLowercase blocked ?_
        rintro earlier op later rfl
        have unrevived := unrevived (pre ++ earlier) op later (by simp)
        rwa [desk, List.foldl_append] at unrevived
      intro active
      rw [active] at kept
      exact kept
  · rintro pre proposal screen gate post id action rfl agent held evaluated active
    have registered : Gated (desk toLowercase start (pre ++ [.evaluate proposal screen gate])) id := by
      rw [desk_snoc]
      rcases evaluate_cases toLowercase proposal (desk toLowercase start pre).registry screen gate
        with ⟨-, unregistered⟩ | ⟨added, -, -, state, ⟨_, answer⟩, entries⟩
      · cases unregistered _ evaluated
      · rw [answer] at evaluated
        cases evaluated
        have proposed : stateOf (deskStep toLowercase (desk toLowercase start pre)
            (.evaluate proposal screen gate)).registry added.id = some .proposed := by
          simp [deskStep, stateOf, entries, state, initialState, agent, held]
        constructor
        · simp [proposed]
        · simp [proposed]
    have gated := gated_run toLowercase registered post
    have whole : desk toLowercase (desk toLowercase start (pre ++ [.evaluate proposal screen gate]))
        post = desk toLowercase start (pre ++ .evaluate proposal screen gate :: post) := by
      simp [desk, List.foldl_append]
    rw [whole] at gated
    exact (gated.approved active).1

def sampleProposal : SkillProposal := ⟨"---\nname: s\n---\n", .agent, 1, none⟩

def emptyDesk : Desk := ⟨.new, empty, ⟨[], List.nodup_nil⟩⟩

/-- An agent's skill that waits for the operator and is quarantined meanwhile. -/
def quarantinedRun : List DeskOp :=
  [.evaluate sampleProposal ⟨true, 65536⟩ ⟨false⟩,
    .enqueueSkill ⟨some "s", .pendingApproval⟩ sampleProposal, .quarantine "s" "flagged"]

theorem quarantined_skill_reactivated :
    (evaluateSkillProposal id sampleProposal emptyDesk.registry ⟨true, 65536⟩ ⟨false⟩).2 =
      .ok ⟨some "s", .pendingApproval⟩ ∧
    stateOf (desk id emptyDesk quarantinedRun).registry "s" = some (.quarantined "flagged") ∧
    stateOf (desk id emptyDesk (quarantinedRun ++ [.approve "s" "late" 9])).registry "s" =
      some .active := by
  decide +kernel

/-! ## Decisions at the console -/

/-- What is wired into the console server and takes part in a decision. -/
structure Wired where
  approvalQueue : Queue
  skillRegistry : Registry
  adapterLibrary : AdapterLibrary.Library

/-- The approve and reject endpoints; there is none for a rollback. -/
def consoleAction (debug : ProposalStatus → String) (w : Wired) (proposalId : String)
    (approve : Bool) (body : ConsoleApprovals.ActionBody) (ts : Nat) :
    Wired × ConsoleApprovals.Response :=
  let r := ConsoleApprovals.serveApprovalAction debug w.approvalQueue proposalId approve body ts
  ({ w with
     approvalQueue := r.queue
     adapterLibrary := r.forward.elim w.adapterLibrary
       (ConsoleApprovals.forwardDecision w.adapterLibrary) }, r.response)

def Wired.desk (w : Wired) (bridge : SkillApprovalBridge) : Desk :=
  ⟨bridge, w.approvalQueue, w.skillRegistry⟩

theorem updateKey_idle {r : Registry} {id : String} {state : SkillState}
    (settled : stateOf r id = none ∨ stateOf r id = some state) :
    KeyedList.updateKey SkillEntry.id id (withState state) r.entries = r.entries := by
  obtain ⟨entries, distinct⟩ := r
  simp only [stateOf, find] at settled
  induction entries with
  | nil => rfl
  | cons e rest ih =>
    by_cases named : e.id = id
    · have here : e.state = state := by
        simpa [KeyedList.findKey, named] using settled
      have same : withState state e = e := by
        rw [withState, ← here]
      simp [KeyedList.updateKey, named, same]
    · have tail := ih (List.nodup_cons.mp distinct).2 (by
        simpa [KeyedList.findKey, named] using settled)
      simp [KeyedList.updateKey, named, tail]

/-- Setting a state changes nothing exactly when no skill of the id has another state. -/
theorem setState_idle_iff (r : Registry) (id : String) (state : SkillState) :
    (setState r id state).1 = r ↔ stateOf r id = none ∨ stateOf r id = some state := by
  constructor
  · intro same
    have states := stateOf_setState r id state id
    rw [same, if_pos rfl] at states
    cases found : stateOf r id with
    | none => exact .inl rfl
    | some before =>
      rw [found] at states
      exact .inr states
  · intro settled
    rw [setState]
    split
    · rfl
    · have idle := updateKey_idle settled
      obtain ⟨entries, distinct⟩ := r
      simp only [idle]

/-- An accepted decision on a mapped proposal is carried out on its skill. -/
theorem routeDecision_accepted (d : Desk) {proposalId skillId : String} {queue : Queue}
    (mapped : d.bridge.skillOfProposal.get proposalId = some skillId)
    (carryOut : Registry → String → Registry × Except RegistryError Unit) :
    (routeDecision d proposalId (queue, .ok ()) carryOut).1 =
      { d with queue := queue, registry := (carryOut d.registry skillId).1 } := by
  simp only [routeDecision, mapped]

/-- An action that succeeds has decided the proposal as the queue would have. -/
theorem consoleAction_success {debug : ProposalStatus → String} {w : Wired}
    {proposalId reason : String} {ts : Nat}
    (success : (consoleAction debug w proposalId true (.reason reason) ts).2.status = 200) :
    ApprovalQueue.approve w.approvalQueue proposalId reason ts =
      ((consoleAction debug w proposalId true (.reason reason) ts).1.approvalQueue, .ok ()) := by
  cases decided : ApprovalQueue.approve w.approvalQueue proposalId reason ts with
  | mk queue answer =>
    cases answer with
    | error e =>
      simp [consoleAction, ConsoleApprovals.serveApprovalAction, ConsoleApprovals.decideProposal,
        decided] at success
    | ok accepted =>
      simp [consoleAction, ConsoleApprovals.serveApprovalAction, ConsoleApprovals.decideProposal,
        decided]

theorem consoleAction_library {w : Wired} {proposalId : String} {p : Proposal}
    {name description promptHash : String}
    (found : w.approvalQueue.proposals proposalId = some p)
    (newSkill : p.kind = .newSkill name description promptHash) (debug : ProposalStatus → String)
    (approve : Bool) (body : ConsoleApprovals.ActionBody) (ts : Nat) :
    (consoleAction debug w proposalId approve body ts).1.adapterLibrary = w.adapterLibrary := by
  have unweighted : ConsoleApprovals.weightOp w.approvalQueue proposalId = none := by
    simp [ConsoleApprovals.weightOp, found, newSkill]
  have unforwarded : (ConsoleApprovals.serveApprovalAction debug w.approvalQueue proposalId approve
      body ts).forward = none := by
    rcases ConsoleApprovals.action_cases debug w.approvalQueue proposalId approve body ts with
      ⟨-, idle, -⟩ | ⟨-, -, -, -, -, -, forward⟩
    · exact idle
    · rw [forward, unweighted]
      rfl
  simp only [consoleAction, unforwarded]
  rfl

/-- On a skill's proposal the console's queue goes where the bridge would take it, and so does the
registry exactly when the decision has nothing left to do there. -/
theorem console_decision_agrees_iff (debug : ProposalStatus → String)
    (bridge : SkillApprovalBridge) (w : Wired) {proposalId skillId : String} {p : Proposal}
    {name description promptHash : String}
    (mapped : bridge.skillOfProposal.get proposalId = some skillId)
    (found : w.approvalQueue.proposals proposalId = some p)
    (newSkill : p.kind = .newSkill name description promptHash) (reason : String) (ts : Nat) :
    ((consoleAction debug w proposalId true (.reason reason) ts).2.status = 200 →
      (consoleAction debug w proposalId true (.reason reason) ts).1.adapterLibrary =
        w.adapterLibrary ∧
      (consoleAction debug w proposalId true (.reason reason) ts).1.approvalQueue =
        (approve (w.desk bridge) proposalId reason ts).1.queue ∧
      ((consoleAction debug w proposalId true (.reason reason) ts).1.skillRegistry =
          (approve (w.desk bridge) proposalId reason ts).1.registry ↔
        stateOf w.skillRegistry skillId = none ∨ stateOf w.skillRegistry skillId = some .active)) ∧
    ((ApprovalQueue.rollback w.approvalQueue proposalId reason ts).2 = .ok () →
      (ApprovalQueue.rollback w.approvalQueue proposalId reason ts).1 =
        (rollback (w.desk bridge) proposalId reason ts).1.queue ∧
      (w.skillRegistry = (rollback (w.desk bridge) proposalId reason ts).1.registry ↔
        stateOf w.skillRegistry skillId = none ∨
          stateOf w.skillRegistry skillId = some .rolledBack)) := by
  constructor
  · intro success
    have bridged : (approve (w.desk bridge) proposalId reason ts).1 =
        ⟨bridge, (consoleAction debug w proposalId true (.reason reason) ts).1.approvalQueue,
          (setState w.skillRegistry skillId .active).1⟩ := by
      have decided : ApprovalQueue.approve (w.desk bridge).queue proposalId reason ts = _ :=
        consoleAction_success success
      rw [approve, decided]
      exact routeDecision_accepted (w.desk bridge) mapped promote
    rw [bridged]
    refine ⟨consoleAction_library found newSkill debug true (.reason reason) ts, rfl, ?_⟩
    exact eq_comm.trans (setState_idle_iff w.skillRegistry skillId .active)
  · intro accepted
    have bridged : (rollback (w.desk bridge) proposalId reason ts).1 =
        ⟨bridge, (ApprovalQueue.rollback w.approvalQueue proposalId reason ts).1,
          (setState w.skillRegistry skillId .rolledBack).1⟩ := by
      have decided : ApprovalQueue.rollback (w.desk bridge).queue proposalId reason ts =
          ((ApprovalQueue.rollback w.approvalQueue proposalId reason ts).1, .ok ()) :=
        Prod.ext rfl accepted
      rw [rollback, decided]
      exact routeDecision_accepted (w.desk bridge) mapped SkillRegistry.rollback
    rw [bridged]
    refine ⟨rfl, ?_⟩
    exact eq_comm.trans (setState_idle_iff w.skillRegistry skillId .rolledBack)

def sampleDesk : Desk := desk id emptyDesk
  [.evaluate sampleProposal ⟨true, 65536⟩ ⟨false⟩,
    .enqueueSkill ⟨some "s", .pendingApproval⟩ sampleProposal]

def sampleWired : Wired :=
  ⟨sampleDesk.queue, sampleDesk.registry, AdapterLibrary.withPolicy 1 .oldestFirst⟩

theorem sample_decision_agrees :
    (consoleAction (fun _ => "") sampleWired "s" true (.reason "fine") 9).1.approvalQueue =
      (approve (sampleWired.desk sampleDesk.bridge) "s" "fine" 9).1.queue ∧
    ((consoleAction (fun _ => "") sampleWired "s" true (.reason "fine") 9).1.skillRegistry =
        (approve (sampleWired.desk sampleDesk.bridge) "s" "fine" 9).1.registry ↔
      stateOf sampleWired.skillRegistry "s" = none ∨
        stateOf sampleWired.skillRegistry "s" = some .active) :=
  have mapped : sampleDesk.bridge.skillOfProposal.get "s" = some "s" := by decide +kernel
  have found : sampleWired.approvalQueue.proposals "s" =
      some { id := "s"
             kind := .newSkill "s" "" (contentFingerprint sampleProposal.skillText.toUTF8.toList)
             createdAtNs := 1
             provenance := "agent"
             sandboxResult := none
             defenceVerdict := none
             status := .pending } := by decide +kernel
  have success : (consoleAction (fun _ => "") sampleWired "s" true (.reason "fine") 9).2.status =
      200 := by decide +kernel
  ((console_decision_agrees_iff (fun _ => "") sampleDesk.bridge sampleWired mapped found rfl "fine"
    9).1 success).2

theorem console_approval_forgets_skill :
    sampleDesk.bridge.skillOfProposal.get "s" = some "s" ∧
    (consoleAction (fun _ => "") sampleWired "s" true (.reason "fine") 9).2.status = 200 ∧
    ((consoleAction (fun _ => "") sampleWired "s" true (.reason "fine") 9).1.approvalQueue.proposals
      "s").map Proposal.isApproved = some true ∧
    stateOf (consoleAction (fun _ => "") sampleWired "s" true (.reason "fine") 9).1.skillRegistry
      "s" = some .proposed ∧
    stateOf (approve (sampleWired.desk sampleDesk.bridge) "s" "fine" 9).1.registry "s" =
      some .active := by
  decide +kernel

end SkillBridge
