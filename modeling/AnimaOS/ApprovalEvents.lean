import Mathlib.Data.List.Induction
import AnimaOS.ApprovalQueue
import AnimaOS.EventLog

/-!
# Approvals and their log

What `approved` reports against what the log records. The two agree as long as
no proposal arrives already approved.
-/

namespace ApprovalQueue

open EventLog Machine

/-! ## An approval in the log -/

def IsEnqueue (id : String) (entry : ApprovalLogEntry) : Prop :=
  entry.proposalId = id ∧ entry.action = "enqueued"

/-- The entry leaves an approval of `id` in force: it is about another proposal, or it neither
enqueues, rejects nor rolls back. -/
def Spares (id : String) (entry : ApprovalLogEntry) : Prop :=
  entry.proposalId = id → entry.action ≠ "enqueued" ∧ entry.action ≠ "rejected" ∧
    entry.action ≠ "rolled_back"

def IsApproval (id : String) (earlier : List ApprovalLogEntry) (entry : ApprovalLogEntry) : Prop :=
  entry.proposalId = id ∧ entry.action = "approved" ∧ ∃ e ∈ earlier, IsEnqueue id e

/-- The log has an approval of `id`, after an enqueue of it, that nothing since has undone. -/
def ApprovedByLog (log : List ApprovalLogEntry) (id : String) : Prop :=
  Stands (IsApproval id) (Spares id) log

def Reported (q : Queue) (id : String) : Prop :=
  id ∈ (approved q).map Proposal.id

instance (q : Queue) (id : String) : Decidable (Reported q id) :=
  inferInstanceAs (Decidable (id ∈ (approved q).map Proposal.id))

theorem approvedByLog_other {log : List ApprovalLogEntry} {entry : ApprovalLogEntry} {id : String}
    (other : entry.proposalId ≠ id) :
    ApprovedByLog (log ++ [entry]) id ↔ ApprovedByLog log id := by
  constructor
  · intro stands
    rcases stands_snoc.mp stands with ⟨same, -⟩ | ⟨before, -⟩
    · exact absurd same other
    · exact before
  · intro before
    exact stands_snoc.mpr (.inr ⟨before, fun same => absurd same other⟩)

theorem not_approvedByLog {log : List ApprovalLogEntry} {entry : ApprovalLogEntry}
    (undoes : entry.action = "enqueued" ∨ entry.action = "rejected" ∨
      entry.action = "rolled_back") :
    ¬ ApprovedByLog (log ++ [entry]) entry.proposalId := by
  intro stands
  rcases stands_snoc.mp stands with ⟨-, approves, -⟩ | ⟨-, spares⟩
  · rw [approves] at undoes
    exact absurd undoes (by decide)
  · obtain ⟨first, second, third⟩ := spares rfl
    rcases undoes with made | made | made
    · exact first made
    · exact second made
    · exact third made

/-! ## The invariant of a run -/

/-- How the parts of the queue belong together, whatever proposals are enqueued. -/
structure Consistent (q : Queue) : Prop where
  keyed : ∀ id p, q.proposals id = some p → p.id = id
  ordered : ∀ id, id ∈ q.insertionOrder ↔ q.proposals id ≠ none
  logged : ∀ id, q.proposals id ≠ none → ∃ e ∈ q.log, IsEnqueue id e

theorem filed_of_found {q : Queue} {id : String} {p : Proposal} (found : q.proposals id = some p) :
    q.proposals id ≠ none :=
  found ▸ Option.some_ne_none p

def HoldsApproved (q : Queue) (id : String) : Prop :=
  ∃ p, q.proposals id = some p ∧ p.isApproved = true

theorem reported_iff {q : Queue} (h : Consistent q) (id : String) :
    Reported q id ↔ HoldsApproved q id := by
  constructor
  · intro reported
    obtain ⟨p, listed, named⟩ := List.mem_map.mp reported
    obtain ⟨listed, approves⟩ := List.mem_filter.mp listed
    obtain ⟨key, -, found⟩ := List.mem_filterMap.mp listed
    have same := h.keyed key p found
    rw [← same, named] at found
    exact ⟨p, found, approves⟩
  · rintro ⟨p, found, approves⟩
    have placed : id ∈ q.insertionOrder := (h.ordered id).mpr (filed_of_found found)
    have listed : p ∈ approved q := by
      apply List.mem_filter.mpr
      exact ⟨List.mem_filterMap.mpr ⟨id, placed, found⟩, approves⟩
    exact List.mem_map.mpr ⟨p, listed, h.keyed id p found⟩

theorem put_some {q : Queue} {id other : String} {p : Proposal} :
    q.put id p other ≠ none ↔ other = id ∨ q.proposals other ≠ none := by
  simp only [Queue.put]
  by_cases same : other = id
  · simp [same]
  · simp [same]

theorem put_keyed {q : Queue} {id : String} {p : Proposal} (h : Consistent q) (named : p.id = id)
    (other : String) (found : Proposal) (at_other : q.put id p other = some found) :
    found.id = other := by
  simp only [Queue.put] at at_other
  split at at_other
  · rename_i same
    cases at_other
    exact named.trans same.symm
  · exact h.keyed other found at_other

theorem change_consistent {q next : Queue} {op : Op} {failed : Bool}
    (change : Change q op next failed) (h : Consistent q) : Consistent next := by
  cases change with
  | failed => exact h
  | filed proposal made free =>
    constructor
    · exact put_keyed h rfl
    · intro id
      rw [put_some, ← h.ordered, List.mem_append, List.mem_singleton]
      exact Or.comm
    · intro id held
      rcases put_some.mp held with rfl | held
      · exact ⟨_, List.mem_append_right _ (List.mem_singleton_self _), rfl, rfl⟩
      · obtain ⟨e, listed, enqueues⟩ := h.logged id held
        exact ⟨e, List.mem_append_left _ listed, enqueues⟩
  | decided id proposal ready status action ts reason decision found met =>
    have filed := filed_of_found found
    constructor
    · exact put_keyed h (h.keyed id proposal found)
    · intro other
      rw [put_some, ← h.ordered]
      constructor
      · exact .inr
      · rintro (rfl | placed)
        · exact (h.ordered _).mpr filed
        · exact placed
    · intro other held
      have held : q.proposals other ≠ none := by
        rcases put_some.mp held with rfl | held
        · exact filed
        · exact held
      obtain ⟨e, listed, enqueues⟩ := h.logged other held
      exact ⟨e, List.mem_append_left _ listed, enqueues⟩

theorem after_consistent (ops : List Op) : Consistent (after ops) := by
  apply final_invariant
  · exact fun q op h => change_consistent (step_change q op) h
  · constructor
    · rintro id p ⟨⟩
    · intro id
      exact ⟨fun listed => absurd listed List.not_mem_nil, fun filed => absurd rfl filed⟩
    · exact fun id filed => absurd rfl filed

/-- The request files a proposal that already carries an approval. -/
def ArrivesApproved (q : Queue) (op : Op) : Prop :=
  ∃ p, op = .enqueue p ∧ q.proposals p.id = none ∧ p.isApproved = true

def Agrees (q : Queue) : Prop :=
  ∀ id, HoldsApproved q id ↔ ApprovedByLog q.log id

theorem holds_put_self {q : Queue} {id : String} {p : Proposal} {order : List String}
    {log : List ApprovalLogEntry} :
    HoldsApproved ⟨q.put id p, order, log⟩ id ↔ p.isApproved = true := by
  simp [HoldsApproved, Queue.put]

theorem holds_put_other {q : Queue} {id other : String} {p : Proposal} {order : List String}
    {log : List ApprovalLogEntry} (different : other ≠ id) :
    HoldsApproved ⟨q.put id p, order, log⟩ other ↔ HoldsApproved q other := by
  simp [HoldsApproved, Queue.put, different]

/-- A decision leaves its proposal approved exactly when it is an approval. -/
theorem decision_agrees {ready : Proposal → Bool} {status : ProposalStatus} {action : String}
    (decision : Decision ready status action) {q : Queue} {id : String} (p : Proposal)
    (logged : ∃ e ∈ q.log, IsEnqueue id e) (ts : Nat) (reason : String) :
    ({ p with status := status } : Proposal).isApproved = true ↔
      ApprovedByLog (q.log ++ [⟨id, action, ts, some reason⟩]) id := by
  cases decision with
  | approves =>
    constructor
    · exact fun _ => stands_snoc.mpr (.inl ⟨rfl, rfl, logged⟩)
    · exact fun _ => rfl
  | rejects =>
    constructor
    · exact fun approves => absurd approves Bool.false_ne_true
    · exact fun stands => absurd stands (not_approvedByLog (.inr (.inl rfl)))
  | rollsBack =>
    constructor
    · exact fun approves => absurd approves Bool.false_ne_true
    · exact fun stands => absurd stands (not_approvedByLog (.inr (.inr rfl)))

theorem change_agrees {q next : Queue} {op : Op} {failed : Bool}
    (change : Change q op next failed) (h : Consistent q) (agrees : Agrees q)
    (fair : ¬ ArrivesApproved q op) : Agrees next := by
  cases change with
  | failed => exact agrees
  | filed proposal made free =>
    intro id
    by_cases same : id = proposal.id
    · subst same
      rw [holds_put_self]
      constructor
      · exact fun approves => absurd ⟨proposal, made, free, approves⟩ fair
      · exact fun stands => absurd stands (not_approvedByLog (.inl rfl))
    · rw [holds_put_other same, agrees id]
      exact (approvedByLog_other (Ne.symm same)).symm
  | decided id proposal ready status action ts reason decision found met =>
    intro other
    by_cases same : other = id
    · subst same
      rw [holds_put_self]
      exact decision_agrees decision proposal (h.logged other (filed_of_found found)) ts reason
    · rw [holds_put_other same, agrees other]
      exact (approvedByLog_other (Ne.symm same)).symm

/-- A proposal filed as approved is reported though its last entry is its enqueue. -/
theorem arrival_disagrees {q : Queue} {op : Op} (arrives : ArrivesApproved q op) :
    ¬ Agrees (step q op).1 := by
  obtain ⟨p, rfl, free, approves⟩ := arrives
  intro agrees
  simp only [step, enqueue, free] at agrees
  have stands := (agrees p.id).mp (holds_put_self.mpr approves)
  exact not_approvedByLog (.inl rfl) stands

/-- In every state of the run `approved` reports what the log approves, and a call that fails
there would change nothing. -/
def Faithful (ops : List Op) : Prop :=
  ∀ pre post, ops = pre ++ post →
    (∀ id, Reported (after pre) id ↔ ApprovedByLog (after pre).log id) ∧
    ∀ op, (step (after pre) op).2.failed = true → (step (after pre) op).1 = after pre

theorem change_failed {q next : Queue} {op : Op} (change : Change q op next true) : next = q := by
  cases change with
  | failed => rfl

theorem failed_unchanged {q : Queue} {op : Op} (failed : (step q op).2.failed = true) :
    (step q op).1 = q :=
  change_failed (failed ▸ step_change q op)

theorem faithful_iff_agrees (ops : List Op) :
    Faithful ops ↔ ∀ pre post, ops = pre ++ post → Agrees (after pre) := by
  constructor
  · intro faithful pre post split id
    rw [← reported_iff (after_consistent pre)]
    exact (faithful pre post split).1 id
  · intro agrees pre post split
    constructor
    · intro id
      rw [reported_iff (after_consistent pre)]
      exact agrees pre post split id
    · exact fun op => failed_unchanged

theorem after_agrees {ops : List Op}
    (fair : ∀ pre op post, ops = pre ++ op :: post → ¬ ArrivesApproved (after pre) op) :
    Agrees (after ops) := by
  induction ops using List.reverseRecOn with
  | nil =>
    intro id
    constructor
    · rintro ⟨p, ⟨⟩, -⟩
    · exact fun stands => absurd stands stands_nil
  | append_singleton ops op ih =>
    rw [after_snoc]
    apply change_agrees (step_change (after ops) op) (after_consistent ops)
    · apply ih
      rintro pre earlier post rfl
      exact fair pre earlier (post ++ [op]) (by simp)
    · exact fair ops op [] rfl

/-- Approval comes with an approval event, in every state of a run, exactly when no proposal of
the run is filed with its status already approved. -/
theorem approved_iff_logged (ops : List Op) :
    Faithful ops ↔
      ∀ pre op post, ops = pre ++ op :: post → ¬ ArrivesApproved (after pre) op := by
  rw [faithful_iff_agrees]
  constructor
  · rintro agrees pre op post rfl arrives
    have wrong := arrival_disagrees arrives
    rw [← after_snoc] at wrong
    exact wrong (agrees (pre ++ [op]) post (by simp))
  · rintro fair pre post rfl
    apply after_agrees
    rintro first op rest rfl
    exact fair first op (rest ++ post) (by simp)

def preapproved : Proposal :=
  ⟨"p1", .newSkill "summarise-email" "Summarises an email thread" "abc123", 1, "dreaming phase",
    none, none, .approved 1 "self"⟩

theorem preapproved_is_reported : ¬ Faithful [.enqueue preapproved] := by
  intro faithful
  have reported := (faithful [.enqueue preapproved] [] rfl).1 "p1"
  have listed : Reported (after [.enqueue preapproved]) "p1" := by
    decide
  rcases stands_snoc.mp (reported.mp listed) with ⟨-, approves, -⟩ | ⟨none, -⟩
  · exact absurd approves (by decide)
  · exact stands_nil none

end ApprovalQueue
