import AnimaOS.KeyedMap
import AnimaOS.Machine

/-!
# The agent table

`AgentPcb` with its validated transitions, and the table of the hosted kernel
that drives them by process id. What a run leaves for an agent is the fold of
the lifecycle over the operations on that agent alone.
-/

namespace AgentTable

open Machine

/-! ## Control blocks -/

structure AgentPid where
  value : UInt32
  deriving DecidableEq, Repr

inductive AgentState where
  | new
  | ready
  | running
  | blocked
  | terminated
  deriving DecidableEq, Repr

def AgentState.canTransitionTo : AgentState → AgentState → Bool
  | .new, .ready => true
  | .ready, .running => true
  | .running, .blocked => true
  | .running, .ready => true
  | .blocked, .ready => true
  | .running, .terminated => true
  | .ready, .terminated => true
  | .blocked, .terminated => true
  | _, _ => false

structure TransitionError where
  source : AgentState
  target : AgentState
  deriving DecidableEq, Repr

structure AgentPcb where
  pid : AgentPid
  state : AgentState
  priority : UInt8
  tokenCredits : UInt32
  deriving DecidableEq, Repr

namespace AgentPcb

def new (pid : AgentPid) (priority : UInt8) (tokenCredits : UInt32) : AgentPcb :=
  ⟨pid, .new, priority, tokenCredits⟩

/-- The previous state, or the edge that is not one. -/
def transition (pcb : AgentPcb) (next : AgentState) :
    AgentPcb × Except TransitionError AgentState :=
  if pcb.state.canTransitionTo next then ({ pcb with state := next }, .ok pcb.state)
  else (pcb, .error ⟨pcb.state, next⟩)

def markReady (pcb : AgentPcb) := pcb.transition .ready

def markRunning (pcb : AgentPcb) := pcb.transition .running

def markBlocked (pcb : AgentPcb) := pcb.transition .blocked

/-- The target alone decides, so that this is also the way out of a wait. -/
def markPreempted (pcb : AgentPcb) := pcb.transition .ready

def markUnblocked (pcb : AgentPcb) := pcb.transition .ready

def terminate (pcb : AgentPcb) := pcb.transition .terminated

end AgentPcb

/-! ## The table -/

abbrev Agents := KeyedMap AgentPid AgentPcb

inductive AgentTableError where
  | unknownAgent (pid : AgentPid)
  | transition (error : TransitionError)
  deriving DecidableEq, Repr

abbrev Answer := Except AgentTableError AgentState

def state (t : Agents) (pid : AgentPid) : Option AgentState := (t.get pid).map AgentPcb.state

def admitAgent (t : Agents) (pid : AgentPid) (priority : UInt8) (tokenCredits : UInt32) :
    Agents × Answer :=
  let marked := (AgentPcb.new pid priority tokenCredits).markReady
  match marked.2 with
  | .error e => (t, .error (.transition e))
  | .ok _ => (t.insert pid marked.1, .ok marked.1.state)

def withPcb (t : Agents) (pid : AgentPid)
    (f : AgentPcb → AgentPcb × Except TransitionError AgentState) : Agents × Answer :=
  match t.get pid with
  | none => (t, .error (.unknownAgent pid))
  | some pcb =>
    match f pcb with
    | (pcb, .error e) => (t.insert pid pcb, .error (.transition e))
    | (pcb, .ok _) => (t.insert pid pcb, .ok pcb.state)

def run (t : Agents) (pid : AgentPid) : Agents × Answer := withPcb t pid AgentPcb.markRunning

def block (t : Agents) (pid : AgentPid) : Agents × Answer := withPcb t pid AgentPcb.markBlocked

def unblock (t : Agents) (pid : AgentPid) : Agents × Answer := withPcb t pid AgentPcb.markUnblocked

def preempt (t : Agents) (pid : AgentPid) : Agents × Answer := withPcb t pid AgentPcb.markPreempted

def terminate (t : Agents) (pid : AgentPid) : Agents × Answer := withPcb t pid AgentPcb.terminate

/-! ## Operations -/

inductive Operation where
  | admitAgent (priority : UInt8) (tokenCredits : UInt32)
  | run
  | block
  | unblock
  | preempt
  | terminate
  deriving DecidableEq, Repr

structure Request where
  pid : AgentPid
  operation : Operation
  deriving DecidableEq, Repr

def step (t : Agents) (r : Request) : Agents × Answer :=
  match r.operation with
  | .admitAgent priority tokenCredits => AgentTable.admitAgent t r.pid priority tokenCredits
  | .run => AgentTable.run t r.pid
  | .block => AgentTable.block t r.pid
  | .unblock => AgentTable.unblock t r.pid
  | .preempt => AgentTable.preempt t r.pid
  | .terminate => AgentTable.terminate t r.pid

/-! ## The lifecycle of one agent -/

/-- The state an operation asks for; an admission starts over. -/
def Operation.target : Operation → AgentState
  | .admitAgent _ _ => .ready
  | .run => .running
  | .block => .blocked
  | .unblock => .ready
  | .preempt => .ready
  | .terminate => .terminated

def Operation.admits : Operation → Bool
  | .admitAgent _ _ => true
  | _ => false

/-- What an operation makes of a control block that it finds, or of none. -/
def lifecycle (pid : AgentPid) (found : Option AgentPcb) (o : Operation) : Option AgentPcb :=
  match o with
  | .admitAgent priority tokenCredits => some ⟨pid, .ready, priority, tokenCredits⟩
  | o => found.map fun pcb =>
    if pcb.state.canTransitionTo o.target then { pcb with state := o.target } else pcb

/-- What it answers. -/
def reply (pid : AgentPid) (found : Option AgentPcb) (o : Operation) : Answer :=
  if o.admits then .ok .ready
  else
    match found with
    | none => .error (.unknownAgent pid)
    | some pcb =>
      if pcb.state.canTransitionTo o.target then .ok o.target
      else .error (.transition ⟨pcb.state, o.target⟩)

theorem withPcb_spec (t : Agents) (pid : AgentPid) (next : AgentState) :
    (withPcb t pid fun pcb => pcb.transition next).2 =
      (match t.get pid with
      | none => .error (.unknownAgent pid)
      | some pcb =>
        if pcb.state.canTransitionTo next then .ok next
        else .error (.transition ⟨pcb.state, next⟩)) ∧
    ∀ other, (withPcb t pid fun pcb => pcb.transition next).1.get other =
      if other = pid then (t.get pid).map fun pcb =>
        if pcb.state.canTransitionTo next then { pcb with state := next } else pcb
      else t.get other := by
  unfold withPcb
  cases found : t.get pid with
  | none =>
    refine ⟨rfl, fun other => ?_⟩
    by_cases same : other = pid
    · simp [same, found]
    · simp [same]
  | some pcb =>
    by_cases legal : pcb.state.canTransitionTo next = true <;>
      simp [AgentPcb.transition, legal, KeyedMap.get_insert]

theorem step_answer (t : Agents) (r : Request) :
    (step t r).2 = reply r.pid (t.get r.pid) r.operation := by
  obtain ⟨pid, operation⟩ := r
  cases operation with
  | admitAgent priority tokenCredits => rfl
  | run => exact (withPcb_spec t pid .running).1
  | block => exact (withPcb_spec t pid .blocked).1
  | unblock => exact (withPcb_spec t pid .ready).1
  | preempt => exact (withPcb_spec t pid .ready).1
  | terminate => exact (withPcb_spec t pid .terminated).1

theorem step_get (t : Agents) (r : Request) (other : AgentPid) :
    (step t r).1.get other =
      if other = r.pid then lifecycle r.pid (t.get r.pid) r.operation else t.get other := by
  obtain ⟨pid, operation⟩ := r
  cases operation with
  | admitAgent priority tokenCredits => exact KeyedMap.get_insert t pid _ other
  | run => exact (withPcb_spec t pid .running).2 other
  | block => exact (withPcb_spec t pid .blocked).2 other
  | unblock => exact (withPcb_spec t pid .ready).2 other
  | preempt => exact (withPcb_spec t pid .ready).2 other
  | terminate => exact (withPcb_spec t pid .terminated).2 other

/-! ## Runs -/

/-- The operations of a run on one agent. -/
def operationsOn (pid : AgentPid) (requests : List Request) : List Operation :=
  (requests.filter fun r => r.pid = pid).map Request.operation

theorem run_get (t : Agents) (requests : List Request) (pid : AgentPid) :
    (final step t requests).get pid =
      (operationsOn pid requests).foldl (lifecycle pid) (t.get pid) := by
  induction requests generalizing t with
  | nil => rfl
  | cons r rest ih =>
    rw [final, ih, step_get]
    by_cases same : r.pid = pid
    · simp [operationsOn, same]
    · simp [operationsOn, same, Ne.symm same]

/-- The priority and credits of each admission, in order. -/
def admissions (operations : List Operation) : List (UInt8 × UInt32) :=
  operations.filterMap fun o =>
    match o with
    | .admitAgent priority tokenCredits => some (priority, tokenCredits)
    | _ => none

/-- A control block that stands under its own id and has been through `New`. -/
def Enrolled (pid : AgentPid) (pcb : AgentPcb) : Prop := pcb.pid = pid ∧ pcb.state ≠ .new

theorem lifecycle_cases (pid : AgentPid) (found : Option AgentPcb) (o : Operation) :
    (∃ priority tokenCredits, o = .admitAgent priority tokenCredits ∧
      lifecycle pid found o = some ⟨pid, .ready, priority, tokenCredits⟩) ∨
    (o.admits = false ∧ admissions [o] = [] ∧
      lifecycle pid found o = found.map fun pcb =>
        if pcb.state.canTransitionTo o.target then { pcb with state := o.target } else pcb) := by
  cases o with
  | admitAgent priority tokenCredits => exact Or.inl ⟨priority, tokenCredits, rfl, rfl⟩
  | _ => exact Or.inr ⟨rfl, rfl, rfl⟩

theorem target_ne_new (o : Operation) : o.target ≠ .new := by
  cases o <;> simp [Operation.target]

theorem lifecycle_enrolled {pid : AgentPid} {found : Option AgentPcb}
    (enrolled : ∀ pcb ∈ found, Enrolled pid pcb) (o : Operation) :
    ∀ pcb ∈ lifecycle pid found o, Enrolled pid pcb := by
  obtain ⟨priority, tokenCredits, rfl, after⟩ | ⟨-, -, after⟩ := lifecycle_cases pid found o
  · simp [after, Enrolled]
  · intro pcb made
    rw [after] at made
    obtain ⟨old, listed, rfl⟩ := Option.map_eq_some_iff.mp made
    have before := enrolled old listed
    split
    · exact ⟨before.1, target_ne_new o⟩
    · exact before

theorem lifecycle_grant {pid : AgentPid} {found : Option AgentPcb} (o : Operation) :
    (lifecycle pid found o).map (fun pcb => (pcb.priority, pcb.tokenCredits)) =
      (admissions [o]).getLast?.or (found.map fun pcb => (pcb.priority, pcb.tokenCredits)) := by
  obtain ⟨priority, tokenCredits, rfl, after⟩ | ⟨-, none, after⟩ := lifecycle_cases pid found o
  · simp [after, admissions]
  · rw [after, none, Option.map_map]
    refine congrArg (Option.map · found) (funext fun pcb => ?_)
    simp only [Function.comp_apply]
    split <;> rfl

theorem fold_enrolled {pid : AgentPid} {found : Option AgentPcb}
    (enrolled : ∀ pcb ∈ found, Enrolled pid pcb) (operations : List Operation) :
    ∀ pcb ∈ operations.foldl (lifecycle pid) found, Enrolled pid pcb := by
  induction operations generalizing found with
  | nil => exact enrolled
  | cons o rest ih => exact ih (lifecycle_enrolled enrolled o)

theorem fold_grant (pid : AgentPid) (found : Option AgentPcb) (operations : List Operation) :
    (operations.foldl (lifecycle pid) found).map (fun pcb => (pcb.priority, pcb.tokenCredits)) =
      (admissions operations).getLast?.or
        (found.map fun pcb => (pcb.priority, pcb.tokenCredits)) := by
  induction operations generalizing found with
  | nil => rfl
  | cons o rest ih =>
    have split : admissions (o :: rest) = admissions [o] ++ admissions rest :=
      List.filterMap_append (l := [o])
    rw [List.foldl_cons, ih, lifecycle_grant, split, List.getLast?_append, Option.or_assoc]

/-- Nothing but an admission leads out of `Terminated`. -/
theorem fold_terminated {pid : AgentPid} {pcb : AgentPcb} (ended : pcb.state = .terminated)
    {operations : List Operation} (kept : ∀ o ∈ operations, o.admits = false) :
    operations.foldl (lifecycle pid) (some pcb) = some pcb := by
  induction operations with
  | nil => rfl
  | cons o rest ih =>
    have first : lifecycle pid (some pcb) o = some pcb := by
      obtain ⟨priority, tokenCredits, rfl, -⟩ | ⟨-, -, after⟩ := lifecycle_cases pid (some pcb) o
      · exact absurd (kept _ List.mem_cons_self) (by simp [Operation.admits])
      · simp [after, ended, AgentState.canTransitionTo]
    rw [List.foldl_cons, first]
    exact ih fun p listed => kept p (List.mem_cons_of_mem o listed)

theorem mem_operationsOn {pid : AgentPid} {requests : List Request} {o : Operation} :
    o ∈ operationsOn pid requests ↔ ⟨pid, o⟩ ∈ requests := by
  simp only [operationsOn, List.mem_map, List.mem_filter, decide_eq_true_iff]
  constructor
  · rintro ⟨⟨_, _⟩, ⟨listed, rfl⟩, rfl⟩
    exact listed
  · intro listed
    exact ⟨⟨pid, o⟩, ⟨listed, rfl⟩, rfl⟩

/-- Over every run on an empty table: an agent is what the lifecycle makes of the operations on it
alone, it is tracked from its first admission on with the grant of its last one, never in `New`,
and each call is answered by the state it finds. Once terminated it stays so, and refuses every
operation, until it is admitted again. -/
theorem agent_table_lifecycle (requests : List Request) (pid : AgentPid) :
    let t := final step KeyedMap.empty requests
    t.get pid = (operationsOn pid requests).foldl (lifecycle pid) none ∧
    (t.get pid).map (fun pcb => (pcb.priority, pcb.tokenCredits)) =
      (admissions (operationsOn pid requests)).getLast? ∧
    (∀ pcb, t.get pid = some pcb → Enrolled pid pcb) ∧
    (∀ c ∈ trace step KeyedMap.empty requests,
      c.response = reply c.request.pid (c.before.get c.request.pid) c.request.operation) ∧
    (state t pid = some .terminated → ∀ more : List Request,
      (∀ o, ⟨pid, o⟩ ∈ more → o.admits = false) →
        (final step t more).get pid = t.get pid ∧
        ∀ c ∈ trace step t more, c.request.pid = pid →
          c.response = .error (.transition ⟨.terminated, c.request.operation.target⟩)) := by
  intro t
  have folded : t.get pid = (operationsOn pid requests).foldl (lifecycle pid) none :=
    run_get KeyedMap.empty requests pid
  refine ⟨folded, ?_, ?_, ?_, ?_⟩
  · rw [folded, fold_grant]
    simp
  · intro pcb found
    exact fold_enrolled (by simp) (operationsOn pid requests) pcb (folded ▸ found)
  · intro c listed
    obtain ⟨-, -, -, -, response⟩ := mem_trace listed
    rw [response, step_answer]
  · intro ended more kept
    obtain ⟨pcb, found, terminated⟩ := Option.map_eq_some_iff.mp ended
    have stays : ∀ part : List Request, (∀ o, ⟨pid, o⟩ ∈ part → o.admits = false) →
        (final step t part).get pid = some pcb := by
      intro part free
      rw [run_get, found]
      exact fold_terminated terminated fun o listed => free o (mem_operationsOn.mp listed)
    refine ⟨by rw [stays more kept, found], ?_⟩
    intro c listed named
    obtain ⟨pre, post, split, before, response⟩ := mem_trace listed
    have free : ∀ o, ⟨pid, o⟩ ∈ pre → o.admits = false := by
      intro o early
      exact kept o (split ▸ List.mem_append_left _ early)
    have here : c.request.operation.admits = false := by
      refine kept _ ?_
      rw [split, ← named]
      exact List.mem_append_right _ List.mem_cons_self
    rw [response, step_answer, named, before, stays pre free]
    simp [reply, here, terminated, AgentState.canTransitionTo]

end AgentTable
