import AnimaOS.MlfqOrder

/-!
# Stamps on the tasks of a run

Every pushed task is stamped with its number in push order and the tier it was
pushed to. Stamps only observe: erased, a stamped run is the run of the code.
-/

namespace Mlfq

open Machine

universe u v

variable {G : Type u} {H : Type v}

def restamp (f : G → H) (t : Task G) : Task H :=
  ⟨t.id, t.mlfqLevel, t.prompt, t.tokenBudget, f t.stamp⟩

def TaskAgenda.restamp (f : G → H) (a : TaskAgenda G) : TaskAgenda H :=
  ⟨a.high.map (Mlfq.restamp f), a.medium.map (Mlfq.restamp f), a.low.map (Mlfq.restamp f)⟩

def IterationAwareMlfq.restamp (f : G → H) (s : IterationAwareMlfq G) : IterationAwareMlfq H :=
  ⟨s.dispatchedTasks.map (Mlfq.restamp f), s.maxDispatchedTasks, s.tierCounters,
    s.totalTokensDispatched, s.boostInterval, s.dispatchCount⟩

def Loop.restamp (f : G → H) (l : Loop G) : Loop H :=
  ⟨l.agenda.restamp f, l.scheduler.restamp f⟩

def Iteration.restamp (f : G → H) (i : Iteration G) : Iteration H :=
  ⟨i.arrivals.map (Mlfq.restamp f), i.backend⟩

theorem push_restamp (f : G → H) (a : TaskAgenda G) (t : Task G) :
    push (a.restamp f) (restamp f t) = (push a t).restamp f := by
  have same : tierOf (restamp f t) = tierOf t := rfl
  rcases push_cases a t with ⟨tier, placed⟩ | ⟨tier, placed⟩ | ⟨tier, placed⟩ <;>
    simp [push, same, tier, TaskAgenda.restamp]

theorem pushAll_restamp (f : G → H) (a : TaskAgenda G) (ts : List (Task G)) :
    pushAll (a.restamp f) (ts.map (restamp f)) = (pushAll a ts).restamp f := by
  induction ts generalizing a with
  | nil => rfl
  | cons t rest ih =>
    have later := ih (push a t)
    rw [← push_restamp] at later
    exact later

theorem checkAndBoost_restamp (f : G → H) (s : IterationAwareMlfq G) (a : TaskAgenda G) :
    (checkAndBoost (s.restamp f) (a.restamp f)).1 = ((checkAndBoost s a).1).restamp f := by
  have same : boostDue (s.restamp f) = boostDue s := rfl
  have raised : restamp f ∘ toHigh = toHigh ∘ restamp f := rfl
  simp only [checkAndBoost, same]
  split
  · simp [boostAllToHigh, TaskAgenda.restamp, raised]
  · rfl

theorem select_restamp (f : G → H) (a : TaskAgenda G) :
    selectOptimalTask (a.restamp f) =
      (selectOptimalTask a).map fun p => (restamp f p.1, p.2.restamp f) := by
  obtain ⟨high, medium, low⟩ := a
  cases high <;> cases medium <;> cases low <;> rfl

theorem recordDispatch_restamp (f : G → H) (s : IterationAwareMlfq G) (t : Task G) :
    recordDispatch (s.restamp f) (restamp f t) = (recordDispatch s t).restamp f := by
  have bounded : ∀ cap (ts : List (Task G)),
      boundHistory cap (ts.map (restamp f)) = (boundHistory cap ts).map (restamp f) := by
    intro cap ts
    simp only [boundHistory]
    split <;> simp [List.map_drop]
  have longer := bounded s.maxDispatchedTasks (s.dispatchedTasks ++ [t])
  rw [List.map_append] at longer
  simp only [recordDispatch, IterationAwareMlfq.restamp, ← longer]
  rfl

theorem dispatchTask_restamp (f : G → H) (s : IterationAwareMlfq G) (t : Task G)
    (backend : String → Stream) :
    (dispatchTask (s.restamp f) (restamp f t) backend).1 =
      ((dispatchTask s t backend).1).restamp f := by
  have prompt : (restamp f t).prompt = t.prompt := rfl
  have budget : (restamp f t).tokenBudget = t.tokenBudget := rfl
  simp only [dispatchTask, recordDispatch_restamp, prompt, budget]
  split
  · rfl
  · split <;> rfl

theorem step_restamp (f : G → H) (l : Loop G) (i : Iteration G) :
    step (l.restamp f) (i.restamp f) = ((step l i).1.restamp f, (step l i).2.map (restamp f)) := by
  have pushes : pushAll (l.restamp f).agenda (i.restamp f).arrivals =
      (pushAll l.agenda i.arrivals).restamp f := pushAll_restamp f l.agenda i.arrivals
  have boosts := checkAndBoost_restamp f l.scheduler (pushAll l.agenda i.arrivals)
  have selects := select_restamp f (checkAndBoost l.scheduler (pushAll l.agenda i.arrivals)).1
  simp only [step, serve, pushes]
  rw [show (l.restamp f).scheduler = l.scheduler.restamp f from rfl, boosts, selects]
  cases selectOptimalTask (checkAndBoost l.scheduler (pushAll l.agenda i.arrivals)).1 with
  | none => rfl
  | some chosen =>
    simp only [Option.map_some, Loop.restamp]
    rw [show (i.restamp f).backend = i.backend from rfl, dispatchTask_restamp]

theorem dispatched_restamp (f : G → H) (l : Loop G) (is : List (Iteration G)) :
    dispatched (trace step (l.restamp f) (is.map (Iteration.restamp f))) =
      (dispatched (trace step l is)).map (restamp f) := by
  induction is generalizing l with
  | nil => rfl
  | cons i rest ih =>
    simp only [List.map_cons, trace, dispatched_cons, step_restamp, ih, List.map_append]
    cases (step l i).2 <;> rfl

theorem final_restamp (f : G → H) (l : Loop G) (is : List (Iteration G)) :
    final step (l.restamp f) (is.map (Iteration.restamp f)) = (final step l is).restamp f := by
  induction is generalizing l with
  | nil => rfl
  | cons i rest ih => simp only [List.map_cons, final, step_restamp, ih]

/-! ## Stamping a run -/

structure Stamp where
  seq : Nat
  tier : Nat
  deriving DecidableEq, Repr

def stampAll (next : Nat) : List (Task Unit) → List (Task Stamp)
  | [] => []
  | t :: rest => restamp (fun _ => ⟨next, tierOf t⟩) t :: stampAll (next + 1) rest

def stampRun (next : Nat) : List (Iteration Unit) → List (Iteration Stamp)
  | [] => []
  | i :: rest =>
    ⟨stampAll next i.arrivals, i.backend⟩ :: stampRun (next + i.arrivals.length) rest

def erase : Task Stamp → Task Unit := restamp fun _ => ()

theorem erase_stampAll (next : Nat) (ts : List (Task Unit)) :
    (stampAll next ts).map erase = ts := by
  induction ts generalizing next with
  | nil => rfl
  | cons t rest ih => exact congrArg (t :: ·) (ih (next + 1))

theorem erase_stampRun (next : Nat) (is : List (Iteration Unit)) :
    (stampRun next is).map (Iteration.restamp fun _ => ()) = is := by
  induction is generalizing next with
  | nil => rfl
  | cons i rest ih =>
    have first : Iteration.restamp (fun _ => ()) ⟨stampAll next i.arrivals, i.backend⟩ = i :=
      congrArg (Iteration.mk · i.backend) (erase_stampAll next i.arrivals)
    simp only [stampRun, List.map_cons, ih, first]

/-- What a stamped run dispatches is, its stamps erased, what the code dispatches. -/
theorem erase_dispatched (n next : Nat) (is : List (Iteration Unit)) :
    (dispatched (trace step (start n) (stampRun next is))).map erase =
      dispatched (trace step (start n) is) := by
  have erased := dispatched_restamp (fun _ : Stamp => ()) (start n) (stampRun next is)
  rw [erase_stampRun] at erased
  exact erased.symm

theorem erase_queue (n next : Nat) (is : List (Iteration Unit)) :
    (queue (final step (start n) (stampRun next is)).agenda).map erase =
      queue (final step (start n) is).agenda := by
  have erased := final_restamp (fun _ : Stamp => ()) (start n) (stampRun next is)
  rw [erase_stampRun] at erased
  have whole := congrArg (fun l => queue l.agenda) erased
  simp only [queue, Loop.restamp, TaskAgenda.restamp] at whole
  simp only [queue, List.map_append]
  exact whole.symm

theorem stampAll_own (next : Nat) (ts : List (Task Unit)) :
    ∀ t ∈ stampAll next ts, t.stamp.tier = tierOf t := by
  induction ts generalizing next with
  | nil => simp [stampAll]
  | cons t rest ih =>
    intro x hx
    rcases List.mem_cons.mp hx with rfl | hx
    · rfl
    · exact ih (next + 1) x hx

theorem stampRun_own (next : Nat) (is : List (Iteration Unit)) :
    ∀ t ∈ pushed (stampRun next is), t.stamp.tier = tierOf t := by
  induction is generalizing next with
  | nil => simp [stampRun, pushed]
  | cons i rest ih =>
    intro x hx
    simp only [stampRun, pushed, List.flatMap_cons, List.mem_append] at hx
    rcases hx with hx | hx
    · exact stampAll_own next i.arrivals x hx
    · exact ih _ x hx

theorem stampAll_seq (next : Nat) (ts : List (Task Unit)) :
    (stampAll next ts).map (·.stamp.seq) = List.range' next ts.length := by
  induction ts generalizing next with
  | nil => rfl
  | cons t rest ih => exact congrArg (next :: ·) (ih (next + 1))

/-- Stamps number the pushed tasks one after the other. -/
theorem stampRun_seq (next : Nat) (is : List (Iteration Unit)) :
    (pushed (stampRun next is)).map (·.stamp.seq) = List.range' next (pushed is).length := by
  induction is generalizing next with
  | nil => rfl
  | cons i rest ih =>
    have later := ih (next + i.arrivals.length)
    simp only [pushed, stampRun, List.flatMap_cons, List.map_append, List.length_append,
      stampAll_seq, ← List.range'_append_1] at later ⊢
    rw [later]

theorem stampRun_length (next : Nat) (is : List (Iteration Unit)) :
    (stampRun next is).length = is.length := by
  induction is generalizing next with
  | nil => rfl
  | cons i rest ih => exact congrArg (· + 1) (ih _)

end Mlfq
