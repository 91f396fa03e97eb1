import AnimaOS.SomaticRuns

/-!
# Operator work in the somatic loop

The tracked ids against the sources of the waiting tasks. The two agree as long
as no id is given up for room and the ids of the intake stay apart from all
others.
-/

namespace SomaticLoop

open FixedWidth Mlfq Prospective Machine
open SensoryBridge (SensoryOrigin)

def sensoryIds (entries : List (Nat × Source)) : List Nat :=
  (entries.map Prod.fst).filter (firstSensoryTaskId ≤ ·)

/-- The waiting entries, the tracked ids and the next id of the intake. -/
structure Tracked (entries : List (Nat × Source)) (tracked : Finset Nat) (next : Nat) : Prop where
  agree : ∀ e ∈ entries, e.1 ∈ tracked ↔ e.2 = .packet .operator
  below : ∀ e ∈ entries, e.1 < next
  sensory : ∀ id ∈ tracked, firstSensoryTaskId ≤ id ∧ id < next
  distinct : (sensoryIds entries).Nodup
  counter : firstSensoryTaskId ≤ next

section

variable {xs ys : List (Nat × Source)} {tracked : Finset Nat} {next : Nat}

theorem Tracked.nil : Tracked [] ∅ firstSensoryTaskId := by
  constructor <;> simp [sensoryIds]

theorem Tracked.perm (h : Tracked xs tracked next) (same : xs.Perm ys) :
    Tracked ys tracked next where
  agree := fun e he => h.agree e (same.mem_iff.mpr he)
  below := fun e he => h.below e (same.mem_iff.mpr he)
  sensory := h.sensory
  distinct := ((same.map Prod.fst).filter _).nodup_iff.mp h.distinct
  counter := h.counter

/-- An id that is used up without a task. -/
theorem Tracked.skip (h : Tracked xs tracked next) : Tracked xs tracked (next + 1) where
  agree := h.agree
  below := fun e he => Nat.lt_succ_of_lt (h.below e he)
  sensory := by
    intro id found
    have known := h.sensory id found
    omega
  distinct := h.distinct
  counter := Nat.le_succ_of_le h.counter

/-- The tasks of callers and intentions stay below the ids of the intake. -/
theorem Tracked.low (h : Tracked xs tracked next) {e : Nat × Source}
    (small : e.1 < firstSensoryTaskId) (other : e.2 ≠ .packet .operator) :
    Tracked (xs ++ [e]) tracked next := by
  have counter := h.counter
  have unknown : e.1 ∉ tracked := fun found => by
    have known := h.sensory e.1 found
    omega
  refine ⟨?_, ?_, h.sensory, ?_, counter⟩
  · intro f hf
    rcases List.mem_append.mp hf with hf | hf
    · exact h.agree f hf
    · rw [List.mem_singleton.mp hf]
      exact iff_of_false unknown other
  · intro f hf
    rcases List.mem_append.mp hf with hf | hf
    · exact h.below f hf
    · rw [List.mem_singleton.mp hf]
      omega
  · have skipped : ¬ firstSensoryTaskId ≤ e.1 := by omega
    simpa [sensoryIds, skipped] using h.distinct

/-- The next id is no waiting task's id, so the new entry stands apart from them. -/
theorem Tracked.fresh (h : Tracked xs tracked next) (source : Source) :
    Tracked (xs ++ [(next, source)])
      (if source = .packet .operator then insert next tracked else tracked) (next + 1) := by
  have counter := h.counter
  have apart : ∀ e ∈ xs, e.1 ≠ next := fun e he => Nat.ne_of_lt (h.below e he)
  have unknown : next ∉ tracked := fun found => Nat.lt_irrefl _ (h.sensory next found).2
  refine ⟨?_, ?_, ?_, ?_, by omega⟩
  · intro e he
    rcases List.mem_append.mp he with he | he
    · have kept := h.agree e he
      split
      · simpa [apart e he] using kept
      · exact kept
    · rw [List.mem_singleton.mp he]
      split
      · rename_i operator
        simp [operator]
      · rename_i other
        exact iff_of_false unknown other
  · intro e he
    rcases List.mem_append.mp he with he | he
    · exact Nat.lt_succ_of_lt (h.below e he)
    · rw [List.mem_singleton.mp he]
      exact Nat.lt_succ_self next
  · intro id found
    split at found
    · rcases Finset.mem_insert.mp found with rfl | found
      · omega
      · have known := h.sensory id found
        omega
    · have known := h.sensory id found
      omega
  · have last : sensoryIds (xs ++ [(next, source)]) = sensoryIds xs ++ [next] := by
      simp [sensoryIds, counter]
    rw [last]
    refine List.nodup_append.mpr ⟨h.distinct, List.nodup_singleton _, ?_⟩
    intro id found other same
    obtain ⟨e, he, rfl⟩ := List.mem_map.mp (List.mem_filter.mp found).1
    rw [List.mem_singleton.mp same]
    exact apart e he

/-- A tracked id is a sensory one, so no other waiting task loses it with the first. -/
theorem Tracked.dispatch {e : Nat × Source} (h : Tracked (e :: xs) tracked next) :
    Tracked xs (tracked.erase e.1) next := by
  refine ⟨?_, fun f hf => h.below f (List.mem_cons_of_mem _ hf), ?_, ?_, h.counter⟩
  · intro f hf
    have kept := h.agree f (List.mem_cons_of_mem _ hf)
    by_cases same : f.1 = e.1
    · have low : ¬ firstSensoryTaskId ≤ e.1 := by
        intro high
        have distinct := h.distinct
        simp only [sensoryIds, List.map_cons, List.filter_cons, decide_eq_true high, if_true,
          List.nodup_cons] at distinct
        refine distinct.1 (List.mem_filter.mpr ⟨?_, decide_eq_true high⟩)
        rw [← same]
        exact List.mem_map_of_mem hf
      have unknown : f.1 ∉ tracked := by
        rw [same]
        exact fun found => low (h.sensory e.1 found).1
      refine iff_of_false ?_ fun operator => unknown (kept.mpr operator)
      exact fun found => unknown (Finset.mem_of_mem_erase found)
    · simpa [same] using kept
  · intro id found
    exact h.sensory id (Finset.mem_of_mem_erase found)
  · exact h.distinct.sublist (((List.sublist_cons_self e xs).map Prod.fst).filter _)

end

/-! ## Steps of the loop -/

def ManagerTracked (m : LifecycleManager) : Prop :=
  Tracked (waiting m.agenda) m.operatorTasks m.nextSensoryTaskId

/-- The packets of an intake that are tracked. -/
def operatorArrivals (m : LifecycleManager) (arrivals : List Arrival) : List Arrival :=
  arrivals.filter fun a => a.packet.origin.isOperator && admitted m a

/-- Room for the operator packets of an intake, and ids left for all of its packets. -/
structure Fits (m : LifecycleManager) (arrivals : List Arrival) : Prop where
  room : m.operatorTasks.card + (operatorArrivals m arrivals).length ≤ maxTrackedOperatorTasks
  unwrapped : m.nextSensoryTaskId + arrivals.length < 2 ^ 64

theorem boot_tracked (file : Option IntentionFile) (b : Boot) :
    ManagerTracked (boot file b).manager := by
  simp only [boot]
  split <;> exact Tracked.nil

theorem push_tracked {m : LifecycleManager} (h : ManagerTracked m) {t : Mlfq.Task Source}
    (small : t.id < firstSensoryTaskId) (other : t.stamp ≠ .packet .operator) :
    ManagerTracked { m with agenda := push m.agenda t } :=
  (Tracked.low h (e := entry t) small other).perm (waiting_push m.agenda t).symm

theorem pushAll_tracked {m : LifecycleManager} (h : ManagerTracked m)
    {ts : List (Mlfq.Task Source)} (small : ∀ t ∈ ts, t.id < firstSensoryTaskId)
    (other : ∀ t ∈ ts, t.stamp ≠ .packet .operator) :
    ManagerTracked { m with agenda := pushAll m.agenda ts } := by
  induction ts generalizing m with
  | nil => exact h
  | cons t rest ih =>
    exact ih (push_tracked h (small t List.mem_cons_self) (other t List.mem_cons_self))
      (fun x hx => small x (List.mem_cons_of_mem _ hx))
      fun x hx => other x (List.mem_cons_of_mem _ hx)

theorem trackOperatorTask_room {tasks : Finset Nat} (room : tasks.card < maxTrackedOperatorTasks)
    (taskId : Nat) : trackOperatorTask tasks taskId = insert taskId tasks := by
  have free : ¬ (maxTrackedOperatorTasks ≤ tasks.card ∧ tasks.Nonempty) := by omega
  exact dif_neg free

/-- What one packet does, when there is room for it and its id is not the last. -/
theorem takeIn_tracked {m : LifecycleManager} (h : ManagerTracked m) {a : Arrival}
    (room : a.packet.origin = .operator → admitted m a = true →
      m.operatorTasks.card < maxTrackedOperatorTasks)
    (unwrapped : m.nextSensoryTaskId + 1 < 2 ^ 64) : ManagerTracked (takeIn m a) := by
  have next : wrap 64 (m.nextSensoryTaskId + 1) = m.nextSensoryTaskId + 1 :=
    Nat.mod_eq_of_lt unwrapped
  by_cases goes : admitted m a = true
  · have placed := (Tracked.fresh h (.packet a.packet.origin)).perm
      (waiting_push m.agenda ⟨m.nextSensoryTaskId, priorityToMlfqTier a.packet.priority,
        a.packet.prompt, none, .packet a.packet.origin⟩).symm
    simp only [takeIn, if_pos goes, next, ManagerTracked]
    cases origin : a.packet.origin with
    | operator =>
      simpa [origin, SensoryOrigin.isOperator, trackOperatorTask_room (room origin goes)]
        using placed
    | internal => simpa [origin, SensoryOrigin.isOperator] using placed
  · simp only [takeIn, if_neg goes, next]
    exact Tracked.skip h

theorem takeIn_next {m : LifecycleManager} (unwrapped : m.nextSensoryTaskId + 1 < 2 ^ 64)
    (a : Arrival) : (takeIn m a).nextSensoryTaskId = m.nextSensoryTaskId + 1 := by
  have wrapped : wrap 64 (m.nextSensoryTaskId + 1) = m.nextSensoryTaskId + 1 :=
    Nat.mod_eq_of_lt unwrapped
  simp only [takeIn]
  split <;> exact wrapped

theorem takeIn_gate (m : LifecycleManager) (a : Arrival) :
    (takeIn m a).gateOperatorInput = m.gateOperatorInput := by
  simp only [takeIn]
  split <;> rfl

theorem takeIn_card {m : LifecycleManager} {a : Arrival}
    (room : a.packet.origin = .operator → admitted m a = true →
      m.operatorTasks.card < maxTrackedOperatorTasks) :
    (takeIn m a).operatorTasks.card ≤
      m.operatorTasks.card + (operatorArrivals m [a]).length := by
  by_cases goes : admitted m a = true
  · cases origin : a.packet.origin with
    | operator =>
      have inserted := Finset.card_insert_le m.nextSensoryTaskId m.operatorTasks
      simpa [takeIn, goes, origin, SensoryOrigin.isOperator, operatorArrivals,
        trackOperatorTask_room (room origin goes)] using inserted
    | internal => simp [takeIn, goes, origin, SensoryOrigin.isOperator]
  · simp [takeIn, goes]

/-- What an intake's head needs, and what it leaves for the rest. -/
theorem Fits.cons {m : LifecycleManager} {a : Arrival} {rest : List Arrival}
    (h : Fits m (a :: rest)) :
    (a.packet.origin = .operator → admitted m a = true →
      m.operatorTasks.card < maxTrackedOperatorTasks) ∧
    m.nextSensoryTaskId + 1 < 2 ^ 64 ∧ Fits (takeIn m a) rest := by
  obtain ⟨room, unwrapped⟩ := h
  simp only [List.length_cons] at unwrapped
  have split : (operatorArrivals m (a :: rest)).length =
      (operatorArrivals m [a]).length + (operatorArrivals m rest).length := by
    rw [← List.length_append]
    exact congrArg List.length (List.filter_append [a] rest)
  have same : operatorArrivals (takeIn m a) rest = operatorArrivals m rest := by
    simp only [operatorArrivals, admitted, gateThis, takeIn_gate]
  have head : a.packet.origin = .operator → admitted m a = true →
      m.operatorTasks.card < maxTrackedOperatorTasks := by
    intro operator goes
    have one : (operatorArrivals m [a]).length = 1 := by
      simp [operatorArrivals, operator, goes, SensoryOrigin.isOperator]
    omega
  have card := takeIn_card head
  refine ⟨head, by omega, ?_, ?_⟩
  · rw [same]
    omega
  · rw [takeIn_next (by omega)]
    omega

theorem takeInAll_tracked {m : LifecycleManager} (h : ManagerTracked m) {arrivals : List Arrival}
    (fits : Fits m arrivals) : ManagerTracked (takeInAll m arrivals) := by
  induction arrivals generalizing m with
  | nil => exact h
  | cons a rest ih =>
    obtain ⟨room, unwrapped, fits⟩ := fits.cons
    exact ih (takeIn_tracked h room unwrapped) fits

/-- The intentions of an installed store have ids below those of the intake. -/
def SmallIntentions (m : LifecycleManager) : Prop :=
  ∀ store, m.intentions = some store → ∀ i ∈ store.intentions, i.id < firstSensoryTaskId

theorem injectDue_tracked {w : World} (h : ManagerTracked w.manager)
    (small : SmallIntentions w.manager) (nowNs : Nat) (io : Except String Unit) :
    ManagerTracked (injectDue w nowNs io).manager := by
  simp only [injectDue]
  split
  · exact h
  · rename_i store installed
    simp only [injectDueIntentions]
    split
    · exact h
    · simp only [injectEach_agenda]
      refine pushAll_tracked h ?_ ?_
      · intro t ht
        obtain ⟨i, hi, rfl⟩ := List.mem_map.mp ht
        exact small store installed i (List.mem_filter.mp hi).1
      · intro t ht
        obtain ⟨i, -, rfl⟩ := List.mem_map.mp ht
        simp [intentionTask, intentionSource]

theorem ingest_tracked {w : World} (h : ManagerTracked w.manager)
    (small : SmallIntentions w.manager) {i : Iteration} (fits : Fits w.manager i.arrivals) :
    ManagerTracked (ingest w i).manager := by
  have boosted : ManagerTracked { w.manager with
      agenda := (checkAndBoost w.manager.scheduler w.manager.agenda).1 } := by
    simpa only [ManagerTracked, waiting_boost] using h
  refine injectDue_tracked (takeInAll_tracked boosted ⟨fits.room, fits.unwrapped⟩) ?_ _ _
  intro store installed
  exact small store (by simpa only [takeInAll_intentions] using installed)

/-- The selected task is tracked exactly if it is the operator's, and is untracked with it. -/
theorem dispatchSelected_tracked {m : LifecycleManager} (h : ManagerTracked m) (i : Iteration)
    {task : Mlfq.Task Source} {agenda : TaskAgenda Source}
    (selected : selectOptimalTask m.agenda = some (task, agenda)) :
    ManagerTracked (dispatchSelected { m with agenda := agenda } i task).1 ∧
      (task.id ∈ m.operatorTasks ↔ task.stamp = .packet .operator) := by
  have head : Tracked (entry task :: waiting agenda) m.operatorTasks m.nextSensoryTaskId :=
    waiting_select selected ▸ h
  exact ⟨Tracked.dispatch head, head.agree (entry task) List.mem_cons_self⟩

/-! ## Runs -/

/-- Ids of pushed and injected tasks are below those of the intake. -/
def LowIds (w : World) : Op → Prop
  | .push id _ _ _ => id < firstSensoryTaskId
  | .iterate _ => SmallIntentions w.manager
  | .restart _ => True

def Room (w : World) : Op → Prop
  | .push _ _ _ _ => True
  | .iterate i => Fits w.manager i.arrivals
  | .restart _ => True

/-- The conversation is called for the operator's tasks and for no others. -/
def TreatedByOrigin (w : World) (d : Dispatch) : Prop :=
  d.calls =
    if w.manager.conversation = true ∧ d.task.stamp = .packet .operator then
      conversationTurn d.task d.outcome
    else []

theorem ingest_conversation (w : World) (i : Iteration) :
    (ingest w i).manager.conversation = w.manager.conversation := by
  simp only [ingest, injectDue]
  split <;> exact takeInAll_conversation _ _

theorem step_tracked {w : World} (h : ManagerTracked w.manager) {op : Op} (low : LowIds w op)
    (room : Room w op) :
    ManagerTracked (step w op).1.manager ∧
      ∀ d, (step w op).2 = some d → TreatedByOrigin w d := by
  cases op with
  | push id mlfqLevel prompt tokenBudget =>
    have other : Source.caller ≠ .packet .operator := by decide
    exact ⟨push_tracked h low other, no_dispatch rfl⟩
  | restart b => exact ⟨boot_tracked w.file b, no_dispatch rfl⟩
  | iterate i =>
    have ready := ingest_tracked h low room
    rcases iterate_cases w i with ended | ⟨task, agenda, selected, ended⟩
    · simp only [step, ended]
      exact ⟨ready, no_dispatch rfl⟩
    · obtain ⟨kept, origin⟩ := dispatchSelected_tracked ready i selected
      simp only [step, ended]
      refine ⟨kept, ?_⟩
      intro d answered
      cases answered
      simp only [TreatedByOrigin, dispatchSelected, ingest_conversation, origin,
        Bool.and_eq_true, decide_eq_true_eq, and_comm]

theorem run_tracked {w : World} (h : ManagerTracked w.manager) {ops : List Op}
    (low : ∀ c ∈ trace step w ops, LowIds c.before c.request)
    (room : ∀ c ∈ trace step w ops, Room c.before c.request) :
    ∀ c ∈ trace step w ops, ∀ d, c.response = some d → TreatedByOrigin c.before d := by
  induction ops generalizing w with
  | nil => simp [trace]
  | cons op rest ih =>
    simp only [trace, List.forall_mem_cons] at low room ⊢
    obtain ⟨kept, treated⟩ := step_tracked h low.1 room.1
    exact ⟨treated, ih kept low.2 room.2⟩

/-- In a run whose intakes all find room, operator work is told from the rest at dispatch. -/
theorem operator_work_told_apart (file : Option IntentionFile) (b : Boot) (ops : List Op)
    (low : ∀ c ∈ trace step (boot file b) ops, LowIds c.before c.request)
    (room : ∀ c ∈ trace step (boot file b) ops, Room c.before c.request) :
    ∀ c ∈ trace step (boot file b) ops, ∀ d, c.response = some d →
      TreatedByOrigin c.before d :=
  run_tracked (boot_tracked file b) low room

def ungatedBoot : Boot := ⟨false, true, 0, none⟩

def greeting : Arrival := ⟨⟨"hello", .normal, none, .operator⟩, true⟩

def greetings (n : Nat) : Op :=
  .iterate ⟨List.replicate n greeting, 0, .ok (), true, fun _ guidance => guidance,
    fun _ => .ok [.token "hi", .done]⟩

theorem operator_work_told_apart_greeting :
    ∃ c ∈ trace step (boot none ungatedBoot) [.push 7 1 "chore" none, greetings 1],
      ∃ d, c.response = some d ∧ TreatedByOrigin c.before d := by
  have told := operator_work_told_apart none ungatedBoot [.push 7 1 "chore" none, greetings 1]
    (by
      simp only [trace, List.forall_mem_cons]
      refine ⟨(by decide : 7 < firstSensoryTaskId), ?_, by simp⟩
      intro i listed
      cases listed)
    (by
      simp only [trace, List.forall_mem_cons]
      exact ⟨trivial, ⟨by decide +kernel, by decide +kernel⟩, by simp⟩)
  have answered : (step (step (boot none ungatedBoot) (.push 7 1 "chore" none)).1
      (greetings 1)).2.isSome = true := by decide +kernel
  obtain ⟨d, response⟩ := Option.isSome_iff_exists.mp answered
  refine ⟨_, List.mem_cons_of_mem _ List.mem_cons_self, d, response, ?_⟩
  exact told _ (List.mem_cons_of_mem _ List.mem_cons_self) d response

theorem treated_first {w : World} {op : Op} {ops : List Op} {d : Dispatch}
    (treated : ∀ c ∈ trace step w (op :: ops), ∀ d, c.response = some d →
      TreatedByOrigin c.before d)
    (answered : (step w op).2 = some d) : TreatedByOrigin w d :=
  treated _ List.mem_cons_self d answered

/-- The 257th operator packet displaces the first, which is dispatched as nobody's. -/
theorem operator_work_forgotten :
    (∀ c ∈ trace step (boot none ungatedBoot) [greetings 257], LowIds c.before c.request) ∧
    ¬ ∀ c ∈ trace step (boot none ungatedBoot) [greetings 257], ∀ d, c.response = some d →
      TreatedByOrigin c.before d := by
  have forgotten : (step (boot none ungatedBoot) (greetings 257)).2.map
      (fun d => (d.task.stamp, d.calls)) = some (.packet .operator, []) := by decide +kernel
  obtain ⟨d, answered, seen⟩ := Option.map_eq_some_iff.mp forgotten
  simp only [Prod.mk.injEq] at seen
  constructor
  · intro c called
    rw [List.mem_singleton.mp called]
    intro i listed
    cases listed
  · intro claimed
    have treated := treated_first claimed answered
    simp only [TreatedByOrigin, seen.1, seen.2] at treated
    exact absurd treated (by simp [boot, ungatedBoot, LifecycleManager.new, conversationTurn])

end SomaticLoop
