import AnimaOS.SomaticRuns

/-!
# Occurrences of intentions over runs and restarts

Within one process the `dispatched` flag keeps an intention from a second task.
Nothing in the loop acknowledges a completed task, and a reopened store forgets
the flag, so over restarts a one-shot intention depends on what the host removes.
-/

namespace SomaticLoop

open FixedWidth Mlfq Prospective Machine

def records (w : World) : List Intention :=
  match w.manager.intentions with
  | some store => store.intentions
  | none => []

abbrev LoopCall := Call World Op (Option Dispatch)

/-! ## What a run is asked -/

def Dispatches (c : LoopCall) (source : Source) : Prop :=
  ∃ d, c.response = some d ∧ d.task.stamp = source

def Completes (c : LoopCall) (source : Source) : Prop :=
  ∃ d, c.response = some d ∧ d.task.stamp = source ∧ ∃ outcome, d.outcome = .ok outcome

/-- The intention waits again, at least one interval after it was due. -/
def Rescheduled (c : LoopCall) (id intervalNs : Nat) : Prop :=
  ∃ r ∈ records c.before, ∃ r' ∈ records (step c.before c.request).1,
    r.id = id ∧ r'.id = id ∧ r'.repeatIntervalNs = some intervalNs ∧ r'.dispatched = false ∧
      satAdd 64 r.dueAtNs intervalNs ≤ r'.dueAtNs

def RecurringRescheduled (calls : List LoopCall) : Prop :=
  ∀ c ∈ calls, ∀ id intervalNs, Completes c (.intention id (some intervalNs)) →
    Rescheduled c id intervalNs

def NeverDispatchedAgain (calls : List LoopCall) : Prop :=
  calls.Pairwise fun earlier later =>
    ∀ id, Completes earlier (.intention id none) → ¬ Dispatches later (.intention id none)

/-- A restart whose host leaves a record of the one-shot intention in the reopened store. -/
def Reopens (c : LoopCall) (id : Nat) : Prop :=
  (∃ b, c.request = .restart b) ∧
    ∃ r ∈ records (step c.before c.request).1, r.id = id ∧ r.repeatIntervalNs = none

def CompletedAreRemoved (calls : List LoopCall) : Prop :=
  calls.Pairwise fun earlier later =>
    ∀ id, Completes earlier (.intention id none) → ¬ Reopens later id

/-! ## The agenda and the store -/

def intentionId (e : Nat × Source) : Option Nat :=
  match e.2 with
  | .intention id _ => some id
  | _ => none

/-- Waiting entries and stored records; `done` holds of one-shot intentions that had their task. -/
structure Carried (done : Nat → Prop) (entries : List (Nat × Source))
    (stored : List Intention) : Prop where
  distinct : (ids stored).Nodup
  marked : ∀ e ∈ entries, ∀ id repeats, e.2 = .intention id repeats →
    ∃ r ∈ stored, r.id = id ∧ r.repeatIntervalNs = repeats ∧ r.dispatched = true
  once : (entries.filterMap intentionId).Nodup
  left : ∀ id, done id → ∀ e ∈ entries, e.2 ≠ .intention id none
  held : ∀ id, done id → ∀ r ∈ stored, r.id = id → r.repeatIntervalNs = none →
    r.dispatched = true

section

variable {done : Nat → Prop} {xs ys : List (Nat × Source)} {stored : List Intention}

theorem same_record (distinct : (ids stored).Nodup) {r s : Intention} (hr : r ∈ stored)
    (hs : s ∈ stored) (same : r.id = s.id) : r = s :=
  List.inj_on_of_nodup_map distinct hr hs same

theorem updateFirst_eq_map (distinct : (ids stored).Nodup) (id : Nat)
    (f : Intention → Intention) :
    updateFirst id f stored = stored.map fun r => if r.id = id then f r else r := by
  induction stored with
  | nil => rfl
  | cons r rest ih =>
    obtain ⟨fresh, distinct⟩ := List.nodup_cons.mp distinct
    by_cases own : r.id = id
    · have others : rest.map (fun s => if s.id = id then f s else s) = rest := by
        refine (List.map_congr_left ?_).trans (List.map_id rest)
        intro s hs
        refine if_neg fun same => fresh ?_
        rw [own, ← same]
        exact List.mem_map_of_mem hs
      simp only [updateFirst, List.map_cons, if_pos own, others]
    · simp only [updateFirst, List.map_cons, if_neg own, ih distinct]

theorem Carried.perm (h : Carried done xs stored) (same : xs.Perm ys) : Carried done ys stored where
  distinct := h.distinct
  marked := fun e he => h.marked e (same.mem_iff.mpr he)
  once := (same.filterMap intentionId).nodup_iff.mp h.once
  left := fun id had e he => h.left id had e (same.mem_iff.mpr he)
  held := h.held

/-- A task that is no intention's. -/
theorem Carried.other (h : Carried done xs stored) {e : Nat × Source}
    (other : intentionId e = none) : Carried done (xs ++ [e]) stored := by
  have unlike : ∀ id repeats, e.2 ≠ .intention id repeats := by
    intro id repeats same
    simp [intentionId, same] at other
  refine ⟨h.distinct, ?_, ?_, ?_, h.held⟩
  · intro f hf id repeats same
    rcases List.mem_append.mp hf with hf | hf
    · exact h.marked f hf id repeats same
    · rw [List.mem_singleton.mp hf] at same
      exact absurd same (unlike id repeats)
  · simpa [other] using h.once
  · intro id had f hf
    rcases List.mem_append.mp hf with hf | hf
    · exact h.left id had f hf
    · rw [List.mem_singleton.mp hf]
      exact unlike id none

/-- An intention that was not dispatched has no waiting task. -/
theorem Carried.alone (h : Carried done xs stored) {r : Intention} (hr : r ∈ stored)
    (new : r.dispatched = false) : ∀ e ∈ xs, ∀ repeats, e.2 ≠ .intention r.id repeats := by
  intro e he repeats same
  obtain ⟨s, hs, own, -, dispatched⟩ := h.marked e he r.id repeats same
  rw [same_record h.distinct hs hr own, new] at dispatched
  cases dispatched

theorem mem_setDispatched (distinct : (ids stored).Nodup) (id : Nat) {s : Intention}
    (hs : s ∈ stored) (dispatched : s.dispatched = true) :
    s ∈ updateFirst id setDispatched stored := by
  rw [updateFirst_eq_map distinct]
  refine List.mem_map.mpr ⟨s, hs, ?_⟩
  split
  · simp only [setDispatched, ← dispatched]
  · rfl

theorem Carried.once_inject (h : Carried done xs stored) {r : Intention} (hr : r ∈ stored)
    (new : r.dispatched = false) :
    ((xs ++ [(r.id, intentionSource r)]).filterMap intentionId).Nodup := by
  have last : (xs ++ [(r.id, intentionSource r)]).filterMap intentionId =
      xs.filterMap intentionId ++ [r.id] := by
    simp [intentionId, intentionSource]
  rw [last]
  refine List.nodup_append.mpr ⟨h.once, List.nodup_singleton _, ?_⟩
  intro id found other same
  rw [List.mem_singleton.mp same]
  rintro rfl
  obtain ⟨e, he, known⟩ := List.mem_filterMap.mp found
  simp only [intentionId] at known
  split at known
  · rename_i repeats source
    cases known
    exact h.alone hr new e he repeats source
  · cases known

/-- A one-shot intention that had its task is marked, so it is not the injected one. -/
theorem Carried.inject (h : Carried done xs stored) {r : Intention} (hr : r ∈ stored)
    (new : r.dispatched = false) :
    Carried done (xs ++ [(r.id, intentionSource r)]) (updateFirst r.id setDispatched stored) := by
  refine ⟨?_, ?_, h.once_inject hr new, ?_, ?_⟩
  · have kept := @ids_updateFirst r.id setDispatched (fun _ => rfl) stored
    rw [kept]
    exact h.distinct
  · intro e he id repeats same
    rcases List.mem_append.mp he with he | he
    · obtain ⟨s, hs, own, interval, dispatched⟩ := h.marked e he id repeats same
      exact ⟨s, mem_setDispatched h.distinct r.id hs dispatched, own, interval, dispatched⟩
    · rw [List.mem_singleton.mp he] at same
      cases same
      refine ⟨setDispatched r, ?_, rfl, rfl, rfl⟩
      rw [updateFirst_eq_map h.distinct]
      exact List.mem_map.mpr ⟨r, hr, if_pos rfl⟩
  · intro id had e he
    rcases List.mem_append.mp he with he | he
    · exact h.left id had e he
    · rw [List.mem_singleton.mp he]
      intro same
      cases own : r.repeatIntervalNs with
      | none =>
        simp only [intentionSource, own, Source.intention.injEq] at same
        have marked := h.held id had r hr same.1 own
        rw [new] at marked
        cases marked
      | some interval => simp [intentionSource, own] at same
  · intro id had s hs own oneShot
    rw [updateFirst_eq_map h.distinct] at hs
    obtain ⟨t, ht, rfl⟩ := List.mem_map.mp hs
    split
    · rfl
    · rename_i other
      simp only [if_neg other] at own oneShot
      exact h.held id had t ht own oneShot

/-- The dispatched intention has no second task and its record stays marked. -/
theorem Carried.dispatch {e : Nat × Source} (h : Carried done (e :: xs) stored) :
    Carried (fun id => done id ∨ e.2 = .intention id none) xs stored := by
  refine ⟨h.distinct, fun f hf => h.marked f (List.mem_cons_of_mem _ hf), ?_, ?_, ?_⟩
  · exact h.once.sublist ((List.sublist_cons_self e xs).filterMap intentionId)
  · rintro id (had | now) f hf
    · exact h.left id had f (List.mem_cons_of_mem _ hf)
    · intro again
      have first : intentionId e = some id := by simp only [intentionId, now]
      have second : intentionId f = some id := by simp only [intentionId, again]
      have once := h.once
      rw [List.filterMap_cons_some first] at once
      exact (List.nodup_cons.mp once).1 (List.mem_filterMap.mpr ⟨f, hf, second⟩)
  · rintro id (had | now) r hr own oneShot
    · exact h.held id had r hr own oneShot
    · obtain ⟨s, hs, same, -, dispatched⟩ := h.marked e List.mem_cons_self id none now
      rw [same_record h.distinct hr hs (own.trans same.symm)]
      exact dispatched

theorem Carried.mono (h : Carried done xs stored) {fewer : Nat → Prop}
    (part : ∀ id, fewer id → done id) : Carried fewer xs stored where
  distinct := h.distinct
  marked := h.marked
  once := h.once
  left := fun id had => h.left id (part id had)
  held := fun id had => h.held id (part id had)

end

/-! ## Steps of the loop -/

def WorldCarried (done : Nat → Prop) (w : World) : Prop :=
  Carried done (waiting w.manager.agenda) (records w)

variable {done : Nat → Prop}

theorem push_carried {stored : List Intention} {a : TaskAgenda Source} {t : Mlfq.Task Source}
    (h : Carried done (waiting a) stored) (other : intentionId (entry t) = none) :
    Carried done (waiting (push a t)) stored :=
  (h.other other).perm (waiting_push a t).symm

theorem injectEach_carried {s : IntentionStore} {a : TaskAgenda Source}
    (h : Carried done (waiting a) s.intentions) (nowNs graceNs : Nat) {due : List Intention}
    (new : ∀ i ∈ due, i ∈ s.intentions ∧ i.dispatched = false) (apart : (ids due).Nodup) :
    Carried done (waiting (injectEach intentionSource nowNs graceNs s a due).2)
      (injectEach intentionSource nowNs graceNs s a due).1.intentions := by
  induction due generalizing s a with
  | nil => exact h
  | cons i rest ih =>
    obtain ⟨fresh, apart⟩ := List.nodup_cons.mp apart
    obtain ⟨stored, undispatched⟩ := new i List.mem_cons_self
    have injected := (h.inject stored undispatched).perm
      (waiting_push a (intentionTask intentionSource nowNs graceNs i)).symm
    refine ih injected ?_ apart
    intro j hj
    obtain ⟨kept, waits⟩ := new j (List.mem_cons_of_mem _ hj)
    refine ⟨?_, waits⟩
    have other : ¬ j.id = i.id := fun same => fresh (same ▸ List.mem_map_of_mem hj)
    simp only [IntentionStore.update, IntentionStore.restrict, updateFirst_eq_map s.distinct]
    exact List.mem_map.mpr ⟨j, kept, if_neg other⟩

theorem injectDue_carried {w : World} (h : WorldCarried done w) (nowNs : Nat)
    (io : Except String Unit) : WorldCarried done (injectDue w nowNs io) := by
  simp only [injectDue]
  split
  · exact h
  · rename_i store installed
    have stored : records w = store.intentions := by simp only [records, installed]
    simp only [WorldCarried, stored] at h
    simp only [injectDueIntentions]
    split
    · exact h
    · have written : ∀ (k : Kept) (answer : Except String Unit),
          (flush k answer).1.store = k.store := by
        intro k answer
        cases answer <;> rfl
      simp only [WorldCarried, records, written]
      refine injectEach_carried h nowNs overdueGraceNs ?_ ?_
      · intro i hi
        obtain ⟨member, due⟩ := List.mem_filter.mp hi
        simp only [Intention.isDue, Bool.and_eq_true, Bool.not_eq_true'] at due
        exact ⟨member, due.1⟩
      · exact store.distinct.sublist (List.filter_sublist.map Intention.id)

theorem takeInAll_carried {m : LifecycleManager} {stored : List Intention}
    (h : Carried done (waiting m.agenda) stored) (arrivals : List Arrival) :
    Carried done (waiting (takeInAll m arrivals).agenda) stored := by
  induction arrivals generalizing m with
  | nil => exact h
  | cons a rest ih =>
    refine @ih (takeIn m a) ?_
    simp only [takeIn]
    split
    · exact push_carried h rfl
    · exact h

theorem ingest_carried {w : World} (h : WorldCarried done w) (i : Iteration) :
    WorldCarried done (ingest w i) := by
  have boosted : Carried done (waiting (checkAndBoost w.manager.scheduler w.manager.agenda).1)
      (records w) := by
    rw [waiting_boost]
    exact h
  refine injectDue_carried ?_ i.nowNs i.io
  have same : records ⟨takeInAll { w.manager with
      agenda := (checkAndBoost w.manager.scheduler w.manager.agenda).1 } i.arrivals, w.file⟩ =
      records w := by
    simp only [records, takeInAll_intentions]
  simp only [WorldCarried, same]
  exact takeInAll_carried boosted i.arrivals

/-- A task leaves the agenda with its record marked, and with no intention's task behind it. -/
theorem dispatched_marked {w : World} {task : Mlfq.Task Source} {agenda : TaskAgenda Source}
    (h : WorldCarried done w)
    (selected : selectOptimalTask w.manager.agenda = some (task, agenda)) :
    Carried done (entry task :: waiting agenda) (records w) :=
  waiting_select selected ▸ h

/-- After a restart no task waits, so only the reopened records count. -/
theorem boot_carried {file : Option IntentionFile} {b : Boot}
    (removed : ∀ id, done id → ∀ r ∈ records (boot file b), r.id = id →
      r.repeatIntervalNs ≠ none) : WorldCarried done (boot file b) := by
  have empty : waiting (boot file b).manager.agenda = [] := by
    simp only [boot]
    split <;> rfl
  have distinct : (ids (records (boot file b))).Nodup := by
    simp only [boot]
    split
    · exact List.nodup_nil
    · exact IntentionStore.distinct _
  simp only [WorldCarried, empty]
  refine ⟨distinct, by simp, List.nodup_nil, by simp, ?_⟩
  intro id had r hr own oneShot
  exact absurd oneShot (removed id had r hr own)

theorem step_carried {w : World} (h : WorldCarried done w) {op : Op}
    (removed : ∀ b, op = .restart b → ∀ id, done id → ∀ r ∈ records (step w op).1,
      r.id = id → r.repeatIntervalNs ≠ none) :
    (∀ d, (step w op).2 = some d → ∀ id, done id → d.task.stamp ≠ .intention id none) ∧
    WorldCarried
      (fun id => done id ∨ ∃ d, (step w op).2 = some d ∧ d.task.stamp = .intention id none)
      (step w op).1 := by
  have nothing : ∀ id, done id ∨ (∃ d, (none : Option Dispatch) = some d ∧
      d.task.stamp = .intention id none) → done id := by
    rintro id (had | ⟨d, answered, -⟩)
    · exact had
    · cases answered
  cases op with
  | push id mlfqLevel prompt tokenBudget =>
    exact ⟨no_dispatch rfl, (push_carried h rfl).mono nothing⟩
  | restart b =>
    refine ⟨no_dispatch rfl, boot_carried ?_⟩
    intro id had
    exact removed b rfl id (nothing id had)
  | iterate i =>
    have ready := ingest_carried h i
    rcases iterate_cases w i with ended | ⟨task, agenda, selected, ended⟩
    · simp only [step, ended]
      exact ⟨no_dispatch rfl, ready.mono nothing⟩
    · have head := dispatched_marked ready selected
      simp only [step, ended]
      constructor
      · intro d answered id had
        cases answered
        exact head.left id had (entry task) List.mem_cons_self
      · refine Carried.mono (Carried.dispatch head) ?_
        rintro id (had | ⟨d, answered, now⟩)
        · exact .inl had
        · cases answered
          exact .inr now

/-! ## Runs -/

theorem completes_dispatched {c : LoopCall} {source : Source} (h : Completes c source) :
    ∃ d, c.response = some d ∧ d.task.stamp = source := by
  obtain ⟨d, answered, own, -⟩ := h
  exact ⟨d, answered, own⟩

/-- The induction over a run: `done` collects what completed before it. -/
theorem run_carried {w : World} (h : WorldCarried done w) {ops : List Op}
    (earlier : ∀ c ∈ trace step w ops, ∀ id, done id → ¬ Reopens c id)
    (removed : CompletedAreRemoved (trace step w ops)) :
    (∀ c ∈ trace step w ops, ∀ id, done id → ¬ Dispatches c (.intention id none)) ∧
      NeverDispatchedAgain (trace step w ops) := by
  induction ops generalizing w done with
  | nil => exact ⟨by simp [trace], .nil⟩
  | cons op rest ih =>
    simp only [trace, List.forall_mem_cons] at earlier
    obtain ⟨now, later⟩ := List.pairwise_cons.mp removed
    obtain ⟨first, kept⟩ := @step_carried _ _ h op fun b same id had r hr own oneShot =>
      earlier.1 id had ⟨⟨b, same⟩, r, hr, own, oneShot⟩
    have kept := kept.mono fun id =>
      Or.imp_right (@completes_dispatched ⟨w, op, (step w op).2⟩ (.intention id none))
    obtain ⟨dispatched, again⟩ := ih kept (by
      rintro c hc id (had | completed)
      · exact earlier.2 c hc id had
      · exact now c hc id completed) later
    simp only [trace, List.forall_mem_cons]
    refine ⟨⟨?_, fun c hc id had => dispatched c hc id (.inl had)⟩,
      List.pairwise_cons.mpr ⟨?_, again⟩⟩
    · rintro id had ⟨d, answered, same⟩
      exact first d answered id had same
    · intro c hc id completed
      exact dispatched c hc id (.inr completed)

theorem final_carried (file : Option IntentionFile) (b : Boot) (ops : List Op) :
    WorldCarried (fun _ => False) (final step (boot file b) ops) := by
  refine @final_invariant _ _ _ _ (WorldCarried fun _ => False) ?_ _
    (boot_carried fun _ => False.elim) ops
  intro w op h
  exact (step_carried h fun _ _ _ => False.elim).2.mono fun _ => False.elim

/-- A completed recurring task leaves its record marked as dispatched. -/
theorem not_rescheduled {w : World} (h : WorldCarried done w) {op : Op} {id intervalNs : Nat}
    (completed : Completes ⟨w, op, (step w op).2⟩ (.intention id (some intervalNs))) :
    ¬ Rescheduled ⟨w, op, (step w op).2⟩ id intervalNs := by
  rintro ⟨-, -, r, hr, -, own, -, waits, -⟩
  obtain ⟨d, answered, same, -⟩ := completed
  cases op with
  | push id mlfqLevel prompt tokenBudget => cases answered
  | restart b => cases answered
  | iterate i =>
    rcases iterate_cases w i with ended | ⟨task, agenda, selected, ended⟩
    · simp only [step, ended] at answered
      cases answered
    · simp only [step, ended] at answered hr
      cases answered
      have head := dispatched_marked (ingest_carried h i) selected
      obtain ⟨s, hs, other, -, dispatched⟩ :=
        head.marked (entry task) List.mem_cons_self id (some intervalNs) same
      rw [same_record head.distinct hr hs (own.trans other.symm), dispatched] at waits
      cases waits

/-- Recurring intentions are rescheduled only where none completes; a one-shot intention is not
dispatched again if every restart finds the completed ones removed. -/
theorem intentions_carried_out_iff (file : Option IntentionFile) (b : Boot) (ops : List Op) :
    (RecurringRescheduled (trace step (boot file b) ops) ↔
      ∀ c ∈ trace step (boot file b) ops, ∀ id intervalNs,
        ¬ Completes c (.intention id (some intervalNs))) ∧
    (CompletedAreRemoved (trace step (boot file b) ops) →
      NeverDispatchedAgain (trace step (boot file b) ops)) := by
  refine ⟨⟨?_, ?_⟩, ?_⟩
  · intro rescheduled c hc id intervalNs completed
    obtain ⟨pre, post, -, before, response⟩ := mem_trace hc
    have carried := final_carried file b pre
    rw [← before] at carried
    have after := rescheduled c hc id intervalNs completed
    obtain ⟨w, op, answer⟩ := c
    simp only at response carried
    subst response
    exact not_rescheduled carried completed after
  · intro none c hc id intervalNs completed
    exact absurd completed (none c hc id intervalNs)
  · intro removed
    have carried : WorldCarried (fun _ => False) (boot file b) := boot_carried fun _ => False.elim
    exact (run_carried carried (fun _ _ _ => False.elim) removed).2

/-- The source of a dispatched task and whether it completed. -/
def summary (d : Dispatch) : Source × Bool :=
  (d.task.stamp, match d.outcome with | .ok _ => true | .error _ => false)

theorem completes_of_summary {w : World} {op : Op} {source : Source}
    (h : (step w op).2.map summary = some (source, true)) :
    Completes ⟨w, op, (step w op).2⟩ source := by
  obtain ⟨d, answered, seen⟩ := Option.map_eq_some_iff.mp h
  simp only [summary, Prod.mk.injEq] at seen
  refine ⟨d, answered, seen.1, ?_⟩
  cases outcome : d.outcome with
  | ok result => exact ⟨result, rfl⟩
  | error e => simp [outcome] at seen

def quietIteration (nowNs : Nat) : Op :=
  .iterate ⟨[], nowNs, .ok (), true, fun _ guidance => guidance, fun _ => .ok [.token "ok", .done]⟩

def bootWith (calls : List StoreCall) : Boot := ⟨true, false, 0, some calls⟩

def plants : World := boot none (bootWith [.addOnce "water the plants" 5 1 (.ok ())])

def mail : World := boot none (bootWith [.addRecurring "check the mail" 5 60 1 (.ok ())])

/-- A restart whose host removes the intention that completed before it. -/
def removingRun : List Op :=
  [quietIteration 10, .restart (bootWith [.remove 0 (.ok ())]), quietIteration 20]

theorem removed_not_dispatched_again :
    (∃ c ∈ trace step plants removingRun, Completes c (.intention 0 none)) ∧
      NeverDispatchedAgain (trace step plants removingRun) := by
  have first : (step plants (quietIteration 10)).2.map summary =
      some (.intention 0 none, true) := by decide +kernel
  have emptied : records (step (step plants (quietIteration 10)).1
      (.restart (bootWith [.remove 0 (.ok ())]))).1 = [] := by decide +kernel
  refine ⟨⟨_, List.mem_cons_self, completes_of_summary first⟩,
    (intentions_carried_out_iff none _ removingRun).2 ?_⟩
  have closed : ∀ id, ¬ Reopens ⟨(step plants (quietIteration 10)).1,
      .restart (bootWith [.remove 0 (.ok ())]), none⟩ id := by
    rintro id ⟨-, r, listed, -⟩
    simp only [emptied] at listed
    cases listed
  have iterated : ∀ (w : World) (answer : Option Dispatch) (id : Nat),
      ¬ Reopens ⟨w, quietIteration 20, answer⟩ id := by
    rintro w answer id ⟨⟨b, restart⟩, -⟩
    cases restart
  refine .cons ?_ (.cons ?_ (.cons ?_ .nil))
  · intro later listed id _
    rcases List.mem_pair.mp listed with rfl | rfl
    · exact closed id
    · exact iterated _ _ id
  · intro later listed id _
    obtain rfl := List.mem_singleton.mp listed
    exact iterated _ _ id
  · exact fun _ listed => absurd listed List.not_mem_nil

/-- The one-shot intention completes, and again after a restart; the recurring one completes
and waits no more. -/
theorem intentions_repeated_and_dropped :
    ¬ NeverDispatchedAgain
        (trace step plants [quietIteration 10, .restart (bootWith []), quietIteration 20]) ∧
      ¬ RecurringRescheduled (trace step mail [quietIteration 10]) := by
  constructor
  · intro claimed
    have first : (step plants (quietIteration 10)).2.map summary =
        some (.intention 0 none, true) := by decide +kernel
    have second : (step (step (step plants (quietIteration 10)).1 (.restart (bootWith []))).1
        (quietIteration 20)).2.map summary = some (.intention 0 none, true) := by decide +kernel
    simp only [trace, NeverDispatchedAgain, List.pairwise_cons, List.forall_mem_cons] at claimed
    exact claimed.1.2.1 0 (completes_of_summary first)
      (completes_dispatched (completes_of_summary second))
  · intro claimed
    have completed : (step mail (quietIteration 10)).2.map summary =
        some (.intention 0 (some 60), true) := by decide +kernel
    have carried : WorldCarried (fun _ => False) mail := boot_carried fun _ => False.elim
    have completed := completes_of_summary completed
    exact not_rescheduled carried completed (claimed _ List.mem_cons_self 0 60 completed)

end SomaticLoop
