import AnimaOS.MlfqOrder
import AnimaOS.SomaticLoop

/-!
# What waits in the agenda of the somatic loop

Every part of an iteration either keeps the waiting tasks, appends to them or
takes the first. What is said of runs reads their ids and sources only, which a
boost does not rewrite.
-/

namespace SomaticLoop

open FixedWidth Mlfq Prospective Machine

/-- The id and the source of a task. -/
def entry (t : Mlfq.Task Source) : Nat × Source := (t.id, t.stamp)

def waiting (a : TaskAgenda Source) : List (Nat × Source) := (queue a).map entry

theorem entries_bodies (ts : List (Mlfq.Task Source)) : (bodies ts).map entry = ts.map entry := by
  simp [bodies, body, entry, Function.comp_def]

theorem waiting_boost (s : IterationAwareMlfq Source) (a : TaskAgenda Source) :
    waiting (checkAndBoost s a).1 = waiting a := by
  have kept := congrArg (List.map entry) (checkAndBoost_bodies s a)
  rwa [entries_bodies, entries_bodies] at kept

theorem waiting_push (a : TaskAgenda Source) (t : Mlfq.Task Source) :
    (waiting (push a t)).Perm (waiting a ++ [entry t]) := by
  simpa [waiting] using (push_perm a t).map entry

theorem waiting_select {a b : TaskAgenda Source} {t : Mlfq.Task Source}
    (selected : selectOptimalTask a = some (t, b)) : waiting a = entry t :: waiting b := by
  simp only [waiting, select_some selected, List.map_cons]

theorem injectEach_agenda (nowNs graceNs : Nat) (s : IntentionStore) (a : TaskAgenda Source)
    (due : List Intention) :
    (injectEach intentionSource nowNs graceNs s a due).2 =
      pushAll a (due.map (intentionTask intentionSource nowNs graceNs)) := by
  induction due generalizing s a with
  | nil => rfl
  | cons i rest ih => exact ih _ _

/-- What one admission leaves alone, a whole intake does. -/
theorem takeInAll_kept {β : Type} (part : LifecycleManager → β)
    (kept : ∀ m a, part (takeIn m a) = part m) (m : LifecycleManager) (arrivals : List Arrival) :
    part (takeInAll m arrivals) = part m := by
  induction arrivals generalizing m with
  | nil => rfl
  | cons a rest ih => exact (ih (takeIn m a)).trans (kept m a)

theorem takeInAll_intentions (m : LifecycleManager) (arrivals : List Arrival) :
    (takeInAll m arrivals).intentions = m.intentions := by
  refine takeInAll_kept _ ?_ m arrivals
  intro m a
  simp only [takeIn]
  split <;> rfl

theorem takeInAll_conversation (m : LifecycleManager) (arrivals : List Arrival) :
    (takeInAll m arrivals).conversation = m.conversation := by
  refine takeInAll_kept _ ?_ m arrivals
  intro m a
  simp only [takeIn]
  split <;> rfl

/-- The three ways an iteration ends: refused bounds, an empty agenda, a dispatch. -/
theorem iterate_cases (w : World) (i : Iteration) :
    iterate w i = (ingest w i, none) ∨
    ∃ task agenda, selectOptimalTask (ingest w i).manager.agenda = some (task, agenda) ∧
      iterate w i =
        (⟨(dispatchSelected { (ingest w i).manager with agenda := agenda } i task).1,
            (ingest w i).file⟩,
          some (dispatchSelected { (ingest w i).manager with agenda := agenda } i task).2) := by
  by_cases bounds : i.bounds
  · cases selected : selectOptimalTask (ingest w i).manager.agenda with
    | none => exact .inl (by simp only [iterate, if_pos bounds, selected])
    | some chosen =>
      exact .inr ⟨chosen.1, chosen.2, rfl, by simp only [iterate, if_pos bounds, selected]⟩
  · exact .inl (by simp only [iterate, if_neg bounds])

/-- What is said of the dispatch of a step holds where the step has none. -/
theorem no_dispatch {outcome : Option Dispatch} {P : Dispatch → Prop} (silent : outcome = none) :
    ∀ d, outcome = some d → P d := by
  intro d answered
  cases silent.symm.trans answered

end SomaticLoop
