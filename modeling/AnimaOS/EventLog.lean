import Mathlib.Data.List.Basic

/-!
# Events that still stand

In a log read from left to right an event stands when nothing after it undoes
it. Only the last entry needs to be looked at when a log grows by one.
-/

namespace EventLog

variable {α : Type}

/-- Some entry of the log was made where `made` allowed it, and everything after it spares it. -/
def Stands (made : List α → α → Prop) (spares : α → Prop) (log : List α) : Prop :=
  ∃ earlier event later, log = earlier ++ event :: later ∧ made earlier event ∧
    ∀ entry ∈ later, spares entry

theorem stands_nil {made : List α → α → Prop} {spares : α → Prop} : ¬ Stands made spares [] := by
  rintro ⟨earlier, event, later, split, -⟩
  exact List.append_ne_nil_of_right_ne_nil earlier (List.cons_ne_nil event later) split.symm

theorem stands_snoc {made : List α → α → Prop} {spares : α → Prop} {log : List α} {entry : α} :
    Stands made spares (log ++ [entry]) ↔
      made log entry ∨ (Stands made spares log ∧ spares entry) := by
  constructor
  · rintro ⟨earlier, event, later, split, allowed, spared⟩
    rcases List.eq_nil_or_concat later with rfl | ⟨init, last, rfl⟩
    · obtain ⟨rfl, same⟩ := List.append_inj' split rfl
      cases same
      exact .inl allowed
    · rw [List.concat_eq_append] at split spared
      have parted : log ++ [entry] = (earlier ++ event :: init) ++ [last] := by simpa using split
      obtain ⟨rfl, same⟩ := List.append_inj' parted rfl
      cases same
      right
      constructor
      · exact ⟨earlier, event, init, rfl, allowed, fun e listed =>
          spared e (List.mem_append_left _ listed)⟩
      · exact spared entry (List.mem_append_right _ (List.mem_singleton_self entry))
  · rintro (allowed | ⟨⟨earlier, event, later, rfl, allowed, spared⟩, last⟩)
    · exact ⟨log, entry, [], rfl, allowed, fun _ listed => absurd listed List.not_mem_nil⟩
    · refine ⟨earlier, event, later ++ [entry], by simp, allowed, ?_⟩
      intro e listed
      rcases List.mem_append.mp listed with within | added
      · exact spared e within
      · exact List.mem_singleton.mp added ▸ last

end EventLog
