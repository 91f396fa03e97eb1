import AnimaOS.Machine

/-!
# Components behind a screen

A screened component takes the steps that its screen admits and answers the
others with a refusal. Its runs are those of the bare component on what is
admitted: a refused request leaves nothing behind.
-/

namespace Screening

open Machine

universe u v w

variable {σ : Type u} {α : Type v} {β : Type w}

def screened (admits : α → Bool) (denied : β) (step : σ → α → σ × β) (s : σ) (a : α) : σ × β :=
  if admits a then step s a else (s, denied)

variable {admits : α → Bool} {denied : β} {step : σ → α → σ × β}

theorem screened_admitted {s : σ} {a : α} (admitted : admits a = true) :
    screened admits denied step s a = step s a := if_pos admitted

theorem screened_refused {s : σ} {a : α} (refused : admits a = false) :
    screened admits denied step s a = (s, denied) := by
  simp [screened, refused]

theorem final_screened (s : σ) (xs : List α) :
    final (screened admits denied step) s xs = final step s (xs.filter admits) := by
  induction xs generalizing s with
  | nil => rfl
  | cons a rest ih =>
    cases shown : admits a with
    | true =>
      have same := @screened_admitted _ _ _ _ denied step s _ shown
      simpa only [final, List.filter_cons, shown, same, if_true] using ih (step s a).1
    | false =>
      have same := @screened_refused _ _ _ _ denied step s _ shown
      simpa [final, List.filter_cons, shown, same] using ih s

/-- The admitted calls are those of the bare component, with the same states and responses. -/
theorem trace_screened (s : σ) (xs : List α) :
    (trace (screened admits denied step) s xs).filter (fun c => admits c.request) =
      trace step s (xs.filter admits) := by
  induction xs generalizing s with
  | nil => rfl
  | cons a rest ih =>
    cases shown : admits a with
    | true =>
      have same := @screened_admitted _ _ _ _ denied step s _ shown
      simpa [trace, List.filter_cons, shown, same] using ih (step s a).1
    | false =>
      have same := @screened_refused _ _ _ _ denied step s _ shown
      simpa [trace, List.filter_cons, shown, same] using ih s

theorem refused_response {s : σ} {xs : List α} {c : Call σ α β}
    (listed : c ∈ trace (screened admits denied step) s xs) (refused : admits c.request = false) :
    c.response = denied := by
  obtain ⟨-, -, -, -, response⟩ := mem_trace listed
  rw [response, screened_refused refused]

end Screening
