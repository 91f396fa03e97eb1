import Mathlib.Data.List.Basic

/-!
# Components run over request sequences

A deterministic component is a step function from a state and a request to the
next state and a response. Its runs are finite request sequences; the trace
records the state each request met and the response it got.
-/

namespace Machine

universe u v w

variable {σ : Type u} {α : Type v} {β : Type w}

def final (step : σ → α → σ × β) (s : σ) : List α → σ
  | [] => s
  | a :: rest => final step (step s a).1 rest

/-- One call of a run: the state it met, its request and its response. -/
structure Call (σ : Type u) (α : Type v) (β : Type w) where
  before : σ
  request : α
  response : β

def trace (step : σ → α → σ × β) (s : σ) : List α → List (Call σ α β)
  | [] => []
  | a :: rest => ⟨s, a, (step s a).2⟩ :: trace step (step s a).1 rest

theorem final_append (step : σ → α → σ × β) (s : σ) (xs ys : List α) :
    final step s (xs ++ ys) = final step (final step s xs) ys := by
  induction xs generalizing s with
  | nil => rfl
  | cons a rest ih => exact ih (step s a).1

theorem final_snoc (step : σ → α → σ × β) (s : σ) (xs : List α) (a : α) :
    final step s (xs ++ [a]) = (step (final step s xs) a).1 :=
  final_append step s xs [a]

theorem trace_append (step : σ → α → σ × β) (s : σ) (xs ys : List α) :
    trace step s (xs ++ ys) = trace step s xs ++ trace step (final step s xs) ys := by
  induction xs generalizing s with
  | nil => rfl
  | cons a rest ih => exact congrArg (_ :: ·) (ih (step s a).1)

theorem trace_length (step : σ → α → σ × β) (s : σ) (xs : List α) :
    (trace step s xs).length = xs.length := by
  induction xs generalizing s with
  | nil => rfl
  | cons a rest ih => exact congrArg (· + 1) (ih (step s a).1)

/-- The run rule: what holds initially and is kept by one step holds after every run. -/
theorem final_invariant {step : σ → α → σ × β} {Inv : σ → Prop}
    (keeps : ∀ s a, Inv s → Inv (step s a).1) {s : σ} (hs : Inv s) (xs : List α) :
    Inv (final step s xs) := by
  induction xs generalizing s with
  | nil => exact hs
  | cons a rest ih => exact ih (keeps s a hs)

/-- Every call of a trace is one step taken from the state an initial part of the run leaves. -/
theorem mem_trace {step : σ → α → σ × β} {s : σ} {xs : List α} {c : Call σ α β}
    (h : c ∈ trace step s xs) :
    ∃ pre post, xs = pre ++ c.request :: post ∧ c.before = final step s pre ∧
      c.response = (step c.before c.request).2 := by
  induction xs generalizing s with
  | nil => cases h
  | cons a rest ih =>
    rcases List.mem_cons.mp h with rfl | h
    · exact ⟨[], rest, rfl, rfl, rfl⟩
    · obtain ⟨pre, post, hx, hb, hr⟩ := ih h
      exact ⟨a :: pre, post, by rw [hx]; rfl, hb, hr⟩

end Machine
