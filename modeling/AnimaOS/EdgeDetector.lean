import Mathlib.Data.List.Chain
import Mathlib.Data.List.Basic

/-!
# Edges of a sampled signal

A detector remembers the last level of a signal and reports a sample when it
differs. Its reports alternate.
-/

namespace EdgeDetector

/-- The samples that differ from the level before them. -/
def edges (prev : Bool) : List Bool → List Bool
  | [] => []
  | b :: rest => if b = prev then edges prev rest else b :: edges b rest

/-- The last sample, or the level before them if there is none. -/
def level (prev : Bool) (samples : List Bool) : Bool := samples.foldl (fun _ b => b) prev

theorem level_cons (prev b : Bool) (rest : List Bool) :
    level prev (b :: rest) = level b rest := rfl

theorem edges_append (prev : Bool) (xs ys : List Bool) :
    edges prev (xs ++ ys) = edges prev xs ++ edges (level prev xs) ys := by
  induction xs generalizing prev with
  | nil => rfl
  | cons b rest ih =>
    rw [level_cons, List.cons_append, edges, edges]
    split
    · next same => rw [ih, same]
    · rw [ih, List.cons_append]

theorem level_append (prev : Bool) (xs ys : List Bool) :
    level prev (xs ++ ys) = level (level prev xs) ys := List.foldl_append

/-- Each report differs from the one before it, and the first from the level at the start. -/
theorem edges_alternate (prev : Bool) (samples : List Bool) :
    (prev :: edges prev samples).IsChain (· ≠ ·) := by
  induction samples generalizing prev with
  | nil => simp [edges]
  | cons b rest ih =>
    rw [edges]
    split
    · exact ih prev
    · next apart => exact List.isChain_cons_cons.mpr ⟨fun same => apart same.symm, ih b⟩

end EdgeDetector
