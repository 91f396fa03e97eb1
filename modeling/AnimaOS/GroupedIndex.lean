import Mathlib.Data.List.Induction

/-!
# Indexes that group a list by a key

A map from keys to lists of values, filled by pushing one element after
another, holds the values of each key in the order of the list.
-/

namespace GroupedIndex

universe u v w

variable {κ : Type u} {β : Type v} {α : Type w} [DecidableEq κ]

abbrev Index (κ : Type u) (β : Type v) := κ → Option (List β)

def empty : Index κ β := fun _ => none

/-- Append a value to the list under a key, which starts as the empty list. -/
def push (index : Index κ β) (k : κ) (v : β) : Index κ β :=
  fun other => if other = k then some ((index k).getD [] ++ [v]) else index other

/-- The index a list stands for: under a key the values of its elements, and no entry for a key
that no element has. -/
def grouped (key : α → κ) (value : α → β) (xs : List α) : Index κ β :=
  fun k =>
    match (xs.filter fun x => key x = k).map value with
    | [] => none
    | v :: vs => some (v :: vs)

theorem grouped_getD (key : α → κ) (value : α → β) (xs : List α) (k : κ) :
    (grouped key value xs k).getD [] = (xs.filter fun x => key x = k).map value := by
  simp only [grouped]
  split
  · rename_i none
    rw [none]
    rfl
  · rename_i some
    rw [some]
    rfl

theorem grouped_snoc (key : α → κ) (value : α → β) (xs : List α) (x : α) :
    grouped key value (xs ++ [x]) = push (grouped key value xs) (key x) (value x) := by
  funext k
  simp only [push]
  by_cases same : k = key x
  · subst same
    rw [if_pos rfl, grouped_getD]
    simp only [grouped, List.filter_append, List.map_append]
    rw [List.filter_cons_of_pos (by simp), List.filter_nil, List.map_singleton]
    cases (xs.filter fun y => key y = key x).map value with
    | nil => rfl
    | cons v vs => rfl
  · rw [if_neg same]
    have missed : ([x].filter fun y => key y = k) = [] := by
      simp [Ne.symm same]
    simp only [grouped, List.filter_append, missed, List.append_nil]

/-- Pushing the elements of a list one by one builds the index it stands for. -/
theorem foldl_push (key : α → κ) (value : α → β) (xs : List α) :
    xs.foldl (fun index x => push index (key x) (value x)) empty = grouped key value xs := by
  induction xs using List.reverseRecOn with
  | nil => rfl
  | append_singleton xs x ih =>
    rw [List.foldl_append, ih, grouped_snoc]
    rfl

end GroupedIndex
