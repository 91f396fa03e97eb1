import Mathlib

/-!
# Spans laid end to end

A list of spans tiles a range when each begins where the one before it ended.
Then no two of them meet, they leave no gap, and their sizes add up to the range.
-/

namespace AdjacentSpans

structure Span where
  start : Nat
  size : Nat
  deriving DecidableEq, Repr

def Span.points (s : Span) : Set Nat := {i | s.start ≤ i ∧ i < s.start + s.size}

theorem Span.mem_points {s : Span} {i : Nat} :
    i ∈ s.points ↔ s.start ≤ i ∧ i < s.start + s.size := Iff.rfl

/-- The spans cover `[lo, hi)`, one after the other. -/
def Tiles : Nat → List Span → Nat → Prop
  | lo, [], hi => lo = hi
  | lo, s :: rest, hi => s.start = lo ∧ Tiles (lo + s.size) rest hi

theorem tiles_total {lo hi : Nat} {spans : List Span} (tiles : Tiles lo spans hi) :
    lo + (spans.map Span.size).sum = hi := by
  induction spans generalizing lo with
  | nil => exact tiles
  | cons s rest ih =>
    have tail := ih tiles.2
    simp only [List.map_cons, List.sum_cons]
    omega

theorem tiles_append {lo mid hi : Nat} {xs ys : List Span} (first : Tiles lo xs mid)
    (second : Tiles mid ys hi) : Tiles lo (xs ++ ys) hi := by
  induction xs generalizing lo with
  | nil => exact (show lo = mid from first) ▸ second
  | cons s rest ih => exact ⟨first.1, ih first.2⟩

/-- Each point of the range lies in a span, and no other point does. -/
theorem tiles_cover {lo hi : Nat} {spans : List Span} (tiles : Tiles lo spans hi) (i : Nat) :
    (∃ s ∈ spans, i ∈ s.points) ↔ lo ≤ i ∧ i < hi := by
  induction spans generalizing lo with
  | nil =>
    have same : lo = hi := tiles
    constructor
    · rintro ⟨s, listed, -⟩
      cases listed
    · rintro ⟨above, below⟩
      omega
  | cons s rest ih =>
    have start : s.start = lo := tiles.1
    have grown := tiles_total tiles.2
    rw [List.exists_mem_cons_iff, ih tiles.2, Span.mem_points]
    constructor
    · rintro (inside | later) <;> omega
    · intro inside
      by_cases here : i < s.start + s.size
      · exact Or.inl ⟨by omega, here⟩
      · exact Or.inr ⟨by omega, inside.2⟩

theorem tiles_disjoint {lo hi : Nat} {spans : List Span} (tiles : Tiles lo spans hi) :
    spans.Pairwise fun s t => Disjoint s.points t.points := by
  induction spans generalizing lo with
  | nil => exact List.Pairwise.nil
  | cons s rest ih =>
    refine List.pairwise_cons.mpr ⟨?_, ih tiles.2⟩
    intro t listed
    refine Set.disjoint_left.mpr fun i inFirst inSecond => ?_
    have later := ((tiles_cover tiles.2 i).mp ⟨t, listed, inSecond⟩).1
    have start : s.start = lo := tiles.1
    have inside := Span.mem_points.mp inFirst
    omega

end AdjacentSpans
