import Mathlib

/-!
# Ranking by floats

Single-precision floats compare by the sign and magnitude of their bit patterns,
so that both zeros are equal and a NaN is comparable with nothing. A list ranked
by descending float and ascending index is cut after some rank, and a cut is
determined by its size.
-/

namespace FloatOrder

universe u v

abbrev Single := BitVec 32

def magnitude (x : Single) : Nat := x.toNat % 2 ^ 31

def isNaN (x : Single) : Bool := 0x7f800000 < magnitude x

/-- Orders the numbers as their values are ordered. -/
def key (x : Single) : Int := if x.msb then -(magnitude x : Int) else magnitude x

def partialCmp (a b : Single) : Option Ordering :=
  if isNaN a || isNaN b then none else some (compare (key a) (key b))

def atLeast (a b : Single) : Bool := (partialCmp a b).any (· != .lt)

def above (a b : Single) : Bool := (partialCmp a b).any (· == .gt)

/-- Descending order, in which what cannot be compared is equal. -/
def descending (a b : Single) : Ordering := (partialCmp b a).getD .eq

section Comparison

variable {a b : Single}

theorem partialCmp_numbers (left : isNaN a = false) (right : isNaN b = false) :
    partialCmp a b = some (compare (key a) (key b)) := by
  rw [partialCmp, left, right]
  rfl

theorem above_iff :
    above a b = true ↔ isNaN a = false ∧ isNaN b = false ∧ key b < key a := by
  unfold above partialCmp
  cases left : isNaN a <;> cases right : isNaN b <;> simp [compare_gt_iff_gt]

end Comparison

/-- First the higher float, then the lower index. -/
def RanksBefore (a b : Single × Nat) : Prop :=
  ((descending a.1 b.1).then (compare a.2 b.2)).isLE

instance : DecidableRel RanksBefore := fun _ _ => inferInstanceAs (Decidable (_ = true))

/-- The place of a float and an index in the ranking. -/
def place (x : Single × Nat) : ℤ ×ₗ ℕ := toLex (-key x.1, x.2)

theorem ranksBefore_iff {a b : Single × Nat} (left : isNaN a.1 = false)
    (right : isNaN b.1 = false) : RanksBefore a b ↔ place a ≤ place b := by
  rw [RanksBefore, descending, partialCmp_numbers right left, Option.getD_some, place, place,
    Prod.Lex.toLex_le_toLex]
  rcases lt_trichotomy (key b.1) (key a.1) with higher | same | lower
  · rw [compare_lt_iff_lt.mpr higher]
    simp [Ordering.then, higher]
  · rw [compare_eq_iff_eq.mpr same]
    simp [Ordering.then, same, compare_le_iff_le, Ordering.isLE_iff_ne_gt]
  · rw [compare_gt_iff_gt.mpr lower]
    simp [Ordering.then]
    omega

section Cut

variable {α : Type u} {β : Type v} [DecidableEq α] [LinearOrder β]

/-- The kept part of `all` lies before everything else. -/
structure Cut (rank : α → β) (all kept : Finset α) : Prop where
  sub : kept ⊆ all
  before : ∀ a ∈ kept, ∀ b ∈ all, b ∉ kept → rank a < rank b

theorem Cut.unique {rank : α → β} {all kept kept' : Finset α} (cut : Cut rank all kept)
    (cut' : Cut rank all kept') (size : kept.card = kept'.card) : kept = kept' := by
  by_contra differ
  have left : ¬ kept ⊆ kept' := fun sub => differ (Finset.eq_of_subset_of_card_le sub size.ge)
  have right : ¬ kept' ⊆ kept := fun sub => differ (Finset.eq_of_subset_of_card_le sub size.le).symm
  obtain ⟨a, a_kept, a_dropped⟩ := Finset.not_subset.mp left
  obtain ⟨b, b_kept, b_dropped⟩ := Finset.not_subset.mp right
  exact lt_asymm (cut.before a a_kept b (cut'.sub b_kept) b_dropped)
    (cut'.before b b_kept a (cut.sub a_kept) a_dropped)

theorem take_cut {rank : α → β} {l : List α} (sorted : l.Pairwise fun a b => rank a < rank b)
    (n : Nat) : Cut rank l.toFinset (l.take n).toFinset := by
  refine ⟨fun a listed => ?_, fun a kept b listed dropped => ?_⟩
  · exact List.mem_toFinset.mpr (List.mem_of_mem_take (List.mem_toFinset.mp listed))
  · rw [List.mem_toFinset] at kept listed dropped
    rw [← List.take_append_drop n l] at sorted listed
    have later : b ∈ l.drop n := (List.mem_append.mp listed).resolve_left dropped
    exact (List.pairwise_append.mp sorted).2.2 a kept b later

end Cut

end FloatOrder
