import Mathlib.Algebra.Order.BigOperators.Ring.Finset
import Mathlib.Order.Interval.Finset.Basic

/-!
# Products carried along an order

Every index holds the product of the factors strictly below it, cut at a floor.
With factors between zero and one the products fall along the order, see nothing
of their own index, and fall with the factors.
-/

namespace CarriedProduct

variable {ι R : Type*} [LinearOrder ι] [LocallyFiniteOrderBot ι]
  [CommSemiring R] [LinearOrder R] [IsOrderedRing R]

/-- The product of all factors below an index. -/
def carried (factor : ι → R) (i : ι) : R := ∏ j ∈ Finset.Iio i, factor j

def floored (floor : R) (factor : ι → R) (i : ι) : R := max (carried factor i) floor

/-- Factors that can only shrink what they multiply. -/
def Shrinking (factor : ι → R) : Prop := ∀ i, 0 ≤ factor i ∧ factor i ≤ 1

variable {factor other : ι → R} {floor : R} {i k : ι}

omit [IsOrderedRing R] [LinearOrder R] in
theorem carried_congr (same : ∀ j < i, factor j = other j) :
    carried factor i = carried other i :=
  Finset.prod_congr rfl fun j below => same j (Finset.mem_Iio.mp below)

theorem carried_nonneg (shrinking : Shrinking factor) (i : ι) : 0 ≤ carried factor i :=
  Finset.prod_nonneg fun j _ => (shrinking j).1

theorem carried_le_one (shrinking : Shrinking factor) (i : ι) : carried factor i ≤ 1 :=
  Finset.prod_le_one (fun j _ => (shrinking j).1) fun j _ => (shrinking j).2

theorem carried_falls (shrinking : Shrinking factor) (le : i ≤ k) :
    carried factor k ≤ carried factor i := by
  have inside : Finset.Iio i ⊆ Finset.Iio k := Finset.Iio_subset_Iio le
  have between : ∏ j ∈ Finset.Iio k \ Finset.Iio i, factor j ≤ 1 :=
    Finset.prod_le_one (fun j _ => (shrinking j).1) fun j _ => (shrinking j).2
  have split : carried factor k =
      (∏ j ∈ Finset.Iio k \ Finset.Iio i, factor j) * carried factor i :=
    (Finset.prod_sdiff inside).symm
  rw [split]
  exact mul_le_of_le_one_left (carried_nonneg shrinking i) between

theorem carried_mono (nonneg : ∀ j, 0 ≤ factor j) (le : ∀ j, factor j ≤ other j) (i : ι) :
    carried factor i ≤ carried other i :=
  Finset.prod_le_prod (fun j _ => nonneg j) fun j _ => le j

omit [IsOrderedRing R] in
theorem floored_ge (floor : R) (factor : ι → R) (i : ι) : floor ≤ floored floor factor i :=
  le_max_right _ _

theorem floored_le_one (shrinking : Shrinking factor) (low : floor ≤ 1) (i : ι) :
    floored floor factor i ≤ 1 :=
  max_le (carried_le_one shrinking i) low

theorem floored_falls (shrinking : Shrinking factor) (floor : R) (le : i ≤ k) :
    floored floor factor k ≤ floored floor factor i :=
  max_le_max_right floor (carried_falls shrinking le)

theorem floored_mono (nonneg : ∀ j, 0 ≤ factor j) (le : ∀ j, factor j ≤ other j) (floor : R)
    (i : ι) : floored floor factor i ≤ floored floor other i :=
  max_le_max_right floor (carried_mono nonneg le i)

omit [IsOrderedRing R] in
theorem floored_congr (same : ∀ j < i, factor j = other j) (floor : R) :
    floored floor factor i = floored floor other i := by
  rw [floored, carried_congr same, floored]

end CarriedProduct
