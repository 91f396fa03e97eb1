import Mathlib.Algebra.BigOperators.Intervals
import Mathlib.Algebra.BigOperators.Ring.Finset
import Mathlib.Algebra.Ring.Basic
import Mathlib.Data.Nat.Bitwise
import Mathlib.Tactic.Ring

/-!
# Sylvester's Hadamard matrices

The matrix of order `2 ^ (k + 1)` has the one of order `2 ^ k` in its four quarters,
negated in the last. Its rows are orthogonal, so multiplying twice multiplies by
the order.
-/

namespace SylvesterMatrix

universe u

variable {R : Type u} [CommRing R]

/-- The sign by which the bit `k` of row and column contributes. -/
def quarter (R : Type u) [CommRing R] (k row col : Nat) : R :=
  if row.testBit k && col.testBit k then -1 else 1

/-- Entries of the matrix of order `2 ^ k`; only the low `k` bits of the indices count. -/
def sylvester (R : Type u) [CommRing R] : Nat → Nat → Nat → R
  | 0, _, _ => 1
  | k + 1, row, col => quarter R k row col * sylvester R k row col

/-- The matrix applied to the vector `f` of length `2 ^ k`. -/
def multiply (k : Nat) (f : Nat → R) (row : Nat) : R :=
  ∑ col ∈ Finset.range (2 ^ k), sylvester R k row col * f col

theorem sylvester_congr {k row row' col col' : Nat}
    (rows : ∀ i < k, row.testBit i = row'.testBit i)
    (cols : ∀ i < k, col.testBit i = col'.testBit i) :
    sylvester R k row col = sylvester R k row' col' := by
  induction k with
  | zero => rfl
  | succ k ih =>
    have earlier := ih (fun i below => rows i (by omega)) fun i below => cols i (by omega)
    simp only [sylvester, quarter, earlier, rows k (Nat.lt_succ_self k),
      cols k (Nat.lt_succ_self k)]

theorem low_bits (k q r i : Nat) (below : i < k) :
    (2 ^ k * q + r).testBit i = r.testBit i := by
  have bits := Nat.testBit_mod_two_pow (2 ^ k * q + r) k i
  have plain := Nat.testBit_mod_two_pow r k i
  rw [Nat.mul_add_mod] at bits
  rw [bits] at plain
  simpa [below] using plain

/-- A row or a column moved by a multiple of the order is the same one. -/
theorem sylvester_row (k q row col : Nat) :
    sylvester R k (2 ^ k * q + row) col = sylvester R k row col :=
  sylvester_congr (fun i below => low_bits k q row i below) fun _ _ => rfl

theorem sylvester_col (k q row col : Nat) :
    sylvester R k row (2 ^ k * q + col) = sylvester R k row col :=
  sylvester_congr (fun _ _ => rfl) fun i below => low_bits k q col i below

theorem sylvester_symm (k row col : Nat) : sylvester R k row col = sylvester R k col row := by
  induction k with
  | zero => rfl
  | succ k ih => simp only [sylvester, quarter, ih, Bool.and_comm]

/-- The sign of a row in the second half of the doubled matrix. -/
def half (R : Type u) [CommRing R] (k row : Nat) : R := if row.testBit k then -1 else 1

theorem sylvester_low {k col : Nat} (inside : col < 2 ^ k) (row : Nat) :
    sylvester R (k + 1) row col = sylvester R k row col := by
  have unset : col.testBit k = false := Nat.testBit_lt_two_pow inside
  simp [sylvester, quarter, unset]

theorem sylvester_high {k col : Nat} (inside : col < 2 ^ k) (row : Nat) :
    sylvester R (k + 1) row (2 ^ k + col) = half R k row * sylvester R k row col := by
  have set : (2 ^ k + col).testBit k = true := by
    rw [Nat.testBit_two_pow_add_eq, Nat.testBit_lt_two_pow inside]
    rfl
  have same : sylvester R k row (2 ^ k + col) = sylvester R k row col := by
    simpa using sylvester_col (R := R) k 1 row col
  simp only [sylvester, quarter, half, set, same, Bool.and_true]

/-! ## Products -/

theorem multiply_congr {k : Nat} {f g : Nat → R} (same : ∀ col < 2 ^ k, f col = g col)
    (row : Nat) : multiply k f row = multiply k g row :=
  Finset.sum_congr rfl fun col inside => by rw [same col (Finset.mem_range.mp inside)]

theorem multiply_scale (k : Nat) (f : Nat → R) (c : R) (row : Nat) :
    multiply k (fun col => f col * c) row = multiply k f row * c := by
  rw [multiply, multiply, Finset.sum_mul]
  exact Finset.sum_congr rfl fun col _ => (mul_assoc _ _ _).symm

/-- The row of the doubled matrix in its two halves. -/
theorem multiply_succ (k : Nat) (f : Nat → R) (row : Nat) :
    multiply (k + 1) f row =
      multiply k f row + half R k row * multiply k (fun col => f (2 ^ k + col)) row := by
  have left : ∀ col ∈ Finset.range (2 ^ k),
      sylvester R (k + 1) row col * f col = sylvester R k row col * f col := by
    intro col inside
    rw [sylvester_low (Finset.mem_range.mp inside)]
  have right : ∀ col ∈ Finset.range (2 ^ k),
      sylvester R (k + 1) row (2 ^ k + col) * f (2 ^ k + col) =
        half R k row * (sylvester R k row col * f (2 ^ k + col)) := by
    intro col inside
    rw [sylvester_high (Finset.mem_range.mp inside), mul_assoc]
  rw [multiply, Nat.pow_succ, Nat.mul_two, Finset.sum_range_add, Finset.sum_congr rfl left,
    Finset.sum_congr rfl right, ← Finset.mul_sum]
  rfl

/-- The row with a multiple of the order added is the same one. -/
theorem multiply_row (k q : Nat) (f : Nat → R) (row : Nat) :
    multiply k f (2 ^ k * q + row) = multiply k f row :=
  Finset.sum_congr rfl fun col _ => by rw [sylvester_row]

/-! ## Orthogonality -/

/-- The indices agree in their low bits. -/
def Agree (k a b : Nat) : Prop := ∀ i < k, a.testBit i = b.testBit i

instance (k a b : Nat) : Decidable (Agree k a b) :=
  inferInstanceAs (Decidable (∀ i < k, a.testBit i = b.testBit i))

theorem agree_succ {k a b : Nat} :
    Agree (k + 1) a b ↔ Agree k a b ∧ a.testBit k = b.testBit k := by
  constructor
  · exact fun agree => ⟨fun i below => agree i (by omega), agree k (Nat.lt_succ_self k)⟩
  · rintro ⟨agree, last⟩ i below
    rcases Nat.lt_succ_iff_lt_or_eq.mp below with earlier | rfl
    · exact agree i earlier
    · exact last

theorem Agree.eq {k a b : Nat} (agree : Agree k a b) (ha : a < 2 ^ k) (hb : b < 2 ^ k) : a = b := by
  apply Nat.eq_of_testBit_eq
  intro i
  by_cases below : i < k
  · exact agree i below
  · have order : 2 ^ k ≤ 2 ^ i := Nat.pow_le_pow_right (by decide) (Nat.le_of_not_lt below)
    rw [Nat.testBit_lt_two_pow (by omega), Nat.testBit_lt_two_pow (by omega)]

/-- The product of row `a` and column `b`. -/
def gram (R : Type u) [CommRing R] (k a b : Nat) : R :=
  multiply k (fun col => sylvester R k col b) a

theorem gram_succ (k a b : Nat) :
    gram R (k + 1) a b = (1 + half R k a * half R k b) * gram R k a b := by
  have low : multiply k (fun col => sylvester R (k + 1) col b) a = gram R k a b :=
    multiply_congr (fun col inside => by
      rw [sylvester_symm, sylvester_low inside, sylvester_symm]) a
  have high : multiply k (fun col => sylvester R (k + 1) (2 ^ k + col) b) a =
      gram R k a b * half R k b := by
    rw [gram, ← multiply_scale]
    exact multiply_congr (fun col inside => by
      rw [sylvester_symm, sylvester_high inside, sylvester_symm k b col, mul_comm]) a
  rw [gram, multiply_succ, low, high]
  ring

theorem half_mul (k a b : Nat) :
    half R k a * half R k b = if a.testBit k = b.testBit k then 1 else -1 := by
  cases ha : a.testBit k <;> cases hb : b.testBit k <;> simp [half, ha, hb]

theorem gram_eq (k a b : Nat) : gram R k a b = if Agree k a b then 2 ^ k else 0 := by
  induction k with
  | zero =>
    have trivially : Agree 0 a b := fun i below => absurd below (Nat.not_lt_zero i)
    simp [gram, multiply, sylvester, trivially]
  | succ k ih =>
    rw [gram_succ, half_mul, ih]
    by_cases last : a.testBit k = b.testBit k
    · by_cases agree : Agree k a b
      · rw [if_pos last, if_pos agree, if_pos (agree_succ.mpr ⟨agree, last⟩)]
        ring
      · rw [if_neg agree, if_neg fun whole => agree (agree_succ.mp whole).1, mul_zero]
    · rw [if_neg last, if_neg fun whole => last (agree_succ.mp whole).2]
      ring

/-- Multiplying twice multiplies by the order. -/
theorem multiply_twice (k : Nat) (f : Nat → R) {row : Nat} (inside : row < 2 ^ k) :
    multiply k (multiply k f) row = 2 ^ k * f row := by
  have swapped : multiply k (multiply k f) row =
      ∑ col ∈ Finset.range (2 ^ k), gram R k row col * f col := by
    simp only [multiply, gram, Finset.mul_sum, Finset.sum_mul]
    rw [Finset.sum_comm]
    exact Finset.sum_congr rfl fun col _ => Finset.sum_congr rfl fun r _ => (mul_assoc _ _ _).symm
  rw [swapped, Finset.sum_eq_single_of_mem row (Finset.mem_range.mpr inside)]
  · have own : Agree k row row := fun _ _ => rfl
    rw [gram_eq, if_pos own]
  · intro col listed apart
    rw [gram_eq, if_neg fun agree => apart (agree.eq inside (Finset.mem_range.mp listed)).symm,
      zero_mul]

end SylvesterMatrix
