import Mathlib

/-!
# Saturating and wrapping arithmetic on naturals

Unsigned counters of a fixed width, kept as naturals below a power of two.
-/

namespace FixedWidth

def maxOf (bits : Nat) : Nat := 2 ^ bits - 1

def satAdd (bits a b : Nat) : Nat := min (a + b) (maxOf bits)

def satMul (bits a b : Nat) : Nat := min (a * b) (maxOf bits)

def wrap (bits a : Nat) : Nat := a % 2 ^ bits

/-- A result that has to fit its width, or the operation fails. -/
def checked (bits a : Nat) : Option Nat := if a ≤ maxOf bits then some a else none

@[simp] theorem checked_eq_some {bits a b : Nat} :
    checked bits a = some b ↔ a ≤ maxOf bits ∧ a = b := by
  simp [checked]

theorem checked_of_le {bits a : Nat} (h : a ≤ maxOf bits) : checked bits a = some a := if_pos h

theorem wrap_of_le_max {bits a : Nat} (h : a ≤ maxOf bits) : wrap bits a = a := by
  have := Nat.two_pow_pos bits
  simp only [maxOf] at h
  exact Nat.mod_eq_of_lt (by omega)

theorem satAdd_zero {bits a : Nat} (h : a ≤ maxOf bits) : satAdd bits a 0 = a := Nat.min_eq_left h

/-- Below the largest value a saturated sum does not hide an overflow. -/
theorem satAdd_le_iff {bits a b limit : Nat} (h : limit < maxOf bits) :
    satAdd bits a b ≤ limit ↔ a + b ≤ limit := by
  simp only [satAdd]
  omega

/-- A sum below the largest value did not saturate. -/
theorem satAdd_sub {bits a b : Nat} (h : satAdd bits a b < maxOf bits) :
    satAdd bits a b - b = a := by
  simp only [satAdd] at h ⊢
  omega

end FixedWidth
