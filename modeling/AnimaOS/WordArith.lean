import Mathlib

/-!
# Checked and masked arithmetic on machine words

Words have an arbitrary width. Checked operations fail where the mathematical
result leaves the word; clearing the bits of a low mask rounds down to a
multiple of a power of two.
-/

namespace WordArith

variable {w : Nat}

def checkedAdd (a b : BitVec w) : Option (BitVec w) :=
  if a.toNat + b.toNat < 2 ^ w then some (a + b) else none

def checkedSub (a b : BitVec w) : Option (BitVec w) :=
  if b.toNat ≤ a.toNat then some (a - b) else none

def saturatingAdd (a b : BitVec w) : BitVec w :=
  if a.toNat + b.toNat < 2 ^ w then a + b else BitVec.allOnes w

theorem toNat_add_of_fits {a b : BitVec w} (fits : a.toNat + b.toNat < 2 ^ w) :
    (a + b).toNat = a.toNat + b.toNat := by
  simp only [BitVec.toNat_add, Nat.mod_eq_of_lt fits]

theorem checkedAdd_eq_some {a b c : BitVec w} (h : checkedAdd a b = some c) :
    c = a + b ∧ c.toNat = a.toNat + b.toNat := by
  simp only [checkedAdd] at h
  split at h
  · rename_i fits
    obtain rfl := Option.some.inj h
    exact ⟨rfl, toNat_add_of_fits fits⟩
  · cases h

theorem checkedSub_eq_some {a b c : BitVec w} (h : checkedSub a b = some c) :
    b.toNat ≤ a.toNat ∧ c.toNat = a.toNat - b.toNat := by
  simp only [checkedSub] at h
  split at h
  · rename_i below
    obtain rfl := Option.some.inj h
    exact ⟨below, BitVec.toNat_sub_of_le (BitVec.le_def.mpr below)⟩
  · cases h

theorem saturatingAdd_of_fits {a b : BitVec w} (fits : a.toNat + b.toNat < 2 ^ w) :
    saturatingAdd a b = a + b := if_pos fits

/-- A word is the sum of its bits outside and inside a mask. -/
theorem and_not_add_and (x mask : BitVec w) :
    (x &&& ~~~mask).toNat + (x &&& mask).toNat = x.toNat := by
  have apart : (x &&& ~~~mask) &&& (x &&& mask) = 0#w := by
    rw [BitVec.and_comm x mask, ← BitVec.and_assoc, BitVec.and_assoc x, BitVec.not_and_self]
    simp
  calc (x &&& ~~~mask).toNat + (x &&& mask).toNat
      = ((x &&& ~~~mask) ||| (x &&& mask)).toNat := by
        rw [← BitVec.toNat_add_of_and_eq_zero apart, BitVec.add_eq_or_of_and_eq_zero _ _ apart]
    _ = x.toNat := by
        congr 1
        ext i hi
        cases m : mask[i] <;> simp [m]

/-- Clearing the low `k` bits rounds down to a multiple of `2 ^ k`. -/
theorem toNat_and_not_mask {mask : BitVec w} {k : Nat} (hm : mask.toNat = 2 ^ k - 1)
    (x : BitVec w) : (x &&& ~~~mask).toNat = x.toNat - x.toNat % 2 ^ k := by
  have parts := and_not_add_and x mask
  have low : (x &&& mask).toNat = x.toNat % 2 ^ k := by
    simp only [BitVec.toNat_and, hm, Nat.and_two_pow_sub_one_eq_mod]
  omega

end WordArith
