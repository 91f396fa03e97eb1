import Mathlib

/-!
# Numerals in a radix

Digits as `char::to_digit` reads them, the value of a digit text, and the
checked accumulation by which a bounded integer is parsed.
-/

namespace Numerals

def toDigit (radix : Nat) (c : Char) : Option Nat :=
  let d :=
    if '0'.toNat ≤ c.toNat ∧ c.toNat ≤ '9'.toNat then some (c.toNat - '0'.toNat)
    else if 'a'.toNat ≤ c.toNat ∧ c.toNat ≤ 'z'.toNat then some (c.toNat - 'a'.toNat + 10)
    else if 'A'.toNat ≤ c.toNat ∧ c.toNat ≤ 'Z'.toNat then some (c.toNat - 'A'.toNat + 10)
    else none
  d.filter fun d => d < radix

def isDigit (radix : Nat) (c : Char) : Bool := (toDigit radix c).isSome

def valueFrom (radix acc : Nat) (text : List Char) : Nat :=
  text.foldl (fun acc c => acc * radix + (toDigit radix c).getD 0) acc

/-- A nonempty digit text and the number it writes. -/
structure Numeral (radix : Nat) (text : List Char) (n : Nat) : Prop where
  nonempty : text ≠ []
  digits : ∀ c ∈ text, isDigit radix c
  value : valueFrom radix 0 text = n

/-- `from_str_radix` past the sign: each step is checked against the largest value. -/
def accumulate (radix largest acc : Nat) : List Char → Option Nat
  | [] => some acc
  | c :: rest =>
    match toDigit radix c with
    | some d =>
      if acc * radix + d ≤ largest then accumulate radix largest (acc * radix + d) rest else none
    | none => none

def fromStrRadix (radix largest : Nat) (text : List Char) : Option Nat :=
  match text with
  | [] => none
  | ['+'] => none
  | '+' :: rest => accumulate radix largest 0 rest
  | text => accumulate radix largest 0 text

theorem valueFrom_cons (radix acc : Nat) (c : Char) (rest : List Char) :
    valueFrom radix acc (c :: rest) =
      valueFrom radix (acc * radix + (toDigit radix c).getD 0) rest := rfl

theorem le_valueFrom {radix : Nat} (positive : 0 < radix) (acc : Nat) (text : List Char) :
    acc ≤ valueFrom radix acc text := by
  induction text generalizing acc with
  | nil => exact Nat.le_refl acc
  | cons c rest ih =>
    have grown : acc ≤ acc * radix + (toDigit radix c).getD 0 :=
      Nat.le_trans (Nat.le_mul_of_pos_right acc positive) (Nat.le_add_right _ _)
    exact Nat.le_trans grown (ih _)

theorem digit_of_isDigit {radix : Nat} {c : Char} (h : isDigit radix c) :
    ∃ d, toDigit radix c = some d :=
  Option.isSome_iff_exists.mp h

theorem zero_le_digit {radix : Nat} {c : Char} (h : isDigit radix c) : '0'.toNat ≤ c.toNat := by
  obtain ⟨d, read⟩ := digit_of_isDigit h
  simp only [toDigit, Option.filter_eq_some_iff, Char.reduceToNat] at read ⊢
  obtain ⟨found, -⟩ := read
  split at found
  · omega
  · split at found
    · omega
    · split at found
      · omega
      · cases found

theorem accumulate_complete {radix largest : Nat} (positive : 0 < radix) {text : List Char}
    (digits : ∀ c ∈ text, isDigit radix c) {acc : Nat}
    (fits : valueFrom radix acc text ≤ largest) :
    accumulate radix largest acc text = some (valueFrom radix acc text) := by
  induction text generalizing acc with
  | nil => rfl
  | cons c rest ih =>
    obtain ⟨d, hd⟩ := digit_of_isDigit (digits c List.mem_cons_self)
    simp only [valueFrom_cons, hd] at fits
    have within : acc * radix + d ≤ largest :=
      Nat.le_trans (le_valueFrom positive _ rest) fits
    simp only [accumulate, hd, within, if_true, valueFrom_cons]
    exact ih (fun c hc => digits c (List.mem_cons_of_mem _ hc)) fits

theorem plus_not_digit {radix : Nat} : isDigit radix '+' = false := by
  simp [isDigit, toDigit]

theorem fromStrRadix_complete {radix largest : Nat} (positive : 0 < radix) {text : List Char}
    {n : Nat} (numeral : Numeral radix text n) (fits : n ≤ largest) :
    fromStrRadix radix largest text = some n := by
  obtain ⟨nonempty, digits, rfl⟩ := numeral
  have unsigned : fromStrRadix radix largest text = accumulate radix largest 0 text := by
    simp only [fromStrRadix]
    split
    · exact absurd rfl nonempty
    · exact absurd (digits '+' List.mem_cons_self) (by simp [plus_not_digit])
    · exact absurd (digits '+' List.mem_cons_self) (by simp [plus_not_digit])
    · rfl
  rw [unsigned]
  exact accumulate_complete positive digits fits

theorem accumulate_digits {radix largest acc n : Nat} {text : List Char}
    (h : accumulate radix largest acc text = some n) : ∀ c ∈ text, isDigit radix c := by
  induction text generalizing acc with
  | nil =>
    intro c hc
    cases hc
  | cons a rest ih =>
    simp only [accumulate] at h
    split at h
    · rename_i d hd
      split at h
      · intro c hc
        rcases List.mem_cons.mp hc with rfl | hc
        · exact Option.isSome_iff_exists.mpr ⟨d, hd⟩
        · exact ih h c hc
      · cases h
    · cases h

/-- Only digits and a leading sign are read. -/
theorem fromStrRadix_chars {radix largest n : Nat} {text : List Char}
    (h : fromStrRadix radix largest text = some n) : ∀ c ∈ text, c = '+' ∨ isDigit radix c := by
  intro c hc
  simp only [fromStrRadix] at h
  split at h
  · cases h
  · cases h
  · rcases List.mem_cons.mp hc with rfl | hc
    · exact Or.inl rfl
    · exact Or.inr (accumulate_digits h c hc)
  · exact Or.inr (accumulate_digits h c hc)

/-- A character that is a digit in a smaller radix is one, with the same value, in a larger. -/
theorem toDigit_mono {small large : Nat} (h : small ≤ large) {c : Char} {d : Nat}
    (hd : toDigit small c = some d) : toDigit large c = some d := by
  simp only [toDigit, Option.filter_eq_some_iff, decide_eq_true_eq] at hd ⊢
  exact ⟨hd.1, Nat.lt_of_lt_of_le hd.2 h⟩

theorem isDigit_mono {small large : Nat} (h : small ≤ large) {c : Char}
    (hc : isDigit small c) : isDigit large c := by
  obtain ⟨d, hd⟩ := digit_of_isDigit hc
  exact Option.isSome_iff_exists.mpr ⟨d, toDigit_mono h hd⟩

theorem toLower_upper {c : Char} (upper : 'A'.toNat ≤ c.toNat ∧ c.toNat ≤ 'Z'.toNat) :
    c.toLower.toNat = c.toNat + 32 := by
  have range : c.val ≥ 'A'.val ∧ c.val ≤ 'Z'.val :=
    ⟨UInt32.le_iff_toNat_le.mpr upper.1, UInt32.le_iff_toNat_le.mpr upper.2⟩
  have small : c.toNat + 32 < 2 ^ 32 :=
    Nat.lt_of_le_of_lt (Nat.add_le_add_right upper.2 32) (by decide)
  simp only [Char.toLower, dif_pos range]
  exact Nat.mod_eq_of_lt small

theorem toLower_other {c : Char} (other : ¬ ('A'.toNat ≤ c.toNat ∧ c.toNat ≤ 'Z'.toNat)) :
    c.toLower = c := by
  have range : ¬ (c.val ≥ 'A'.val ∧ c.val ≤ 'Z'.val) := fun h =>
    other ⟨UInt32.le_iff_toNat_le.mp h.1, UInt32.le_iff_toNat_le.mp h.2⟩
  simp only [Char.toLower, dif_neg range]

/-- ASCII lowercasing leaves every digit its value. -/
theorem toDigit_toLower (radix : Nat) (c : Char) : toDigit radix c.toLower = toDigit radix c := by
  by_cases upper : 'A'.toNat ≤ c.toNat ∧ c.toNat ≤ 'Z'.toNat
  · have lowered := toLower_upper upper
    simp only [Char.reduceToNat] at upper lowered
    have d : ¬ (48 ≤ c.toNat + 32 ∧ c.toNat + 32 ≤ 57) := by omega
    have l : 97 ≤ c.toNat + 32 ∧ c.toNat + 32 ≤ 122 := by omega
    have d' : ¬ (48 ≤ c.toNat ∧ c.toNat ≤ 57) := by omega
    have l' : ¬ (97 ≤ c.toNat ∧ c.toNat ≤ 122) := by omega
    simp only [toDigit, Char.reduceToNat, lowered, d, l, d', l', upper, and_self, if_true, if_false]
    rw [show c.toNat + 32 - 97 = c.toNat - 65 by omega]
  · rw [toLower_other upper]

theorem valueFrom_toLower (radix acc : Nat) (text : List Char) :
    valueFrom radix acc (text.map Char.toLower) = valueFrom radix acc text := by
  induction text generalizing acc with
  | nil => rfl
  | cons c rest ih => rw [List.map_cons, valueFrom_cons, valueFrom_cons, toDigit_toLower, ih]

theorem Numeral.toLower {radix : Nat} {text : List Char} {n : Nat}
    (numeral : Numeral radix text n) : Numeral radix (text.map Char.toLower) n where
  nonempty := by simpa using numeral.nonempty
  digits := by
    intro c hc
    obtain ⟨a, ha, rfl⟩ := List.mem_map.mp hc
    simp only [isDigit, toDigit_toLower]
    exact numeral.digits a ha
  value := by rw [valueFrom_toLower, numeral.value]

/-! ## The shortest decimal -/

theorem digitChar_value : ∀ d, d < 10 → toDigit 10 (Nat.digitChar d) = some d := by
  decide

theorem digitChar_lead : ∀ d, d < 10 → 0 < d → Nat.digitChar d ≠ '0' := by
  decide

theorem valueFrom_snoc (radix acc : Nat) (text : List Char) (c : Char) :
    valueFrom radix acc (text ++ [c]) =
      valueFrom radix acc text * radix + (toDigit radix c).getD 0 := by
  simp only [valueFrom, List.foldl_append, List.foldl_cons, List.foldl_nil]

/-- The text of an unsigned integer. -/
def natText (n : Nat) : String := String.ofList (Nat.toDigits 10 n)

theorem numeral_toDigits (n : Nat) : Numeral 10 (Nat.toDigits 10 n) n := by
  induction n using Nat.strongRecOn with
  | ind n ih =>
    rw [Nat.toDigits_eq_if (by omega)]
    split
    · rename_i small
      have read := digitChar_value n small
      refine ⟨List.cons_ne_nil _ _, ?_, ?_⟩
      · intro c hc
        rw [List.mem_singleton.mp hc]
        exact Option.isSome_iff_exists.mpr ⟨n, read⟩
      · simp [valueFrom, read]
    · rename_i large
      have read := digitChar_value (n % 10) (by omega)
      obtain ⟨-, digits, value⟩ := ih (n / 10) (by omega)
      refine ⟨by simp, ?_, ?_⟩
      · intro c hc
        rcases List.mem_append.mp hc with hc | hc
        · exact digits c hc
        · rw [List.mem_singleton.mp hc]
          exact Option.isSome_iff_exists.mpr ⟨_, read⟩
      · rw [valueFrom_snoc, value, read, Option.getD_some]
        omega

theorem toDigits_lead {n : Nat} (positive : 0 < n) :
    ∃ d rest, Nat.toDigits 10 n = d :: rest ∧ d ≠ '0' := by
  induction n using Nat.strongRecOn with
  | ind n ih =>
    rw [Nat.toDigits_eq_if (by omega)]
    split
    · rename_i small
      exact ⟨_, [], rfl, digitChar_lead n small positive⟩
    · obtain ⟨d, rest, same, lead⟩ := ih (n / 10) (by omega) (by omega)
      exact ⟨d, rest ++ [Nat.digitChar (n % 10)], by rw [same, List.cons_append], lead⟩

end Numerals
