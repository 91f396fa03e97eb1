import Mathlib.Data.List.Infix

/-!
# Windows onto the newest items

A walk from the newest item back that takes items as long as a budget lasts, and
the newest one in any case. It takes the longest final part of the list that is
affordable.
-/

namespace RecentWindow

universe u

variable {α : Type u} (cost : α → Nat)

/-- What the items cost together. -/
def total : List α → Nat
  | [] => 0
  | a :: rest => cost a + total rest

/-- The walk over the items from the newest on; `started` once one has been taken. -/
def walk (budget : Nat) (started : Bool) : List α → List α
  | [] => []
  | a :: rest =>
    if budget < cost a ∧ started then [] else a :: walk (budget - cost a) true rest

/-- The items taken, oldest first. -/
def recent (budget : Nat) (items : List α) : List α :=
  (walk cost budget false items.reverse).reverse

/-- A single item is always affordable. -/
def Affordable (budget : Nat) (window : List α) : Prop :=
  window.length ≤ 1 ∨ total cost window ≤ budget

/-- The longest final part of the items that is affordable. -/
structure LongestAffordable (budget : Nat) (items window : List α) : Prop where
  final : window <:+ items
  affordable : Affordable cost budget window
  longest : ∀ other, other <:+ items → Affordable cost budget other →
    other.length ≤ window.length

variable {cost}

theorem total_append (xs ys : List α) : total cost (xs ++ ys) = total cost xs + total cost ys := by
  induction xs with
  | nil => exact (Nat.zero_add _).symm
  | cons a xs ih =>
    rw [List.cons_append, total, total, ih]
    omega

theorem total_reverse (xs : List α) : total cost xs.reverse = total cost xs := by
  induction xs with
  | nil => rfl
  | cons a xs ih =>
    rw [List.reverse_cons, total_append, ih]
    simp only [total]
    omega

/-- A started walk takes the longest initial part that its budget covers. -/
theorem walk_started (budget : Nat) (items : List α) :
    walk cost budget true items <+: items ∧ total cost (walk cost budget true items) ≤ budget ∧
      ∀ other, other <+: items → total cost other ≤ budget →
        other.length ≤ (walk cost budget true items).length := by
  induction items generalizing budget with
  | nil =>
    refine ⟨List.prefix_rfl, Nat.zero_le _, fun other initial _ => ?_⟩
    exact initial.length_le
  | cons a rest ih =>
    by_cases beyond : budget < cost a
    · have stops : walk cost budget true (a :: rest) = [] := if_pos ⟨beyond, rfl⟩
      rw [stops]
      refine ⟨List.nil_prefix, Nat.zero_le _, fun other initial covered => ?_⟩
      cases other with
      | nil => exact Nat.le_refl 0
      | cons b other =>
        obtain ⟨rfl, -⟩ := List.cons_prefix_cons.mp initial
        simp only [total] at covered
        omega
    · have goes : walk cost budget true (a :: rest) = a :: walk cost (budget - cost a) true rest :=
        if_neg fun h => beyond h.1
      obtain ⟨initial, covered, longest⟩ := ih (budget - cost a)
      rw [goes]
      refine ⟨List.cons_prefix_cons.mpr ⟨rfl, initial⟩, ?_, fun other otherInitial fits => ?_⟩
      · simp only [total]
        omega
      · cases other with
        | nil => exact Nat.zero_le _
        | cons b other =>
          obtain ⟨rfl, later⟩ := List.cons_prefix_cons.mp otherInitial
          simp only [total] at fits
          have := longest other later (by omega)
          simp only [List.length_cons]
          omega

theorem walk_affordable (positive : ∀ a, 0 < cost a) (budget : Nat) (items : List α) :
    walk cost budget false items <+: items ∧
      Affordable cost budget (walk cost budget false items) ∧
      ∀ other, other <+: items → Affordable cost budget other →
        other.length ≤ (walk cost budget false items).length := by
  cases items with
  | nil => exact ⟨List.prefix_rfl, .inl (Nat.zero_le 1), fun other initial _ => initial.length_le⟩
  | cons a rest =>
    have first : walk cost budget false (a :: rest) = a :: walk cost (budget - cost a) true rest :=
      if_neg fun h => Bool.false_ne_true h.2
    obtain ⟨initial, covered, longest⟩ := @walk_started _ cost (budget - cost a) rest
    rw [first]
    refine ⟨List.cons_prefix_cons.mpr ⟨rfl, initial⟩, ?_, fun other otherInitial fits => ?_⟩
    · by_cases beyond : budget < cost a
      · -- nothing is left, and the next item costs something
        have alone : walk cost (budget - cost a) true rest = [] := by
          cases taken : walk cost (budget - cost a) true rest with
          | nil => rfl
          | cons b more =>
            rw [taken] at covered
            have := positive b
            simp only [total] at covered
            omega
        exact .inl (by simp [alone])
      · refine .inr ?_
        simp only [total]
        omega
    · cases other with
      | nil => exact Nat.zero_le _
      | cons b other =>
        obtain ⟨rfl, later⟩ := List.cons_prefix_cons.mp otherInitial
        simp only [List.length_cons]
        rcases fits with single | fits
        · simp only [List.length_cons] at single
          omega
        · simp only [total] at fits
          have := longest other later (by omega)
          omega

/-- The walk takes the longest final part of the items that is affordable. -/
theorem recent_longest (positive : ∀ a, 0 < cost a) (budget : Nat) (items : List α) :
    LongestAffordable cost budget items (recent cost budget items) := by
  obtain ⟨initial, affordable, longest⟩ := walk_affordable positive budget items.reverse
  refine ⟨?_, ?_, fun other final fits => ?_⟩
  · rw [recent, ← List.reverse_prefix, List.reverse_reverse]
    exact initial
  · rcases affordable with short | covered
    · exact .inl (by rwa [recent, List.length_reverse])
    · exact .inr (by rwa [recent, total_reverse])
  · have bounded := longest other.reverse (List.reverse_prefix.mpr final) ?_
    · simpa [recent] using bounded
    · rcases fits with short | covered
      · exact .inl (by rwa [List.length_reverse])
      · exact .inr (by rwa [total_reverse])

/-- There is one longest affordable part. -/
theorem LongestAffordable.unique {budget : Nat} {items window other : List α}
    (h : LongestAffordable cost budget items window)
    (h' : LongestAffordable cost budget items other) : window = other := by
  have length : window.length = other.length :=
    Nat.le_antisymm (h'.longest window h.final h.affordable)
      (h.longest other h'.final h'.affordable)
  exact (List.suffix_of_suffix_length_le h.final h'.final (Nat.le_of_eq length)).eq_of_length length

/-- The newest item is taken. -/
theorem LongestAffordable.newest {budget : Nat} {items window : List α}
    (h : LongestAffordable cost budget items window) : window.getLast? = items.getLast? := by
  cases items using List.reverseRecOn with
  | nil =>
    have empty : window = [] := List.suffix_nil.mp h.final
    rw [empty]
  | append_singleton items a =>
    have one := h.longest [a] ⟨items, rfl⟩ (.inl (Nat.le_refl 1))
    obtain ⟨before, split⟩ := h.final
    cases window using List.reverseRecOn with
    | nil => cases one
    | append_singleton window b =>
      rw [← List.append_assoc] at split
      have same := (List.append_inj' split rfl).2
      rw [List.getLast?_concat, List.getLast?_concat]
      exact congrArg some (List.cons.inj same).1

end RecentWindow
