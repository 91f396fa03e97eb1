import Mathlib.Data.List.Basic

/-!
# Suffixes by labels

A text cut into labels at every separator. A text that ends with another behind
a separator has its labels behind at least one more, and the other way round.
-/

namespace LabelSuffix

universe u v w

variable {α : Type u} {β : Type v}

/-- A suffix that leaves something before it. -/
def StrictSuffix (short long : List β) : Prop := ∃ front ≠ [], front ++ short = long

theorem suffix_iff {short long : List β} :
    short <:+ long ↔ short = long ∨ StrictSuffix short long := by
  constructor
  · rintro ⟨front, rfl⟩
    cases front with
    | nil => exact Or.inl rfl
    | cons first front => exact Or.inr ⟨first :: front, List.cons_ne_nil _ _, rfl⟩
  · rintro (rfl | ⟨front, -, rfl⟩)
    · exact List.suffix_rfl
    · exact List.suffix_append front short

theorem StrictSuffix.map {γ : Type w} (f : β → γ) {short long : List β}
    (h : StrictSuffix short long) : StrictSuffix (short.map f) (long.map f) := by
  obtain ⟨front, nonempty, rfl⟩ := h
  exact ⟨front.map f, mt List.map_eq_nil_iff.mp nonempty, List.map_append.symm⟩

theorem intercalate_append {front back : List (List α)} (nonempty : front ≠ [])
    (rest : back ≠ []) (sep : List α) :
    sep.intercalate (front ++ back) = sep.intercalate front ++ sep ++ sep.intercalate back := by
  induction front with
  | nil => exact absurd rfl nonempty
  | cons first front ih =>
    cases front with
    | nil => simp [List.intercalate_cons_of_ne_nil rest]
    | cons second front =>
      have more : second :: front ≠ [] := List.cons_ne_nil _ _
      have whole : second :: front ++ back ≠ [] := List.cons_ne_nil _ _
      rw [List.cons_append, List.intercalate_cons_of_ne_nil whole, ih more,
        List.intercalate_cons_of_ne_nil more]
      simp

variable [DecidableEq α]

/-- There is always one label more than there are separators. -/
def labels (sep : α) (text : List α) : List (List α) := text.splitOn sep

theorem labels_ne_nil (sep : α) (text : List α) : labels sep text ≠ [] :=
  List.splitOn_ne_nil sep text

theorem labels_join (sep : α) (text : List α) : [sep].intercalate (labels sep text) = text :=
  List.intercalate_splitOn sep

theorem labels_injective (sep : α) : Function.Injective (labels sep) := by
  intro text other same
  rw [← labels_join sep text, same, labels_join]

theorem labels_append (sep : α) (before after : List α) :
    labels sep (before ++ sep :: after) = labels sep before ++ labels sep after :=
  List.splitOn_append_cons_of_beq before after (beq_self_eq_true sep)

theorem separated_suffix_iff {sep : α} {short long : List α} :
    sep :: short <:+ long ↔ StrictSuffix (labels sep short) (labels sep long) := by
  constructor
  · rintro ⟨before, rfl⟩
    exact ⟨labels sep before, labels_ne_nil sep before, (labels_append sep before short).symm⟩
  · rintro ⟨front, nonempty, same⟩
    have joined := congrArg [sep].intercalate same
    rw [intercalate_append nonempty (labels_ne_nil sep short), labels_join, labels_join] at joined
    refine ⟨[sep].intercalate front, ?_⟩
    rw [← joined, List.append_assoc]
    rfl

/-- A change of the alphabet that keeps the separator apart changes every label alone. -/
theorem labels_map {γ : Type w} [DecidableEq γ] {f : α → γ} {sep : α}
    (apart : ∀ a, f a = f sep ↔ a = sep) (text : List α) :
    labels (f sep) (text.map f) = (labels sep text).map (List.map f) := by
  induction text with
  | nil => rfl
  | cons a text ih =>
    simp only [labels] at ih ⊢
    rw [List.map_cons, List.splitOn_cons_eq_if_modifyHead, List.splitOn_cons_eq_if_modifyHead, ih]
    by_cases delimiter : a = sep
    · simp [delimiter]
    · have other : ¬f a = f sep := mt (apart a).mp delimiter
      cases pieces : text.splitOn sep with
      | nil => exact absurd pieces (List.splitOn_ne_nil sep text)
      | cons first rest => simp [delimiter, other]

end LabelSuffix
