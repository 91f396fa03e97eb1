import AnimaOS.TextSplit
import Mathlib.Data.List.Infix

/-!
# Paths as lists of segments

Lexical resolution of a path and the comparison of rooted paths as texts. The
separator and the two special segments are parameters.
-/

namespace PathSegments

open TextSplit

universe u

variable {α : Type u} [DecidableEq α]

/-! ## Resolution -/

/-- Resolution keeps the segments of the way down from the root. -/
def enter (here up : List α) (stack : List (List α)) (seg : List α) : List (List α) :=
  if seg = [] ∨ seg = here then stack
  else if seg = up then stack.dropLast
  else stack ++ [seg]

def resolve (here up : List α) (segs : List (List α)) : List (List α) :=
  segs.foldl (enter here up) []

/-- A segment that names something. -/
def Plain (here up seg : List α) : Prop := seg ≠ [] ∧ seg ≠ here ∧ seg ≠ up

theorem enter_plain {here up seg : List α} (plain : Plain here up seg) (stack : List (List α)) :
    enter here up stack seg = stack ++ [seg] := by
  obtain ⟨filled, notHere, notUp⟩ := plain
  simp [enter, filled, notHere, notUp]

theorem resolve_snoc (here up : List α) (segs : List (List α)) (seg : List α) :
    resolve here up (segs ++ [seg]) = enter here up (resolve here up segs) seg := by
  rw [resolve, List.foldl_append]
  rfl

theorem mem_resolve {here up seg : List α} {segs : List (List α)}
    (listed : seg ∈ resolve here up segs) : Plain here up seg ∧ seg ∈ segs := by
  induction segs using List.reverseRecOn with
  | nil => cases listed
  | append_singleton segs last ih =>
    rw [resolve_snoc, enter] at listed
    split at listed
    · obtain ⟨plain, earlier⟩ := ih listed
      exact ⟨plain, List.mem_append_left _ earlier⟩
    · rename_i notSkipped
      split at listed
      · obtain ⟨plain, earlier⟩ := ih (List.mem_of_mem_dropLast listed)
        exact ⟨plain, List.mem_append_left _ earlier⟩
      · rename_i notUp
        rcases List.mem_append.mp listed with earlier | added
        · obtain ⟨plain, earlier⟩ := ih earlier
          exact ⟨plain, List.mem_append_left _ earlier⟩
        · have same := List.mem_singleton.mp added
          subst same
          rw [not_or] at notSkipped
          exact ⟨⟨notSkipped.1, notSkipped.2, notUp⟩, List.mem_append_right _ added⟩

theorem resolve_plain {here up : List α} {segs : List (List α)}
    (plain : ∀ seg ∈ segs, Plain here up seg) : resolve here up segs = segs := by
  induction segs using List.reverseRecOn with
  | nil => rfl
  | append_singleton segs last ih =>
    rw [resolve_snoc, ih fun seg listed => plain seg (List.mem_append_left _ listed)]
    exact enter_plain (plain last (List.mem_append_right _ (List.mem_singleton_self last))) segs

/-- Without a segment that goes up, resolution only goes down. -/
theorem prefix_foldl_enter {here up : List α} {segs : List (List α)} (within : up ∉ segs)
    (stack : List (List α)) : stack <+: segs.foldl (enter here up) stack := by
  induction segs generalizing stack with
  | nil => exact List.prefix_refl stack
  | cons seg segs ih =>
    obtain ⟨different, rest⟩ := not_or.mp (mt List.mem_cons.mpr within)
    have deeper : stack <+: enter here up stack seg := by
      rw [enter, if_neg (Ne.symm different)]
      split
      · exact List.prefix_refl stack
      · exact List.prefix_append stack [seg]
    exact deeper.trans (ih rest _)

theorem resolve_empty_last (here up : List α) (segs : List (List α)) :
    resolve here up (segs ++ [[]]) = resolve here up segs := by
  rw [resolve_snoc, enter, if_pos (Or.inl rfl)]

theorem resolve_empty_first (here up : List α) (segs : List (List α)) :
    resolve here up ([] :: segs) = resolve here up segs := by
  rw [resolve, List.foldl_cons, enter, if_pos (Or.inl rfl)]
  rfl

/-! ## Rooted paths -/

/-- Every segment with a separator before it; the root itself is the empty text. -/
def rooted (sep : α) (segs : List (List α)) : List α := segs.flatMap (sep :: ·)

omit [DecidableEq α] in
theorem rooted_cons (sep : α) (seg : List α) (segs : List (List α)) :
    rooted sep (seg :: segs) = sep :: (seg ++ rooted sep segs) := rfl

omit [DecidableEq α] in
theorem rooted_join (sep : α) {segs : List (List α)} (filled : segs ≠ []) :
    sep :: [sep].intercalate segs = rooted sep segs := by
  induction segs with
  | nil => exact absurd rfl filled
  | cons seg segs ih =>
    cases segs with
    | nil => simp [rooted]
    | cons next rest =>
      rw [rooted_cons, ← ih (List.cons_ne_nil next rest)]
      simp

theorem splitOn_rooted {sep : α} {segs : List (List α)} (within : ∀ seg ∈ segs, sep ∉ seg) :
    (rooted sep segs).splitOn sep = [] :: segs := by
  cases segs with
  | nil => rfl
  | cons seg segs =>
    have joined := List.splitOn_intercalate sep within (List.cons_ne_nil seg segs)
    rw [← rooted_join sep (List.cons_ne_nil seg segs)]
    have cut := List.splitOn_append_cons_self_of_not_mem (List.not_mem_nil (a := sep))
      ([sep].intercalate (seg :: segs))
    rw [List.nil_append, joined] at cut
    exact cut

/-- The text ends, or a new segment starts. -/
def Boundary (sep : α) (rest : List α) : Prop := rest = [] ∨ rest.head? = some sep

omit [DecidableEq α] in
theorem rooted_boundary (sep : α) (segs : List (List α)) : Boundary sep (rooted sep segs) := by
  cases segs with
  | nil => exact .inl rfl
  | cons seg segs => exact .inr rfl

omit [DecidableEq α] in
/-- A rooted path can be cut at a boundary only after some of its segments. -/
theorem rooted_cut {sep : α} {segs : List (List α)} (within : ∀ seg ∈ segs, sep ∉ seg)
    {text rest : List α} (cut : rooted sep segs = text ++ rest) (boundary : Boundary sep rest) :
    ∃ init, init <+: segs ∧ text = rooted sep init := by
  induction segs generalizing text with
  | nil =>
    have empty := List.append_eq_nil_iff.mp cut.symm
    exact ⟨[], List.nil_prefix, empty.1⟩
  | cons seg segs ih =>
    cases text with
    | nil => exact ⟨[], List.nil_prefix, rfl⟩
    | cons c text =>
      rw [rooted_cons, List.cons_append] at cut
      obtain rfl := (List.cons.inj cut).1
      rcases List.append_eq_append_iff.mp (List.cons.inj cut).2 with
        ⟨more, rfl, later⟩ | ⟨left, rfl, rfl⟩
      · obtain ⟨init, inside, rfl⟩ :=
          ih (fun s listed => within s (List.mem_cons_of_mem seg listed)) later
        exact ⟨seg :: init, List.cons_prefix_cons.mpr ⟨rfl, inside⟩, rfl⟩
      · have whole : left = [] := by
          rcases boundary with empty | starts
          · exact (List.append_eq_nil_iff.mp empty).1
          · cases left with
            | nil => rfl
            | cons a left =>
              cases starts
              exact absurd (List.mem_append_right text List.mem_cons_self)
                (within _ List.mem_cons_self)
        subst whole
        exact ⟨[text], by simp, by simp [rooted]⟩

/-! ## Trailing separators -/

theorem resolve_splitOn_trimEnd (here up : List α) (sep : α) (text : List α) :
    resolve here up ((trimEnd sep text).splitOn sep) = resolve here up (text.splitOn sep) := by
  induction text using List.reverseRecOn with
  | nil => rfl
  | append_singleton text a ih =>
    rw [trimEnd_snoc]
    split
    · rename_i same
      subst same
      rw [ih, List.splitOn_append_cons_self, List.splitOn_nil, resolve_empty_last]
    · rfl

theorem resolve_splitOn_rooted {here up : List α} {sep : α} {segs : List (List α)}
    (within : ∀ seg ∈ segs, sep ∉ seg) (plain : ∀ seg ∈ segs, Plain here up seg) :
    resolve here up ((rooted sep segs).splitOn sep) = segs := by
  rw [splitOn_rooted within, resolve_empty_first, resolve_plain plain]

end PathSegments
