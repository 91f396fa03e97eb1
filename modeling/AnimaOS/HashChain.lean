import Mathlib.Data.List.Basic
import Mathlib.Data.List.Induction

/-!
# Chained authentication codes

Each code of a chain is computed from the code before it and the next item, so
it stands for the whole sequence up to that item.
-/

namespace HashChain

universe u v

variable {μ : Type u} {α : Type v}

/-- The codes of a sequence of items, from the code that comes before them. -/
def codes (f : μ → α → μ) (prev : μ) : List α → List μ
  | [] => []
  | a :: rest => f prev a :: codes f (f prev a) rest

theorem codes_length (f : μ → α → μ) (prev : μ) (items : List α) :
    (codes f prev items).length = items.length := by
  induction items generalizing prev with
  | nil => rfl
  | cons a rest ih => exact congrArg (· + 1) (ih (f prev a))

theorem codes_snoc (f : μ → α → μ) (prev : μ) (items : List α) (a : α) :
    codes f prev (items ++ [a]) = codes f prev items ++ [f (items.foldl f prev) a] := by
  induction items generalizing prev with
  | nil => rfl
  | cons b rest ih => exact congrArg (f prev b :: ·) (ih (f prev b))

theorem codes_getLast (f : μ → α → μ) (prev : μ) (items : List α) :
    (codes f prev items).getLast?.getD prev = items.foldl f prev := by
  rcases List.eq_nil_or_concat items with rfl | ⟨init, last, rfl⟩
  · rfl
  · rw [List.concat_eq_append, codes_snoc, List.getLast?_concat, List.foldl_append]
    rfl

/-! ## Codes that are used again -/

/-- What the function is applied to along a sequence of items. -/
def inputs (f : μ → α → μ) (prev : μ) : List α → List (μ × α)
  | [] => []
  | a :: rest => (prev, a) :: inputs f (f prev a) rest

theorem codes_eq_map (f : μ → α → μ) (prev : μ) (items : List α) :
    codes f prev items = (inputs f prev items).map (Function.uncurry f) := by
  induction items generalizing prev with
  | nil => rfl
  | cons a rest ih => exact congrArg (f prev a :: ·) (ih (f prev a))

theorem mem_inputs {f : μ → α → μ} {prev m : μ} {a : α} {items : List α} :
    (m, a) ∈ inputs f prev items ↔ ∃ init, init ++ [a] <+: items ∧ init.foldl f prev = m := by
  induction items generalizing prev with
  | nil =>
    constructor
    · intro listed
      cases listed
    · rintro ⟨init, inside, -⟩
      exact absurd (List.prefix_nil.mp inside) (List.append_ne_nil_of_right_ne_nil init (by simp))
  | cons b rest ih =>
    simp only [inputs, List.mem_cons, Prod.mk.injEq, ih]
    constructor
    · rintro (⟨rfl, rfl⟩ | ⟨init, inside, folded⟩)
      · exact ⟨[], by simp, rfl⟩
      · exact ⟨b :: init, by simpa using inside, folded⟩
    · rintro ⟨init, inside, folded⟩
      cases init with
      | nil =>
        left
        simp only [List.nil_append, List.cons_prefix_cons] at inside
        exact ⟨folded.symm, inside.1⟩
      | cons c init =>
        simp only [List.cons_append, List.cons_prefix_cons] at inside
        obtain ⟨rfl, inside⟩ := inside
        exact .inr ⟨init, inside, folded⟩

theorem mem_codes {f : μ → α → μ} {prev m : μ} {items : List α} :
    m ∈ codes f prev items ↔ ∃ init a, init ++ [a] <+: items ∧ f (init.foldl f prev) a = m := by
  rw [codes_eq_map, List.mem_map]
  constructor
  · rintro ⟨⟨m, a⟩, listed, rfl⟩
    obtain ⟨init, inside, rfl⟩ := mem_inputs.mp listed
    exact ⟨init, a, inside, rfl⟩
  · rintro ⟨init, a, inside, rfl⟩
    exact ⟨(init.foldl f prev, a), mem_inputs.mpr ⟨init, inside, rfl⟩, rfl⟩

/-- No two of the inputs along either sequence share a code, and the start is no code. -/
structure Ideal (f : μ → α → μ) (start : μ) (xs ys : List α) : Prop where
  injective : ∀ p ∈ inputs f start xs ++ inputs f start ys,
    ∀ q ∈ inputs f start xs ++ inputs f start ys, f p.1 p.2 = f q.1 q.2 → p = q
  fresh : start ∉ codes f start xs

theorem Ideal.foldl_injective {f : μ → α → μ} {start : μ} {xs ys : List α}
    (ideal : Ideal f start xs ys) {init other : List α} (inside : init <+: xs)
    (inside' : other <+: xs) (same : init.foldl f start = other.foldl f start) : init = other := by
  induction init using List.reverseRecOn generalizing other with
  | nil =>
    rcases List.eq_nil_or_concat other with rfl | ⟨before, b, rfl⟩
    · rfl
    · rw [List.concat_eq_append, List.foldl_append] at same
      rw [List.concat_eq_append] at inside'
      exact absurd (mem_codes.mpr ⟨before, b, inside', same.symm⟩) ideal.fresh
  | append_singleton earlier a ih =>
    rw [List.foldl_append] at same
    rcases List.eq_nil_or_concat other with rfl | ⟨before, b, rfl⟩
    · exact absurd (mem_codes.mpr ⟨earlier, a, inside, same⟩) ideal.fresh
    · rw [List.concat_eq_append] at inside' ⊢
      rw [List.concat_eq_append, List.foldl_append] at same
      have inputs : (earlier.foldl f start, a) = (before.foldl f start, b) :=
        ideal.injective _ (List.mem_append_left _ (mem_inputs.mpr ⟨earlier, inside, rfl⟩))
          _ (List.mem_append_left _ (mem_inputs.mpr ⟨before, inside', rfl⟩)) same
      obtain ⟨folded, rfl⟩ := Prod.mk.inj inputs
      rw [ih ((List.prefix_append earlier [a]).trans inside)
        ((List.prefix_append before [a]).trans inside') folded]

/-- A sequence whose codes are all codes of another is an initial part of it. -/
theorem Ideal.isPrefix {f : μ → α → μ} {start : μ} {xs ys : List α} (ideal : Ideal f start xs ys)
    (reused : ∀ m ∈ codes f start ys, m ∈ codes f start xs) : ys <+: xs := by
  suffices every : ∀ init, init <+: ys → init <+: xs from every ys (List.prefix_refl ys)
  intro init
  induction init using List.reverseRecOn with
  | nil => exact fun _ => List.nil_prefix
  | append_singleton earlier a ih =>
    intro inside
    have before := ih ((List.prefix_append earlier [a]).trans inside)
    obtain ⟨other, b, inside', same⟩ :=
      mem_codes.mp (reused _ (mem_codes.mpr ⟨earlier, a, inside, rfl⟩))
    have inputs : (other.foldl f start, b) = (earlier.foldl f start, a) :=
      ideal.injective _ (List.mem_append_left _ (mem_inputs.mpr ⟨other, inside', rfl⟩))
        _ (List.mem_append_right _ (mem_inputs.mpr ⟨earlier, inside, rfl⟩)) same
    obtain ⟨folded, rfl⟩ := Prod.mk.inj inputs
    -- the code before the last one tells where in `xs` the sequence has got to
    have whole := (List.prefix_append other [b]).trans inside'
    have position := ideal.foldl_injective whole before folded
    rwa [position] at inside'

theorem codes_take (f : μ → α → μ) (prev : μ) (k : Nat) (items : List α) :
    codes f prev (items.take k) = (codes f prev items).take k := by
  induction items generalizing prev k with
  | nil => rw [List.take_nil, codes, List.take_nil]
  | cons a rest ih =>
    cases k with
    | zero => rfl
    | succ k => exact congrArg (f prev a :: ·) (ih (f prev a) k)

/-! ## Telling sequences apart -/

/-- A code that looks at the item alone. -/
theorem codes_local (g : α → μ) (prev : μ) (items : List α) :
    codes (fun _ a => g a) prev items = items.map g := by
  induction items generalizing prev with
  | nil => rfl
  | cons a rest ih => exact congrArg (g a :: ·) (ih (g a))

/-- The code that tells one item from all others. -/
def mark [DecidableEq α] (marked unmarked : μ) (item a : α) : μ :=
  if a = item then marked else unmarked

theorem map_mark_injective [DecidableEq α] {marked unmarked : μ} (different : marked ≠ unmarked)
    {xs ys : List α}
    (same : ∀ a, xs.map (mark marked unmarked a) = ys.map (mark marked unmarked a)) : xs = ys := by
  induction xs generalizing ys with
  | nil =>
    cases ys with
    | nil => rfl
    | cons y ys => cases same y
  | cons x xs ih =>
    cases ys with
    | nil => cases same x
    | cons y ys =>
      have first : mark marked unmarked x x = mark marked unmarked x y :=
        (List.cons.inj (same x)).1
      have equal : y = x := by
        by_cases equal : y = x
        · exact equal
        · rw [mark, mark, if_pos rfl, if_neg equal] at first
          exact absurd first different
      have rest : xs = ys := ih fun a => (List.cons.inj (same a)).2
      rw [equal, rest]

/-- Two sequences with the same codes under every function are the same sequence. -/
theorem codes_separate [DecidableEq α] {marked unmarked prev : μ} (different : marked ≠ unmarked)
    {xs ys : List α} (same : ∀ f : μ → α → μ, codes f prev xs = codes f prev ys) : xs = ys := by
  apply map_mark_injective different
  intro a
  have agreed := same fun _ x => mark marked unmarked a x
  rwa [codes_local, codes_local] at agreed

end HashChain
