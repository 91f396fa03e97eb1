import Mathlib.Data.List.Basic

/-!
# The last of the greatest

`Iterator::max_by` over any comparison: a later item replaces the one held
unless the one held compares greater.
-/

namespace LastMax

universe u

variable {α : Type u}

def later (cmp : α → α → Ordering) (held a : α) : α := if cmp held a = .gt then held else a

def maxBy (cmp : α → α → Ordering) : List α → Option α
  | [] => none
  | a :: rest => some (rest.foldl (later cmp) a)

/-- An item of the list that no item of the list exceeds. -/
def Greatest (cmp : α → α → Ordering) (items : List α) (m : α) : Prop :=
  m ∈ items ∧ ∀ a ∈ items, (cmp a m).isLE

variable {cmp : α → α → Ordering} [Std.TransCmp cmp]

theorem later_cases (held a : α) :
    (later cmp held a = held ∨ later cmp held a = a) ∧
      (cmp held (later cmp held a)).isLE ∧ (cmp a (later cmp held a)).isLE := by
  by_cases exceeds : cmp held a = .gt
  · have kept : later cmp held a = held := if_pos exceeds
    rw [kept]
    have below : cmp a held = .lt := Std.OrientedCmp.gt_iff_lt.mp exceeds
    exact ⟨Or.inl rfl, Std.ReflCmp.isLE_rfl, Ordering.isLE_of_eq_lt below⟩
  · have replaced : later cmp held a = a := if_neg exceeds
    rw [replaced]
    exact ⟨Or.inr rfl, Ordering.isLE_iff_ne_gt.mpr exceeds, Std.ReflCmp.isLE_rfl⟩

/-- The item held at the end exceeds, or ties with, every item that was held or seen. -/
theorem greatest_foldl (held : α) (rest : List α) :
    Greatest cmp (held :: rest) (rest.foldl (later cmp) held) := by
  induction rest generalizing held with
  | nil =>
    refine ⟨List.mem_cons_self, fun a listed => ?_⟩
    rw [List.mem_singleton.mp listed]
    exact Std.ReflCmp.isLE_rfl
  | cons b rest ih =>
    obtain ⟨member, greatest⟩ := ih (later cmp held b)
    obtain ⟨chosen, above_held, above_b⟩ := @later_cases α cmp _ held b
    have top := greatest _ List.mem_cons_self
    constructor
    · rcases List.mem_cons.mp member with here | further
      · rw [List.foldl_cons, here]
        rcases chosen with same | same
        · rw [same]
          exact List.mem_cons_self
        · rw [same]
          exact List.mem_cons_of_mem held List.mem_cons_self
      · exact List.mem_cons_of_mem held (List.mem_cons_of_mem b further)
    · intro a listed
      rcases List.mem_cons.mp listed with rfl | listed
      · exact Std.TransCmp.isLE_trans above_held top
      · rcases List.mem_cons.mp listed with rfl | further
        · exact Std.TransCmp.isLE_trans above_b top
        · exact greatest a (List.mem_cons_of_mem _ further)

theorem maxBy_greatest {items : List α} {m : α} (found : maxBy cmp items = some m) :
    Greatest cmp items m := by
  cases items with
  | nil => cases found
  | cons a rest =>
    cases found
    exact greatest_foldl a rest

omit [Std.TransCmp cmp] in
theorem maxBy_some {items : List α} {a : α} (member : a ∈ items) :
    ∃ m, maxBy cmp items = some m := by
  cases items with
  | nil => cases member
  | cons b rest => exact ⟨_, rfl⟩

end LastMax
