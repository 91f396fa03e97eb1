import Mathlib

/-!
# Totals kept for the largest keys

Amounts are added up under their keys in a list sorted by key, and after each
addition the smallest keys beyond a bound are dropped. However the records arrive,
what is left are the full totals of the largest keys.
-/

namespace PrunedTotals

universe u v

variable {K : Type u} {V : Type v}

/-! ## Dropping -/

/-- Drops the smallest keys while there are more than `n`. -/
def prune (n : Nat) : List (K × V) → List (K × V)
  | [] => []
  | e :: rest => if n < (e :: rest).length then prune n rest else e :: rest

theorem prune_short {n : Nat} {l : List (K × V)} (short : l.length ≤ n) : prune n l = l := by
  cases l with
  | nil => rfl
  | cons e rest => exact if_neg (Nat.not_lt.mpr short)

theorem prune_cons {n : Nat} {rest : List (K × V)} (long : n ≤ rest.length) (e : K × V) :
    prune n (e :: rest) = prune n rest :=
  if_pos (Nat.lt_succ_of_le long)

theorem prune_sublist (n : Nat) (l : List (K × V)) : (prune n l).Sublist l := by
  induction l with
  | nil => exact List.Sublist.refl []
  | cons e rest ih =>
    rw [prune]
    split
    · exact ih.cons e
    · exact List.Sublist.refl _

variable [LinearOrder K]

abbrev Sorted (l : List (K × V)) : Prop := l.Pairwise fun a b => a.1 < b.1

def find (k : K) : List (K × V) → Option V
  | [] => none
  | e :: rest => if e.1 = k then some e.2 else find k rest

section Adding

variable [AddCommMonoid V]

/-- Adds to the entry of a key, which begins as zero. -/
def addAt (k : K) (v : V) : List (K × V) → List (K × V)
  | [] => [(k, 0 + v)]
  | e :: rest =>
    if k < e.1 then (k, 0 + v) :: e :: rest
    else if k = e.1 then (k, e.2 + v) :: rest
    else e :: addAt k v rest

/-- Every record added and the smallest keys dropped, record by record. -/
def accumulate (n : Nat) (records : List (K × V)) : List (K × V) :=
  records.foldl (fun l record => prune n (addAt record.1 record.2 l)) []

/-- The sum of a key's amounts over all records. -/
def total (records : List (K × V)) (k : K) : V :=
  ((records.filter fun record => record.1 = k).map Prod.snd).sum

end Adding

/-- How many distinct keys beyond `k` were recorded. -/
def later (records : List (K × V)) (k : K) : Nat :=
  ((records.map Prod.fst).toFinset.filter fun key => k < key).card

/-! ## Sorted lists -/

theorem find_below {l : List (K × V)} {k : K} (below : ∀ e ∈ l, k < e.1) : find k l = none := by
  induction l with
  | nil => rfl
  | cons e rest ih =>
    have apart : e.1 ≠ k := ne_of_gt (below e List.mem_cons_self)
    rw [find, if_neg apart]
    exact ih fun e' listed => below e' (List.mem_cons_of_mem _ listed)

theorem find_before_head {e : K × V} {rest : List (K × V)} (sorted : Sorted (e :: rest)) {k : K}
    (before : k < e.1) : find k (e :: rest) = none := by
  apply find_below
  rintro x (_ | ⟨_, listed⟩)
  · exact before
  · exact before.trans ((List.pairwise_cons.mp sorted).1 x listed)

theorem head_le {e : K × V} {rest : List (K × V)} (sorted : Sorted (e :: rest)) {k : K} {v : V}
    (found : find k (e :: rest) = some v) : e.1 ≤ k := by
  by_contra before
  rw [find_before_head sorted (not_le.mp before)] at found
  cases found

theorem find_eq_none {l : List (K × V)} {k : K} : find k l = none ↔ k ∉ l.map Prod.fst := by
  induction l with
  | nil => simp [find]
  | cons e rest ih =>
    rw [find]
    split
    · rename_i same
      simp [same]
    · rename_i apart
      simp [ih, Ne.symm apart]

/-- A sorted list is known by what is found in it. -/
theorem sorted_ext {l l' : List (K × V)} (sorted : Sorted l) (sorted' : Sorted l')
    (same : ∀ k, find k l = find k l') : l = l' := by
  induction l generalizing l' with
  | nil =>
    cases l' with
    | nil => rfl
    | cons e' rest' =>
      have found := same e'.1
      rw [find, find, if_pos rfl] at found
      cases found
  | cons e rest ih =>
    have here := same e.1
    rw [find, if_pos rfl] at here
    cases l' with
    | nil => cases here
    | cons e' rest' =>
      have there := same e'.1
      rw [find.eq_2 e'.1 e' rest', if_pos rfl] at there
      have keys : e.1 = e'.1 := le_antisymm (head_le sorted there) (head_le sorted' here.symm)
      obtain ⟨below, sorted⟩ := List.pairwise_cons.mp sorted
      obtain ⟨below', sorted'⟩ := List.pairwise_cons.mp sorted'
      rw [find, if_pos keys.symm] at here
      have entry : e = e' := Prod.ext keys (Option.some.inj here)
      have tails : rest = rest' := by
        apply ih sorted sorted'
        intro k
        by_cases first : e.1 = k
        · rw [find_below fun x listed => first ▸ below x listed,
            find_below fun x listed => first ▸ keys ▸ below' x listed]
        · have found := same k
          rw [find, find, if_neg first, if_neg (entry ▸ first)] at found
          exact found
      rw [entry, tails]

/-! ## Keeping the largest -/

theorem prune_sorted {n : Nat} {l : List (K × V)} (sorted : Sorted l) : Sorted (prune n l) :=
  sorted.sublist (prune_sublist n l)

/-- A key stays just when fewer than `n` keys lie beyond it. -/
theorem find_prune {n : Nat} {l : List (K × V)} (sorted : Sorted l) (k : K) :
    find k (prune n l) =
      if (l.filter fun e => k < e.1).length < n then find k l else none := by
  induction l with
  | nil => simp only [prune, find, ite_self]
  | cons e rest ih =>
    have whole := sorted
    obtain ⟨below, sorted⟩ := List.pairwise_cons.mp sorted
    obtain short | long := Nat.lt_or_ge rest.length n
    · have kept : ((e :: rest).filter fun e => k < e.1).length < n ∨ k < e.1 := by
        by_cases beyond : k < e.1
        · exact .inr beyond
        · have shorter := List.length_filter_le (fun e => decide (k < e.1)) rest
          rw [List.filter_cons_of_neg (by simpa using beyond)]
          exact .inl (by omega)
      rw [prune_short (by simp only [List.length_cons]; omega)]
      obtain kept | beyond := kept
      · rw [if_pos kept]
      · rw [find_before_head whole beyond, ite_self]
    · rw [prune_cons long, ih sorted]
      by_cases first : k ≤ e.1
      · have all : rest.filter (fun e => k < e.1) = rest := by
          apply List.filter_eq_self.mpr
          intro x listed
          simpa using first.trans_lt (below x listed)
        have many : ¬ ((e :: rest).filter fun e => k < e.1).length < n := by
          have more := List.Sublist.length_le
            ((List.sublist_cons_self e rest).filter fun e => decide (k < e.1))
          rw [all] at more
          omega
        rw [all, if_neg (by omega), if_neg many]
      · have apart : e.1 ≠ k := fun same => first same.ge
        have before : ¬ k < e.1 := fun beyond => first beyond.le
        rw [List.filter_cons_of_neg (by simpa using before), find, if_neg apart]

theorem later_perm {records others : List (K × V)} (perm : records.Perm others) (k : K) :
    later records k = later others k := by
  rw [later, later, List.toFinset_eq_of_perm _ _ (perm.map Prod.fst)]

theorem later_mono (records more : List (K × V)) (k : K) :
    later records k ≤ later (records ++ more) k := by
  apply Finset.card_le_card
  apply Finset.filter_subset_filter
  intro key recorded
  rw [List.mem_toFinset] at recorded ⊢
  rw [List.map_append]
  exact List.mem_append_left _ recorded

/-! ## Adding -/

section Adding

variable [AddCommMonoid V]

theorem mem_addAt {k : K} {v : V} {l : List (K × V)} {e : K × V} (listed : e ∈ addAt k v l) :
    e.1 = k ∨ e ∈ l := by
  induction l with
  | nil => exact .inl (congrArg Prod.fst (List.mem_singleton.mp listed))
  | cons x rest ih =>
    rw [addAt] at listed
    split at listed
    · obtain _ | ⟨_, listed⟩ := listed
      · exact .inl rfl
      · exact .inr listed
    · split at listed
      · obtain _ | ⟨_, listed⟩ := listed
        · exact .inl rfl
        · exact .inr (List.mem_cons_of_mem x listed)
      · obtain _ | ⟨_, listed⟩ := listed
        · exact .inr List.mem_cons_self
        · exact (ih listed).imp_right (List.mem_cons_of_mem x)

theorem addAt_sorted {k : K} {v : V} {l : List (K × V)} (sorted : Sorted l) :
    Sorted (addAt k v l) := by
  induction l with
  | nil => exact List.pairwise_singleton _ _
  | cons e rest ih =>
    obtain ⟨below, sorted_rest⟩ := List.pairwise_cons.mp sorted
    rw [addAt]
    split
    · rename_i less
      refine List.pairwise_cons.mpr ⟨?_, sorted⟩
      rintro x (_ | ⟨_, listed⟩)
      · exact less
      · exact less.trans (below x listed)
    · rename_i not_less
      split
      · rename_i same
        exact List.pairwise_cons.mpr ⟨fun x listed => same ▸ below x listed, sorted_rest⟩
      · rename_i apart
        refine List.pairwise_cons.mpr ⟨?_, ih sorted_rest⟩
        intro x listed
        obtain added | old := mem_addAt listed
        · exact added ▸ lt_of_le_of_ne (not_lt.mp not_less) (Ne.symm apart)
        · exact below x old

theorem find_addAt {k : K} {v : V} {l : List (K × V)} (sorted : Sorted l) (key : K) :
    find key (addAt k v l) =
      if key = k then some ((find k l).getD 0 + v) else find key l := by
  induction l with
  | nil => simp [addAt, find, eq_comm]
  | cons e rest ih =>
    obtain ⟨below, sorted_rest⟩ := List.pairwise_cons.mp sorted
    rw [addAt]
    split
    · rename_i less
      rw [find_before_head sorted less, find]
      simp [eq_comm]
    · split
      · rename_i same
        subst same
        by_cases here : key = e.1
        · simp [find, here]
        · simp [find, here, Ne.symm here]
      · rename_i apart
        rw [find, find.eq_2 key e rest, ih sorted_rest, find, if_neg (Ne.symm apart)]
        by_cases here : e.1 = key
        · have other : key ≠ k := fun same => apart (same ▸ here.symm)
          rw [if_pos here, if_pos here, if_neg other]
        · rw [if_neg here, if_neg here]

theorem addAt_length (k : K) (v : V) (l : List (K × V)) : l.length ≤ (addAt k v l).length := by
  induction l with
  | nil => exact Nat.zero_le _
  | cons e rest ih =>
    rw [addAt]
    split
    · simp
    · split
      · simp
      · simp only [List.length_cons]
        omega

theorem addAt_below {k : K} {v : V} {l : List (K × V)} (below : ∀ e ∈ l, k < e.1) :
    addAt k v l = (k, 0 + v) :: l := by
  cases l with
  | nil => rfl
  | cons e rest => exact if_pos (below e List.mem_cons_self)

/-- What was dropped before an addition would be dropped after it. -/
theorem prune_addAt {n : Nat} {l : List (K × V)} (sorted : Sorted l) (k : K) (v : V) :
    prune n (addAt k v (prune n l)) = prune n (addAt k v l) := by
  induction l with
  | nil => rfl
  | cons e rest ih =>
    obtain ⟨below, sorted⟩ := List.pairwise_cons.mp sorted
    obtain short | long := Nat.lt_or_ge rest.length n
    · rw [prune_short (show (e :: rest).length ≤ n from short)]
    · -- the first entry is dropped, and the addition lands at it, before it or behind it
      rw [prune_cons long, ih sorted, addAt]
      split
      · rename_i less
        have before : ∀ x ∈ rest, k < x.1 := fun x listed => less.trans (below x listed)
        rw [addAt_below before, prune_cons long,
          prune_cons (show n ≤ (e :: rest).length from Nat.le_succ_of_le long), prune_cons long]
      · split
        · rename_i same
          have before : ∀ x ∈ rest, k < x.1 := fun x listed => same ▸ below x listed
          rw [addAt_below before, prune_cons long, prune_cons long]
        · rw [prune_cons (long.trans (addAt_length k v rest))]

/-! ## Every record -/

/-- All records added and none dropped. -/
def full (records : List (K × V)) : List (K × V) :=
  records.foldl (fun l record => addAt record.1 record.2 l) []

theorem full_append (records : List (K × V)) (record : K × V) :
    full (records ++ [record]) = addAt record.1 record.2 (full records) := by
  rw [full, List.foldl_append]
  rfl

theorem accumulate_append (n : Nat) (records : List (K × V)) (record : K × V) :
    accumulate n (records ++ [record]) =
      prune n (addAt record.1 record.2 (accumulate n records)) := by
  rw [accumulate, List.foldl_append]
  rfl

theorem full_sorted (records : List (K × V)) : Sorted (full records) := by
  induction records using List.reverseRecOn with
  | nil => exact List.Pairwise.nil
  | append_singleton records record ih =>
    rw [full_append]
    exact addAt_sorted ih

theorem accumulate_eq (n : Nat) (records : List (K × V)) :
    accumulate n records = prune n (full records) := by
  induction records using List.reverseRecOn with
  | nil => rfl
  | append_singleton records record ih =>
    rw [accumulate_append, full_append, ih]
    exact prune_addAt (full_sorted records) record.1 record.2

theorem total_append (records more : List (K × V)) (k : K) :
    total (records ++ more) k = total records k + total more k := by
  simp [total]

theorem total_single (record : K × V) (k : K) :
    total [record] k = if record.1 = k then record.2 else 0 := by
  by_cases same : record.1 = k
  · simp [total, same]
  · simp [total, same]

theorem total_unrecorded {records : List (K × V)} {k : K} (absent : k ∉ records.map Prod.fst) :
    total records k = 0 := by
  have none_listed : records.filter (fun record => record.1 = k) = [] := by
    apply List.filter_eq_nil_iff.mpr
    intro record listed same
    exact absent (of_decide_eq_true same ▸ List.mem_map_of_mem listed)
  rw [total, none_listed]
  rfl

theorem find_full (records : List (K × V)) (k : K) :
    find k (full records) =
      if k ∈ records.map Prod.fst then some (total records k) else none := by
  induction records using List.reverseRecOn with
  | nil => rfl
  | append_singleton records record ih =>
    rw [full_append, find_addAt (full_sorted records), total_append, total_single,
      List.map_append]
    by_cases same : k = record.1
    · subst same
      rw [if_pos rfl, if_pos rfl, if_pos (by simp), ih]
      split
      · rfl
      · rename_i absent
        rw [total_unrecorded absent]
        rfl
    · have kept : k ∈ records.map Prod.fst ++ [record].map Prod.fst ↔
          k ∈ records.map Prod.fst := by
        simp [same]
      rw [if_neg same, if_neg (Ne.symm same), ih, add_zero]
      exact if_congr kept.symm rfl rfl

theorem full_later (records : List (K × V)) (k : K) :
    ((full records).filter fun e => k < e.1).length = later records k := by
  have distinct : ((full records).map Prod.fst).Nodup :=
    List.pairwise_map.mpr ((full_sorted records).imp ne_of_lt)
  have keys : ((full records).map Prod.fst).toFinset = (records.map Prod.fst).toFinset := by
    ext key
    have none_iff := find_full records key
    rw [List.mem_toFinset, List.mem_toFinset]
    by_cases recorded : key ∈ records.map Prod.fst
    · rw [if_pos recorded] at none_iff
      refine iff_of_true ?_ recorded
      by_contra absent
      rw [find_eq_none.mpr absent] at none_iff
      cases none_iff
    · rw [if_neg recorded] at none_iff
      exact iff_of_false (find_eq_none.mp none_iff) recorded
  rw [later, ← keys, List.filter_toFinset, List.toFinset_card_of_nodup (distinct.filter _),
    List.filter_map, List.length_map]
  rfl

/-- What is left are the full totals of the `n` largest keys. -/
theorem find_accumulate (n : Nat) (records : List (K × V)) (k : K) :
    find k (accumulate n records) =
      if k ∈ records.map Prod.fst ∧ later records k < n then some (total records k) else none := by
  rw [accumulate_eq, find_prune (full_sorted records), full_later, find_full]
  by_cases recorded : k ∈ records.map Prod.fst
  · simp [recorded]
  · simp [recorded]

theorem accumulate_sorted (n : Nat) (records : List (K × V)) : Sorted (accumulate n records) := by
  rw [accumulate_eq]
  exact prune_sorted (full_sorted records)

theorem total_perm {records others : List (K × V)} (perm : records.Perm others) (k : K) :
    total records k = total others k :=
  ((perm.filter _).map _).sum_eq

/-- The order of the records does not matter. -/
theorem accumulate_perm (n : Nat) {records others : List (K × V)} (perm : records.Perm others) :
    accumulate n records = accumulate n others := by
  apply sorted_ext (accumulate_sorted n records) (accumulate_sorted n others)
  intro k
  have keys : k ∈ records.map Prod.fst ↔ k ∈ others.map Prod.fst := (perm.map Prod.fst).mem_iff
  rw [find_accumulate, find_accumulate, later_perm perm, total_perm perm]
  exact if_congr (and_congr_left' keys) rfl rfl

end Adding

end PrunedTotals
