import Mathlib.Data.List.Nodup

/-!
# Lists of keyed entries

Entries are pairs read by their first component, as an ordered map with
explicit positions keeps them. Removal and replacement touch one position, so
the results below need distinct keys only where a key is to be found once.
-/

namespace KeyedList

universe u v

variable {K : Type u} {V : Type v}

def keys (l : List (K × V)) : List K := l.map Prod.fst

@[simp] theorem keys_nil : keys ([] : List (K × V)) = [] := rfl

@[simp] theorem keys_cons (e : K × V) (l : List (K × V)) : keys (e :: l) = e.1 :: keys l := rfl

@[simp] theorem keys_append (xs ys : List (K × V)) : keys (xs ++ ys) = keys xs ++ keys ys :=
  List.map_append

@[simp] theorem keys_length (l : List (K × V)) : (keys l).length = l.length :=
  List.length_map _

@[simp] theorem keys_reverse (l : List (K × V)) : keys l.reverse = (keys l).reverse :=
  List.map_reverse

theorem mem_keys {l : List (K × V)} {k : K} : k ∈ keys l ↔ ∃ v, (k, v) ∈ l := by
  simp [keys]

theorem keys_mem {l : List (K × V)} {e : K × V} (h : e ∈ l) : e.1 ∈ keys l :=
  List.mem_map_of_mem h

/-- Distinct keys make an entry's value a function of its key. -/
theorem value_unique {l : List (K × V)} (distinct : (keys l).Nodup) {k : K} {v w : V}
    (hv : (k, v) ∈ l) (hw : (k, w) ∈ l) : v = w := by
  have same := List.inj_on_of_nodup_map distinct hv hw rfl
  exact congrArg Prod.snd same

section Find

variable [DecidableEq K]

theorem find_none_iff {l : List (K × V)} {key : K} :
    l.find? (fun e => e.1 = key) = none ↔ key ∉ keys l := by
  rw [List.find?_eq_none]
  constructor
  · intro absent found
    obtain ⟨v, hv⟩ := mem_keys.mp found
    exact absent _ hv (by simp)
  · intro absent e he hk
    exact absent (of_decide_eq_true hk ▸ keys_mem he)

/-- With distinct keys the entries under a key are the one that is found. -/
theorem filter_key {l : List (K × V)} (distinct : (keys l).Nodup) (key : K) :
    l.filter (fun e => e.1 = key) = (l.find? fun e => e.1 = key).toList := by
  induction l with
  | nil => rfl
  | cons e rest ih =>
    obtain ⟨fresh, tail⟩ := List.nodup_cons.mp distinct
    by_cases named : e.1 = key
    · have others : rest.find? (fun e => e.1 = key) = none :=
        find_none_iff.mpr (named ▸ fresh)
      simp [named, ih tail, others]
    · simpa [named] using ih tail

/-- A found entry splits the list at its first position, where `eraseP` cuts it out. -/
theorem find_split {l : List (K × V)} {key : K} {e : K × V}
    (h : l.find? (fun e => e.1 = key) = some e) :
    ∃ xs ys, l = xs ++ e :: ys ∧ e.1 = key ∧ key ∉ keys xs ∧
      l.eraseP (fun e => e.1 = key) = xs ++ ys := by
  obtain ⟨hk, xs, ys, rfl, before⟩ := List.find?_eq_some_iff_append.mp h
  have absent : key ∉ keys xs := by
    intro found
    obtain ⟨v, hv⟩ := mem_keys.mp found
    simpa using before _ hv
  refine ⟨xs, ys, rfl, of_decide_eq_true hk, absent, ?_⟩
  rw [List.eraseP_append_right _ (by simpa using before), List.eraseP_cons_of_pos (by simpa using hk)]

/-- Replace the value of the first entry under `key`. -/
def setFirst (key : K) (value : V) : List (K × V) → List (K × V)
  | [] => []
  | e :: rest => if e.1 = key then (e.1, value) :: rest else e :: setFirst key value rest

/-- Replace the value of the last entry under `key`. -/
def setLast (key : K) (value : V) (l : List (K × V)) : List (K × V) :=
  (setFirst key value l.reverse).reverse

@[simp] theorem keys_setFirst (key : K) (value : V) (l : List (K × V)) :
    keys (setFirst key value l) = keys l := by
  induction l with
  | nil => rfl
  | cons e rest ih =>
    by_cases he : e.1 = key
    · simp [setFirst, he]
    · simp [setFirst, he, ih]

@[simp] theorem keys_setLast (key : K) (value : V) (l : List (K × V)) :
    keys (setLast key value l) = keys l := by
  simp [setLast]

@[simp] theorem setLast_length (key : K) (value : V) (l : List (K × V)) :
    (setLast key value l).length = l.length := by
  rw [← keys_length, keys_setLast, keys_length]

theorem mem_setFirst {l : List (K × V)} (distinct : (keys l).Nodup) {key : K} {value : V}
    {e : K × V} (h : e ∈ setFirst key value l) : e = (key, value) ∨ (e.1 ≠ key ∧ e ∈ l) := by
  induction l with
  | nil => cases h
  | cons d rest ih =>
    obtain ⟨fresh, distinct⟩ := List.nodup_cons.mp distinct
    by_cases hd : d.1 = key
    · simp only [setFirst, if_pos hd, List.mem_cons] at h
      rcases h with rfl | h
      · exact Or.inl (by rw [hd])
      · refine Or.inr ⟨?_, List.mem_cons_of_mem _ h⟩
        intro same
        exact fresh (by rw [hd, ← same]; exact keys_mem h)
    · simp only [setFirst, if_neg hd, List.mem_cons] at h
      rcases h with rfl | h
      · exact Or.inr ⟨hd, List.mem_cons_self⟩
      · rcases ih distinct h with same | ⟨hne, hm⟩
        · exact Or.inl same
        · exact Or.inr ⟨hne, List.mem_cons_of_mem _ hm⟩

theorem mem_setLast {l : List (K × V)} (distinct : (keys l).Nodup) {key : K} {value : V}
    {e : K × V} (h : e ∈ setLast key value l) : e = (key, value) ∨ (e.1 ≠ key ∧ e ∈ l) := by
  have reversed : (keys l.reverse).Nodup := by simpa using distinct
  rcases mem_setFirst reversed (List.mem_reverse.mp h) with same | ⟨hne, hm⟩
  · exact Or.inl same
  · exact Or.inr ⟨hne, List.mem_reverse.mp hm⟩

theorem setFirst_mem {l : List (K × V)} {key : K} {value : V} (found : key ∈ keys l) :
    (key, value) ∈ setFirst key value l := by
  induction l with
  | nil => cases found
  | cons e rest ih =>
    by_cases he : e.1 = key
    · simp [setFirst, he]
    · have tail : key ∈ keys rest := by
        rcases List.mem_cons.mp found with same | tail
        · exact absurd same.symm he
        · exact tail
      simp only [setFirst, if_neg he, List.mem_cons]
      exact Or.inr (ih tail)

theorem setLast_mem {l : List (K × V)} {key : K} {value : V} (found : key ∈ keys l) :
    (key, value) ∈ setLast key value l :=
  List.mem_reverse.mpr (setFirst_mem (by simpa using found))

end Find

/-! ## Updating a value in place -/

section Modify

variable [DecidableEq K]

def modify (key : K) (f : V → V) (l : List (K × V)) : List (K × V) :=
  l.map fun e => if e.1 = key then (e.1, f e.2) else e

def lookup (key : K) (l : List (K × V)) : Option V := l.lookup key

@[simp] theorem keys_modify (key : K) (f : V → V) (l : List (K × V)) :
    keys (modify key f l) = keys l := by
  simp only [keys, modify, List.map_map]
  apply List.map_congr_left
  intro e _
  by_cases he : e.1 = key
  · simp [he]
  · simp [he]

theorem lookup_modify_self (key : K) (f : V → V) (l : List (K × V)) :
    lookup key (modify key f l) = (lookup key l).map f := by
  induction l with
  | nil => rfl
  | cons e rest ih =>
    obtain ⟨k, v⟩ := e
    simp only [lookup, modify] at ih
    by_cases hk : key = k
    · simp [lookup, modify, hk]
    · have other : k ≠ key := fun h => hk h.symm
      simp [lookup, modify, List.lookup_cons, beq_false_of_ne hk, other, ih]

theorem lookup_modify_other {key other : K} (apart : other ≠ key) (f : V → V)
    (l : List (K × V)) : lookup other (modify key f l) = lookup other l := by
  induction l with
  | nil => rfl
  | cons e rest ih =>
    obtain ⟨k, v⟩ := e
    simp only [lookup, modify] at ih
    by_cases hk : k = key
    · subst hk
      simp [lookup, modify, List.lookup_cons, beq_false_of_ne apart, ih]
    · simp [lookup, modify, List.lookup_cons, hk, ih]

theorem lookup_iff_mem {l : List (K × V)} (distinct : (keys l).Nodup) {key : K} {value : V} :
    lookup key l = some value ↔ (key, value) ∈ l := by
  induction l with
  | nil => simp [lookup]
  | cons e rest ih =>
    obtain ⟨k, v⟩ := e
    obtain ⟨fresh, distinct⟩ := List.nodup_cons.mp distinct
    by_cases hk : key = k
    · subst hk
      have absent : (key, value) ∉ rest := fun h => fresh (mem_keys.mpr ⟨value, h⟩)
      simp [lookup, absent, eq_comm]
    · have rest := ih distinct
      simp only [lookup] at rest
      simp [lookup, List.lookup_cons, beq_false_of_ne hk, hk, rest]

end Modify

/-! ## Entries that carry their key -/

section KeyOf

variable [DecidableEq K] (key : V → K)

def findKey (l : List V) (k : K) : Option V := l.find? fun a => key a = k

/-- Insertion into a map: an entry of the same key is replaced. -/
def upsert (l : List V) (e : V) : List V := l.filter (fun a => key a ≠ key e) ++ [e]

theorem upsert_distinct {l : List V} (distinct : (l.map key).Nodup) (e : V) :
    ((upsert key l e).map key).Nodup := by
  simp only [upsert, List.map_append, List.map_singleton]
  refine List.nodup_append.mpr ⟨distinct.sublist (List.filter_sublist.map key),
    List.nodup_singleton _, ?_⟩
  intro a ha b hb
  obtain ⟨other, kept, rfl⟩ := List.mem_map.mp ha
  rw [List.mem_singleton.mp hb]
  simpa using (List.mem_filter.mp kept).2

theorem upsert_fresh {l : List V} {e : V} (fresh : key e ∉ l.map key) :
    upsert key l e = l ++ [e] := by
  rw [upsert, List.filter_eq_self.mpr]
  intro a ha
  have apart : key a ≠ key e := fun same => fresh (same ▸ List.mem_map_of_mem ha)
  simpa using apart

theorem mem_upsert_keys {l : List V} {e : V} {k : K} :
    k ∈ (upsert key l e).map key ↔ k ∈ l.map key ∨ k = key e := by
  simp only [upsert, List.map_append, List.mem_append, List.map_singleton, List.mem_singleton,
    List.mem_map, List.mem_filter]
  constructor
  · rintro (⟨a, ⟨member, -⟩, rfl⟩ | same)
    · exact .inl ⟨a, member, rfl⟩
    · exact .inr same
  · rintro (⟨a, member, rfl⟩ | same)
    · by_cases same : key a = key e
      · exact .inr same
      · exact .inl ⟨a, ⟨member, by simpa using same⟩, rfl⟩
    · exact .inr same

theorem findKey_iff {l : List V} (distinct : (l.map key).Nodup) {k : K} {a : V} :
    findKey key l k = some a ↔ a ∈ l ∧ key a = k := by
  constructor
  · intro found
    exact ⟨List.mem_of_find?_eq_some found, by simpa using List.find?_some found⟩
  · rintro ⟨member, rfl⟩
    cases found : findKey key l (key a) with
    | none =>
      have absent := List.find?_eq_none.mp found a member
      simp at absent
    | some b =>
      have same : key b = key a := by simpa using List.find?_some found
      rw [List.inj_on_of_nodup_map distinct (List.mem_of_find?_eq_some found) member same]

theorem findKey_remove {k other : K} (apart : other ≠ k) (l : List V) :
    findKey key (l.filter fun a => key a ≠ k) other = findKey key l other := by
  rw [findKey, List.find?_filter]
  apply congrArg (List.find? · l)
  funext a
  by_cases same : key a = other
  · simp [same, apart]
  · simp [same]

theorem findKey_upsert_other {k : K} {e : V} (apart : k ≠ key e) (l : List V) :
    findKey key (upsert key l e) k = findKey key l k := by
  have last : List.find? (fun a => key a = k) [e] = none := by
    simpa using fun h : key e = k => apart h.symm
  rw [findKey, upsert, List.find?_append, last, Option.or_none]
  exact findKey_remove key apart l

theorem findKey_upsert_self (l : List V) (e : V) :
    findKey key (upsert key l e) (key e) = some e := by
  have gone : List.find? (fun a => key a = key e) (l.filter fun a => key a ≠ key e) = none := by
    simp [List.find?_filter]
  rw [findKey, upsert, List.find?_append, gone, Option.none_or]
  simp

/-- A filter that keeps the entry under `k` keeps it findable. -/
theorem findKey_filter {l : List V} {k : K} {e : V} {keep : V → Bool}
    (found : findKey key l k = some e) (kept : keep e = true) :
    findKey key (l.filter keep) k = some e := by
  obtain ⟨named, before, behind, rfl, others⟩ := List.find?_eq_some_iff_append.mp found
  rw [findKey, List.find?_filter]
  refine List.find?_eq_some_iff_append.mpr ⟨by simp [kept, named], before, behind, rfl, ?_⟩
  intro a ha
  have other := others a ha
  simp only [Bool.not_eq_true'] at other
  simp [other]

/-- The first entry under `k` is updated in place. -/
def updateKey (k : K) (f : V → V) : List V → List V
  | [] => []
  | a :: rest => if key a = k then f a :: rest else a :: updateKey k f rest

theorem updateKey_keys (k : K) {f : V → V} (keeps : ∀ a, key (f a) = key a) (l : List V) :
    (updateKey key k f l).map key = l.map key := by
  induction l with
  | nil => rfl
  | cons a rest ih =>
    simp only [updateKey]
    split
    · simp [keeps]
    · simp [ih]

theorem findKey_updateKey (k : K) {f : V → V} (keeps : ∀ a, key (f a) = key a) (l : List V)
    (other : K) : findKey key (updateKey key k f l) other =
      if other = k then (findKey key l k).map f else findKey key l other := by
  induction l with
  | nil => simp [updateKey, findKey]
  | cons a rest ih =>
    by_cases named : key a = k
    · by_cases same : other = k
      · simp [updateKey, findKey, named, keeps, same]
      · have apart : key a ≠ other := fun h => same (h.symm.trans named)
        have apart' : k ≠ other := fun h => same h.symm
        simp [updateKey, findKey, named, keeps, same, apart']
    · by_cases at_ : key a = other
      · subst at_
        simp [updateKey, findKey, named]
      · have tail := ih
        simp only [findKey] at tail
        simp [updateKey, findKey, named, at_, tail]

end KeyOf

end KeyedList
