import AnimaOS.KeyedList

/-!
# Maps with one entry a key

An unordered map as the list of its entries. Every update is read back through
`get`, and the entries themselves are those that `get` finds.
-/

universe u v

structure KeyedMap (K : Type u) (V : Type v) where
  entries : List (K × V)
  distinct : (KeyedList.keys entries).Nodup
  deriving DecidableEq, Repr

namespace KeyedMap

open KeyedList

variable {K : Type u} {V : Type v}

def empty : KeyedMap K V := ⟨[], List.nodup_nil⟩

def size (m : KeyedMap K V) : Nat := m.entries.length

def values (m : KeyedMap K V) : List V := m.entries.map Prod.snd

def retain (m : KeyedMap K V) (p : K → V → Bool) : KeyedMap K V where
  entries := m.entries.filter fun e => p e.1 e.2
  distinct := m.distinct.sublist (List.filter_sublist.map Prod.fst)

theorem mem_retain {m : KeyedMap K V} {p : K → V → Bool} {k : K} {v : V} :
    (k, v) ∈ (m.retain p).entries ↔ (k, v) ∈ m.entries ∧ p k v = true :=
  List.mem_filter

theorem mem_values {m : KeyedMap K V} {v : V} : v ∈ m.values ↔ ∃ k, (k, v) ∈ m.entries := by
  simp [values]

theorem size_retain (m : KeyedMap K V) (p : K → V → Bool) : (m.retain p).size ≤ m.size :=
  List.length_filter_le _ _

variable [DecidableEq K]

def get (m : KeyedMap K V) (k : K) : Option V :=
  (m.entries.find? fun e => e.1 = k).map Prod.snd

def remove (m : KeyedMap K V) (k : K) : KeyedMap K V := m.retain fun key _ => key ≠ k

theorem removed_fresh (m : KeyedMap K V) (k : K) : k ∉ keys (m.remove k).entries := by
  intro found
  obtain ⟨v, member⟩ := mem_keys.mp found
  simpa using (mem_retain.mp member).2

def insert (m : KeyedMap K V) (k : K) (v : V) : KeyedMap K V where
  entries := (m.remove k).entries ++ [(k, v)]
  distinct := by
    rw [keys_append]
    refine List.nodup_append.mpr ⟨(m.remove k).distinct, List.nodup_singleton _, ?_⟩
    intro a ha b hb
    rw [keys_cons, keys_nil, List.mem_singleton] at hb
    subst hb
    exact fun same => removed_fresh m _ (same ▸ ha)

/-! ## Reading a map -/

theorem mem_entries {m : KeyedMap K V} {k : K} {v : V} :
    (k, v) ∈ m.entries ↔ m.get k = some v := by
  constructor
  · intro member
    cases found : m.entries.find? fun e => e.1 = k with
    | none => exact absurd (keys_mem member) (find_none_iff.mp found)
    | some e =>
      obtain ⟨xs, ys, split, named, -⟩ := find_split found
      have listed : (k, e.2) ∈ m.entries := by
        rw [split, ← named]
        exact List.mem_append_right _ List.mem_cons_self
      simp [get, found, value_unique m.distinct listed member]
  · intro found
    obtain ⟨e, first, rfl⟩ := Option.map_eq_some_iff.mp found
    obtain ⟨xs, ys, split, rfl, -⟩ := find_split first
    rw [split]
    exact List.mem_append_right _ List.mem_cons_self

theorem mem_values_get {m : KeyedMap K V} {v : V} : v ∈ m.values ↔ ∃ k, m.get k = some v := by
  rw [mem_values]
  exact exists_congr fun k => mem_entries

theorem get_retain (m : KeyedMap K V) (p : K → V → Bool) (k : K) :
    (m.retain p).get k = (m.get k).filter (p k) := by
  apply Option.ext
  intro v
  rw [← mem_entries, mem_retain, mem_entries, Option.filter_eq_some_iff]

theorem get_remove (m : KeyedMap K V) (k key : K) :
    (m.remove k).get key = if key = k then none else m.get key := by
  rw [remove, get_retain]
  by_cases same : key = k
  · simp [same]
  · cases m.get key <;> simp [same, Option.filter]

theorem get_of_remove {m : KeyedMap K V} {k key : K} {v : V}
    (found : (m.remove k).get key = some v) : m.get key = some v := by
  rw [get_remove] at found
  split at found
  · cases found
  · exact found

theorem get_insert (m : KeyedMap K V) (k : K) (v : V) (key : K) :
    (m.insert k v).get key = if key = k then some v else m.get key := by
  apply Option.ext
  intro w
  have joined : (key, w) ∈ (m.insert k v).entries ↔
      (key, w) ∈ (m.remove k).entries ∨ (key = k ∧ w = v) := by
    simp [insert]
  rw [← mem_entries, joined, mem_entries, get_remove]
  by_cases same : key = k
  · simp [same, eq_comm]
  · simp [same]

@[simp] theorem get_insert_self (m : KeyedMap K V) (k : K) (v : V) :
    (m.insert k v).get k = some v := by
  simp [get_insert]

theorem get_insert_other {k key : K} (apart : key ≠ k) (m : KeyedMap K V) (v : V) :
    (m.insert k v).get key = m.get key := by
  simp [get_insert, apart]

@[simp] theorem get_remove_self (m : KeyedMap K V) (k : K) : (m.remove k).get k = none := by
  simp [get_remove]

theorem get_remove_other {k key : K} (apart : key ≠ k) (m : KeyedMap K V) :
    (m.remove k).get key = m.get key := by
  simp [get_remove, apart]

/-- Where each value carries its key, a key selects the value found under it. -/
theorem values_filter {m : KeyedMap K V} {key : V → K}
    (named : ∀ k v, m.get k = some v → key v = k) (k : K) :
    m.values.filter (fun v => key v = k) = (m.get k).toList := by
  have aligned : ∀ e ∈ m.entries, decide (key e.2 = k) = decide (e.1 = k) := by
    intro e listed
    rw [named e.1 e.2 (mem_entries.mp listed)]
  have picked : m.entries.filter (fun e => key e.2 = k) =
      (m.entries.find? fun e => e.1 = k).toList :=
    (List.filter_congr aligned).trans (filter_key m.distinct k)
  rw [values, List.filter_map, get]
  simp only [Function.comp_def, picked]
  cases m.entries.find? fun e => e.1 = k <;> rfl

/-! ## Sizes -/

theorem size_remove_present {m : KeyedMap K V} {k : K} (present : m.get k ≠ none) :
    (m.remove k).size < m.size := by
  obtain ⟨v, found⟩ := Option.ne_none_iff_exists'.mp present
  refine List.length_filter_lt_length_iff_exists.mpr ⟨(k, v), mem_entries.mpr found, ?_⟩
  simp

theorem size_insert (m : KeyedMap K V) (k : K) (v : V) :
    (m.insert k v).size = (m.remove k).size + 1 :=
  List.length_append

theorem size_insert_le (m : KeyedMap K V) (k : K) (v : V) : (m.insert k v).size ≤ m.size + 1 := by
  rw [size_insert]
  exact Nat.succ_le_succ (size_retain m _)

theorem size_insert_present {m : KeyedMap K V} {k : K} (present : m.get k ≠ none) (v : V) :
    (m.insert k v).size ≤ m.size := by
  rw [size_insert]
  exact size_remove_present present

end KeyedMap
