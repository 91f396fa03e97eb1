import AnimaOS.ArcInvariant

/-!
# When the whole directory stays within twice the capacity

Only a complete miss adds a key to the directory. It trims a ghost list when
the live lists have room, but not when they are full: `replace` then moves one
key to a ghost list and the new key is pushed on top of it.
-/

namespace ArcCache

open KeyedList Machine

universe u v

variable {K : Type u} {V : Type v}

/-- The ghost list `replace` would push to already holds `capacity` keys. -/
def receiverFull (s : ArcCacheInner K V) : Bool :=
  if evictsT1 s then s.b1.length ≥ s.capacity else s.b2.length ≥ s.capacity

theorem directorySize_replace {s : ArcCacheInner K V} (wf : Wellformed s)
    (live : 0 < totalLive s) :
    directorySize (replace s) =
      if receiverFull s then directorySize s - 1 else directorySize s := by
  rcases replace_cases s with ⟨k, v, rest, ht, guard, hr⟩ | ⟨k, v, rest, ht, guard, hr⟩ |
    ⟨h1, h2, _⟩
  · by_cases full : s.b1.length ≥ s.capacity
    · have grown := pushGhost_length_of_full wf.positive (Nat.le_antisymm wf.ghosts1 full) k
      simp only [hr, receiverFull, guard, full, decide_true, if_true, directorySize, totalLive, ht,
        List.length_cons, grown]
      have := wf.ghosts1
      omega
    · have grown := pushGhost_length_of_lt (Nat.not_le.mp full) k
      simp only [hr, receiverFull, guard, full, decide_false, if_true, Bool.false_eq_true,
        if_false, directorySize, totalLive, ht, List.length_cons, grown]
      omega
  · by_cases full : s.b2.length ≥ s.capacity
    · have grown := pushGhost_length_of_full wf.positive (Nat.le_antisymm wf.ghosts2 full) k
      simp only [hr, receiverFull, guard, full, decide_true, if_true, Bool.false_eq_true, if_false,
        directorySize, totalLive, ht, List.length_cons, grown]
      have := wf.ghosts2
      omega
    · have grown := pushGhost_length_of_lt (Nat.not_le.mp full) k
      simp only [hr, receiverFull, guard, full, decide_false, Bool.false_eq_true, if_false,
        directorySize, totalLive, ht, List.length_cons, grown]
      omega
  · simp [totalLive, h1, h2] at live

variable [DecidableEq K]

/-- A complete miss that finds the live lists full and the directory at twice
the capacity, with room left on the ghost list that takes the victim. -/
def Overfills (s : ArcCacheInner K V) : Op K V → Prop
  | .insert key _ =>
    key ∉ directory s ∧ totalLive s ≥ s.capacity ∧ directorySize s ≥ 2 * s.capacity ∧
      receiverFull s = false
  | .get _ => False
  | .retain _ => False

instance (s : ArcCacheInner K V) (op : Op K V) : Decidable (Overfills s op) := by
  cases op <;> unfold Overfills <;> infer_instance

omit [DecidableEq K] in
theorem missRoom_size_not_full {s : ArcCacheInner K V} (notFull : totalLive s < s.capacity)
    (bounded : directorySize s ≤ 2 * s.capacity) :
    directorySize (missRoom s) < 2 * s.capacity := by
  have limit : directoryLimit s ≤ s.capacity * 2 := Nat.mod_le _ _
  simp only [missRoom, if_neg (Nat.not_le.mpr notFull)]
  split
  · split <;>
      simp only [directorySize, totalLive, List.length_tail] at bounded notFull ⊢ <;> omega
  · simp only [directorySize] at bounded ⊢
    omega

omit [DecidableEq K] in
theorem insertMiss_size (s : ArcCacheInner K V) (key : K) (value : V) :
    directorySize (insertMiss s key value) = directorySize (missRoom s) + 1 := by
  simp only [insertMiss, directorySize, totalLive, List.length_append, List.length_singleton]
  omega

omit [DecidableEq K] in
theorem insertMiss_size_le_iff {s : ArcCacheInner K V} (wf : Wellformed s)
    (bounded : directorySize s ≤ 2 * s.capacity) {key : K} (value : V)
    (fresh : key ∉ directory s) :
    directorySize (insertMiss s key value) ≤ 2 * s.capacity ↔
      ¬ Overfills s (.insert key value) := by
  rw [insertMiss_size]
  by_cases full : totalLive s ≥ s.capacity
  · have evicted : missRoom s = replace s := by simp only [missRoom, if_pos full]
    have size := directorySize_replace wf (Nat.lt_of_lt_of_le wf.positive full)
    have positive := wf.positive
    have overfills : Overfills s (.insert key value) ↔
        directorySize s ≥ 2 * s.capacity ∧ receiverFull s = false := by
      simp only [Overfills, fresh, not_false_eq_true, full, true_and]
    simp only [evicted, size, overfills]
    cases receiverFull s with
    | true =>
      simp only [if_true, Bool.true_eq_false, and_false, not_false_eq_true, iff_true]
      omega
    | false =>
      simp only [Bool.false_eq_true, if_false, and_true]
      omega
  · have room := missRoom_size_not_full (Nat.not_le.mp full) bounded
    simp only [Overfills, full, false_and, and_false, not_false_eq_true, iff_true]
    omega

omit [DecidableEq K] in
theorem makeRoom_directory_le (s : ArcCacheInner K V) : directory (makeRoom s) ≤ directory s := by
  simp only [makeRoom]
  split
  · exact replace_directory_le s
  · exact le_rfl

omit [DecidableEq K] in
theorem directorySize_mono {s t : ArcCacheInner K V} (h : directory s ≤ directory t) :
    directorySize s ≤ directorySize t := by
  simpa only [directory_card] using Multiset.card_le_card h

/-- Live hits and ghost hits never enlarge the directory. -/
theorem insert_known_size {s : ArcCacheInner K V} {key : K} (known : key ∈ directory s)
    (value : V) : directorySize (insert s key value) ≤ directorySize s := by
  apply directorySize_mono
  rcases insert_cases s key value with ⟨_, hi⟩ | ⟨_, _, hb, hi⟩ | ⟨_, _, hb, hi⟩ | ⟨fresh, _⟩
  · have same : directory (insert s key value) = directory (get s key).1 := by
      simp only [hi, directory, keys_setLast]
    rw [same, get_directory]
  · rw [hi, insertGhostB1, push_t2_directory, ← leaveB1_directory hb]
    exact (Multiset.cons_le_cons_iff key).mpr (makeRoom_directory_le _)
  · rw [hi, insertGhostB2, push_t2_directory, ← leaveB2_directory hb]
    exact (Multiset.cons_le_cons_iff key).mpr (makeRoom_directory_le _)
  · exact absurd known fresh

theorem step_size_le_iff {s : ArcCacheInner K V} (wf : Wellformed s)
    (bounded : directorySize s ≤ 2 * s.capacity) (op : Op K V) :
    directorySize (step s op).1 ≤ 2 * s.capacity ↔ ¬ Overfills s op := by
  cases op with
  | insert key value =>
    by_cases known : key ∈ directory s
    · have := insert_known_size known value
      simp only [step, Overfills, known, not_true_eq_false, false_and, not_false_eq_true, iff_true]
      omega
    · rcases insert_cases s key value with ⟨h, _⟩ | ⟨_, _, h, _⟩ | ⟨_, _, h, _⟩ | ⟨_, hi⟩
      · exact absurd (mem_directory.mpr (h.imp_right Or.inl)) known
      · exact absurd (mem_directory.mpr (Or.inr (Or.inr (Or.inl h)))) known
      · exact absurd (mem_directory.mpr (Or.inr (Or.inr (Or.inr h)))) known
      · simpa only [step, hi] using insertMiss_size_le_iff wf bounded value known
  | get key =>
    have same := directory_card (get s key).1
    simp only [get_directory, directory_card] at same
    simp only [step, Overfills, not_false_eq_true, iff_true]
    omega
  | retain f =>
    have h1 := (retainFrom_sublist f [] s.t1).length_le
    have h2 := (retainFrom_sublist f s.t1 s.t2).length_le
    simp only [step, retain, Overfills, directorySize, totalLive, not_false_eq_true,
      iff_true] at bounded ⊢
    omega

/-- The directory stays within twice the capacity at every moment of a run
exactly when no operation of the run overfills it. -/
theorem arc_directory_bound_iff (c : Nat) (positive : 1 ≤ c) (ops : List (Op K V)) :
    (∀ pre, pre <+: ops → directorySize (after c pre) ≤ 2 * c) ↔
      ∀ pre op, pre ++ [op] <+: ops → ¬ Overfills (after c pre) op := by
  have capacity : ∀ pre : List (Op K V), (after c pre).capacity = c := fun pre => by
    rw [after_capacity]; omega
  have one : ∀ (pre : List (Op K V)) op, directorySize (after c pre) ≤ 2 * c →
      (directorySize (after c (pre ++ [op])) ≤ 2 * c ↔ ¬ Overfills (after c pre) op) := by
    intro pre op bounded
    have h := step_size_le_iff (after_wellformed c pre) (by rw [capacity]; exact bounded) op
    simpa only [after, final_snoc, capacity] using h
  constructor
  · intro bounded pre op hpre
    exact (one pre op (bounded pre ((List.prefix_append pre [op]).trans hpre))).mp
      (bounded _ hpre)
  · intro careful pre
    induction pre using List.reverseRecOn with
    | nil => intro _; exact Nat.zero_le _
    | append_singleton pre op ih =>
      intro hpre
      exact (one pre op (ih ((List.prefix_append pre [op]).trans hpre))).mpr
        (careful pre op hpre)

theorem arc_directory_bound_iff_three :
    (∀ pre, pre <+: [Op.insert 1 10, .insert 2 20, .insert 3 30] →
      directorySize (after 1 pre : ArcCacheInner Nat Nat) ≤ 2 * 1) ↔
      ∀ pre op, pre ++ [op] <+: [Op.insert 1 10, .insert 2 20, .insert 3 30] →
        ¬ Overfills (after 1 pre : ArcCacheInner Nat Nat) op :=
  arc_directory_bound_iff 1 (by decide) _

/-- One entry of capacity, a key read once and two misses: T2, B1 and B2 hold a key each. -/
theorem directory_exceeds_twice_capacity :
    ¬ directorySize (after 1 [.insert 1 10, .get 1, .insert 2 20, .insert 3 30] :
      ArcCacheInner Nat Nat) ≤ 2 * 1 := by
  decide

end ArcCache
