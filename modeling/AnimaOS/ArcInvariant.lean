import AnimaOS.ArcCache

/-!
# Representation invariant and directory size of the replacement cache

The directory is the multiset of the keys on all four lists. Every path of
`insert` either keeps it, loses keys from it, or adds the one new key, so a
single duplicate-freeness fact covers the lists and their disjointness.
-/

namespace ArcCache

open KeyedList Machine

universe u v

variable {K : Type u} {V : Type v}

def directory (s : ArcCacheInner K V) : Multiset K :=
  (keys s.t1 : Multiset K) + keys s.t2 + s.b1 + s.b2

def directorySize (s : ArcCacheInner K V) : Nat :=
  totalLive s + (s.b1.length + s.b2.length)

theorem directory_eq_coe (s : ArcCacheInner K V) :
    directory s = ((keys s.t1 ++ keys s.t2 ++ s.b1 ++ s.b2 : List K) : Multiset K) := by
  simp only [directory, Multiset.coe_add]

theorem directory_card (s : ArcCacheInner K V) : (directory s).card = directorySize s := by
  simp only [directory_eq_coe, Multiset.coe_card, List.length_append, keys_length, directorySize,
    totalLive]
  omega

theorem mem_directory {s : ArcCacheInner K V} {k : K} :
    k ∈ directory s ↔ k ∈ keys s.t1 ∨ k ∈ keys s.t2 ∨ k ∈ s.b1 ∨ k ∈ s.b2 := by
  simp [directory_eq_coe]

/-! ## Ghost lists -/

theorem pushGhost_le (c : Nat) (b : List K) (k : K) :
    (pushGhost c b k : Multiset K) ≤ k ::ₘ (b : Multiset K) := by
  have drop : (if b.length ≥ c then b.tail else b).Sublist b := by
    split
    · exact List.tail_sublist b
    · exact List.Sublist.refl b
  have moved : (pushGhost c b k : Multiset K) =
      k ::ₘ ((if b.length ≥ c then b.tail else b : List K) : Multiset K) := by
    rw [pushGhost, ← Multiset.coe_add, Multiset.coe_singleton, add_comm,
      Multiset.singleton_add]
  rw [moved]
  exact (Multiset.cons_le_cons_iff k).mpr (Multiset.coe_le.mpr drop.subperm)

theorem pushGhost_length_of_lt {c : Nat} {b : List K} (h : b.length < c) (k : K) :
    (pushGhost c b k).length = b.length + 1 := by
  simp [pushGhost, Nat.not_le.mpr h]

theorem pushGhost_length_of_full {c : Nat} {b : List K} (pos : 1 ≤ c) (h : b.length = c)
    (k : K) : (pushGhost c b k).length = c := by
  simp only [pushGhost, h, ge_iff_le, le_refl, if_true, List.length_append, List.length_tail,
    List.length_singleton]
  omega

theorem pushGhost_length_le {c : Nat} {b : List K} (pos : 1 ≤ c) (h : b.length ≤ c) (k : K) :
    (pushGhost c b k).length ≤ c := by
  rcases Nat.lt_or_eq_of_le h with hlt | heq
  · rw [pushGhost_length_of_lt hlt]
    exact hlt
  · exact Nat.le_of_eq (pushGhost_length_of_full pos heq k)

/-! ## What `replace` can do -/

theorem replace_cases (s : ArcCacheInner K V) :
    (∃ k v rest, s.t1 = (k, v) :: rest ∧ evictsT1 s = true ∧
      replace s = { s with t1 := rest, b1 := pushGhost s.capacity s.b1 k }) ∨
    (∃ k v rest, s.t2 = (k, v) :: rest ∧ evictsT1 s = false ∧
      replace s = { s with t2 := rest, b2 := pushGhost s.capacity s.b2 k }) ∨
    (s.t1 = [] ∧ s.t2 = [] ∧ replace s = s) := by
  cases guard : evictsT1 s with
  | true =>
    cases h1 : s.t1 with
    | nil => simp [evictsT1, h1] at guard
    | cons e rest =>
      obtain ⟨k, v⟩ := e
      exact Or.inl ⟨k, v, rest, rfl, rfl, by simp [replace, guard, h1]⟩
  | false =>
    cases h2 : s.t2 with
    | nil =>
      have h1 : s.t1 = [] := by simpa [evictsT1, h2] using guard
      exact Or.inr (Or.inr ⟨h1, rfl, by simp [replace, guard, h2]⟩)
    | cons e rest =>
      obtain ⟨k, v⟩ := e
      exact Or.inr (Or.inl ⟨k, v, rest, rfl, rfl, by simp [replace, guard, h2]⟩)

theorem replace_directory_le (s : ArcCacheInner K V) : directory (replace s) ≤ directory s := by
  rcases replace_cases s with ⟨k, v, rest, ht, _, hr⟩ | ⟨k, v, rest, ht, _, hr⟩ | ⟨_, _, hr⟩
  · have h := pushGhost_le s.capacity s.b1 k
    calc directory (replace s)
        = (keys rest : Multiset K) + keys s.t2 + pushGhost s.capacity s.b1 k + s.b2 := by
          rw [hr]; rfl
      _ ≤ (keys rest : Multiset K) + keys s.t2 + (k ::ₘ (s.b1 : Multiset K)) + s.b2 := by gcongr
      _ = directory s := by
          rw [directory, ht, keys_cons, ← Multiset.cons_coe]
          simp only [Multiset.cons_add, Multiset.add_cons]
  · have h := pushGhost_le s.capacity s.b2 k
    calc directory (replace s)
        = (keys s.t1 : Multiset K) + keys rest + s.b1 + pushGhost s.capacity s.b2 k := by
          rw [hr]; rfl
      _ ≤ (keys s.t1 : Multiset K) + keys rest + s.b1 + (k ::ₘ (s.b2 : Multiset K)) := by gcongr
      _ = directory s := by
          rw [directory, ht, keys_cons, ← Multiset.cons_coe]
          simp only [Multiset.cons_add, Multiset.add_cons]
  · rw [hr]

/-! ## The invariant -/

structure Wellformed (s : ArcCacheInner K V) : Prop where
  distinct : (directory s).Nodup
  positive : 1 ≤ s.capacity
  live : totalLive s ≤ s.capacity
  ghosts1 : s.b1.length ≤ s.capacity
  ghosts2 : s.b2.length ≤ s.capacity
  target : s.p ≤ s.capacity

/-- A state in which `key` may be pushed onto T1 or T2. -/
structure Room (key : K) (s : ArcCacheInner K V) : Prop where
  distinct : (key ::ₘ directory s).Nodup
  positive : 1 ≤ s.capacity
  live : totalLive s < s.capacity
  ghosts1 : s.b1.length ≤ s.capacity
  ghosts2 : s.b2.length ≤ s.capacity
  target : s.p ≤ s.capacity

theorem new_wellformed (c : Nat) : Wellformed (new c : ArcCacheInner K V) where
  distinct := by simp [directory_eq_coe, new]
  positive := Nat.le_max_right c 1
  live := Nat.zero_le _
  ghosts1 := Nat.zero_le _
  ghosts2 := Nat.zero_le _
  target := Nat.zero_le _

theorem push_t1_directory (s : ArcCacheInner K V) (key : K) (value : V) :
    directory { s with t1 := s.t1 ++ [(key, value)] } = key ::ₘ directory s := by
  simp only [directory, keys_append, keys_cons, keys_nil, ← Multiset.coe_add,
    Multiset.coe_singleton]
  rw [add_comm (keys s.t1 : Multiset K), Multiset.singleton_add]
  simp only [Multiset.cons_add]

theorem push_t2_directory (s : ArcCacheInner K V) (key : K) (value : V) :
    directory { s with t2 := s.t2 ++ [(key, value)] } = key ::ₘ directory s := by
  simp only [directory, keys_append, keys_cons, keys_nil, ← Multiset.coe_add,
    Multiset.coe_singleton]
  simp only [add_comm (keys s.t2 : Multiset K), Multiset.singleton_add]
  simp only [Multiset.cons_add, Multiset.add_cons]

theorem Room.push_t1 {key : K} {s : ArcCacheInner K V} (room : Room key s) (value : V) :
    Wellformed { s with t1 := s.t1 ++ [(key, value)] } where
  distinct := push_t1_directory s key value ▸ room.distinct
  positive := room.positive
  live := by
    have := room.live
    simp only [totalLive, List.length_append, List.length_singleton] at this ⊢
    omega
  ghosts1 := room.ghosts1
  ghosts2 := room.ghosts2
  target := room.target

theorem Room.push_t2 {key : K} {s : ArcCacheInner K V} (room : Room key s) (value : V) :
    Wellformed { s with t2 := s.t2 ++ [(key, value)] } where
  distinct := push_t2_directory s key value ▸ room.distinct
  positive := room.positive
  live := by
    have := room.live
    simp only [totalLive, List.length_append, List.length_singleton] at this ⊢
    omega
  ghosts1 := room.ghosts1
  ghosts2 := room.ghosts2
  target := room.target

@[simp] theorem replace_capacity (s : ArcCacheInner K V) : (replace s).capacity = s.capacity := by
  rcases replace_cases s with ⟨k, v, rest, _, _, hr⟩ | ⟨k, v, rest, _, _, hr⟩ | ⟨_, _, hr⟩ <;>
    rw [hr]

theorem totalLive_replace (s : ArcCacheInner K V) :
    totalLive (replace s) = totalLive s - 1 := by
  rcases replace_cases s with ⟨k, v, rest, ht, _, hr⟩ | ⟨k, v, rest, ht, _, hr⟩ | ⟨h1, h2, hr⟩
  · simp only [hr, totalLive, ht, List.length_cons]
    omega
  · simp only [hr, totalLive, ht, List.length_cons]
    omega
  · simp [hr, totalLive, h1, h2]

theorem replace_wellformed {s : ArcCacheInner K V} (wf : Wellformed s) :
    Wellformed (replace s) where
  distinct := Multiset.nodup_of_le (replace_directory_le s) wf.distinct
  positive := replace_capacity s ▸ wf.positive
  live := by
    have := wf.live
    simp only [totalLive_replace, replace_capacity]
    omega
  ghosts1 := by
    have grown := fun k => pushGhost_length_le wf.positive wf.ghosts1 k
    have kept := wf.ghosts1
    rcases replace_cases s with ⟨k, v, rest, _, _, hr⟩ | ⟨k, v, rest, _, _, hr⟩ | ⟨_, _, hr⟩ <;>
      simp only [hr, grown, kept]
  ghosts2 := by
    have grown := fun k => pushGhost_length_le wf.positive wf.ghosts2 k
    have kept := wf.ghosts2
    rcases replace_cases s with ⟨k, v, rest, _, _, hr⟩ | ⟨k, v, rest, _, _, hr⟩ | ⟨_, _, hr⟩ <;>
      simp only [hr, grown, kept]
  target := by
    have kept := wf.target
    rcases replace_cases s with ⟨k, v, rest, _, _, hr⟩ | ⟨k, v, rest, _, _, hr⟩ | ⟨_, _, hr⟩ <;>
      simp only [hr, kept]

theorem replace_room {s : ArcCacheInner K V} (wf : Wellformed s) {key : K}
    (fresh : key ∉ directory s) : Room key (replace s) where
  distinct := Multiset.nodup_cons.mpr
    ⟨fun h => fresh (Multiset.mem_of_le (replace_directory_le s) h),
      (replace_wellformed wf).distinct⟩
  positive := (replace_wellformed wf).positive
  live := by
    have := wf.live
    have := wf.positive
    simp only [totalLive_replace, replace_capacity]
    omega
  ghosts1 := (replace_wellformed wf).ghosts1
  ghosts2 := (replace_wellformed wf).ghosts2
  target := (replace_wellformed wf).target

theorem room_of_not_full {s : ArcCacheInner K V} (wf : Wellformed s) {key : K}
    (fresh : key ∉ directory s) (notFull : totalLive s < s.capacity) : Room key s where
  distinct := Multiset.nodup_cons.mpr ⟨fresh, wf.distinct⟩
  positive := wf.positive
  live := notFull
  ghosts1 := wf.ghosts1
  ghosts2 := wf.ghosts2
  target := wf.target

theorem makeRoom_room {s : ArcCacheInner K V} (wf : Wellformed s) {key : K}
    (fresh : key ∉ directory s) : Room key (makeRoom s) := by
  by_cases full : totalLive s ≥ s.capacity
  · simpa only [makeRoom, if_pos full] using replace_room wf fresh
  · simpa only [makeRoom, if_neg full] using room_of_not_full wf fresh (Nat.not_le.mp full)

/-! ## The operations keep the invariant -/

theorem retainFrom_sublist (f : List (K × V) → K × V → Bool) (seen l : List (K × V)) :
    (retainFrom f seen l).Sublist l := by
  induction l generalizing seen with
  | nil => exact List.Sublist.refl []
  | cons e rest ih =>
    rw [retainFrom]
    split
    · exact (ih (seen ++ [e])).cons_cons e
    · exact (ih (seen ++ [e])).cons e

theorem keys_sublist {xs ys : List (K × V)} (h : xs.Sublist ys) :
    (keys xs).Sublist (keys ys) := h.map Prod.fst

theorem retain_wellformed {s : ArcCacheInner K V} (wf : Wellformed s)
    (f : List (K × V) → K × V → Bool) : Wellformed (retain s f).1 where
  distinct := by
    have h1 := Multiset.coe_le.mpr (keys_sublist (retainFrom_sublist f [] s.t1)).subperm
    have h2 := Multiset.coe_le.mpr (keys_sublist (retainFrom_sublist f s.t1 s.t2)).subperm
    apply Multiset.nodup_of_le _ wf.distinct
    simp only [retain, directory]
    gcongr
  positive := wf.positive
  live := by
    have h1 := (retainFrom_sublist f [] s.t1).length_le
    have h2 := (retainFrom_sublist f s.t1 s.t2).length_le
    have := wf.live
    simp only [retain, totalLive] at this ⊢
    omega
  ghosts1 := wf.ghosts1
  ghosts2 := wf.ghosts2
  target := wf.target

variable [DecidableEq K]

theorem get_cases (s : ArcCacheInner K V) (key : K) :
    (∃ v xs ys, s.t1 = xs ++ (key, v) :: ys ∧
      get s key = ({ s with t1 := xs ++ ys, t2 := s.t2 ++ [(key, v)] }, some (v, .recency))) ∨
    (key ∉ keys s.t1 ∧ ∃ v xs ys, s.t2 = xs ++ (key, v) :: ys ∧
      get s key = ({ s with t2 := xs ++ ys ++ [(key, v)] }, some (v, .frequency))) ∨
    (key ∉ keys s.t1 ∧ key ∉ keys s.t2 ∧ get s key = (s, none)) := by
  cases h1 : s.t1.find? (fun e => e.1 = key) with
  | some e =>
    obtain ⟨xs, ys, hl, hk, _, he⟩ := find_split h1
    obtain ⟨k, v⟩ := e
    obtain rfl : k = key := hk
    exact Or.inl ⟨v, xs, ys, hl, by simp only [get, h1, he]⟩
  | none =>
    have absent1 := find_none_iff.mp h1
    cases h2 : s.t2.find? (fun e => e.1 = key) with
    | some e =>
      obtain ⟨xs, ys, hl, hk, _, he⟩ := find_split h2
      obtain ⟨k, v⟩ := e
      obtain rfl : k = key := hk
      exact Or.inr (Or.inl ⟨absent1, v, xs, ys, hl, by simp only [get, h1, h2, he]⟩)
    | none => exact Or.inr (Or.inr ⟨absent1, find_none_iff.mp h2, by simp only [get, h1, h2]⟩)

theorem get_directory (s : ArcCacheInner K V) (key : K) :
    directory (get s key).1 = directory s := by
  rcases get_cases s key with ⟨v, xs, ys, ht, hg⟩ | ⟨_, v, xs, ys, ht, hg⟩ | ⟨_, _, hg⟩
  · simp only [hg, directory_eq_coe, Multiset.coe_eq_coe, ht]
    simp only [keys_append, keys_cons, keys_nil, List.append_assoc, List.cons_append,
      List.nil_append]
    refine List.Perm.append_left _ ?_
    rw [← List.append_assoc, ← List.append_assoc (keys ys)]
    exact List.perm_middle
  · simp only [hg, directory_eq_coe, Multiset.coe_eq_coe, ht]
    simp only [keys_append, keys_cons, keys_nil, List.append_assoc, List.cons_append,
      List.nil_append]
    refine List.Perm.append_left _ (List.Perm.append_left _ ?_)
    exact List.perm_middle
  · rw [hg]

theorem get_totalLive (s : ArcCacheInner K V) (key : K) :
    totalLive (get s key).1 = totalLive s := by
  rcases get_cases s key with ⟨v, xs, ys, ht, hg⟩ | ⟨_, v, xs, ys, ht, hg⟩ | ⟨_, _, hg⟩
  · simp only [hg, totalLive, ht, List.length_append, List.length_cons, List.length_nil]
    omega
  · simp only [hg, totalLive, ht, List.length_append, List.length_cons, List.length_nil]
    omega
  · rw [hg]

theorem get_frame (s : ArcCacheInner K V) (key : K) :
    (get s key).1.capacity = s.capacity ∧ (get s key).1.p = s.p ∧
      (get s key).1.b1 = s.b1 ∧ (get s key).1.b2 = s.b2 := by
  rcases get_cases s key with ⟨v, xs, ys, _, hg⟩ | ⟨_, v, xs, ys, _, hg⟩ | ⟨_, _, hg⟩ <;>
    simp only [hg, and_self]

theorem get_wellformed {s : ArcCacheInner K V} (wf : Wellformed s) (key : K) :
    Wellformed (get s key).1 := by
  obtain ⟨hc, hp, h1, h2⟩ := get_frame s key
  constructor
  · exact get_directory s key ▸ wf.distinct
  · exact hc ▸ wf.positive
  · exact hc ▸ get_totalLive s key ▸ wf.live
  · exact hc ▸ h1 ▸ wf.ghosts1
  · exact hc ▸ h2 ▸ wf.ghosts2
  · exact hc ▸ hp ▸ wf.target

theorem insert_cases (s : ArcCacheInner K V) (key : K) (value : V) :
    ((key ∈ keys s.t1 ∨ key ∈ keys s.t2) ∧
      insert s key value =
        { (get s key).1 with t2 := setLast key value (get s key).1.t2 }) ∨
    (key ∉ keys s.t1 ∧ key ∉ keys s.t2 ∧ key ∈ s.b1 ∧
      insert s key value = insertGhostB1 s key value) ∨
    (key ∉ keys s.t1 ∧ key ∉ keys s.t2 ∧ key ∈ s.b2 ∧
      insert s key value = insertGhostB2 s key value) ∨
    (key ∉ directory s ∧ insert s key value = insertMiss s key value) := by
  rcases get_cases s key with ⟨v, xs, ys, ht, hg⟩ | ⟨_, v, xs, ys, ht, hg⟩ | ⟨h1, h2, hg⟩
  · exact Or.inl ⟨Or.inl (by simp [ht]), by simp only [insert, hg]⟩
  · exact Or.inl ⟨Or.inr (by simp [ht]), by simp only [insert, hg]⟩
  · by_cases hb1 : key ∈ s.b1
    · exact Or.inr (Or.inl ⟨h1, h2, hb1, by simp only [insert, hg, if_pos hb1]⟩)
    · by_cases hb2 : key ∈ s.b2
      · exact Or.inr (Or.inr (Or.inl ⟨h1, h2, hb2,
          by simp only [insert, hg, if_neg hb1, if_pos hb2]⟩))
      · refine Or.inr (Or.inr (Or.inr ⟨?_, by simp only [insert, hg, if_neg hb1, if_neg hb2]⟩))
        rw [mem_directory]
        rintro (h | h | h | h)
        · exact h1 h
        · exact h2 h
        · exact hb1 h
        · exact hb2 h

theorem leaveB1_directory {s : ArcCacheInner K V} {key : K} (h : key ∈ s.b1) :
    key ::ₘ directory (leaveB1 s key) = directory s := by
  simp only [directory, leaveB1, ← Multiset.coe_erase]
  rw [← Multiset.cons_add, ← Multiset.add_cons, Multiset.cons_erase (Multiset.mem_coe.mpr h)]

theorem leaveB2_directory {s : ArcCacheInner K V} {key : K} (h : key ∈ s.b2) :
    key ::ₘ directory (leaveB2 s key) = directory s := by
  simp only [directory, leaveB2, ← Multiset.coe_erase]
  rw [← Multiset.add_cons, Multiset.cons_erase (Multiset.mem_coe.mpr h)]

theorem leaveB1_wellformed {s : ArcCacheInner K V} (wf : Wellformed s) {key : K}
    (h : key ∈ s.b1) : Wellformed (leaveB1 s key) ∧ key ∉ directory (leaveB1 s key) := by
  have parts := Multiset.nodup_cons.mp (leaveB1_directory h ▸ wf.distinct)
  refine ⟨⟨parts.2, wf.positive, wf.live, ?_, wf.ghosts2, Nat.min_le_right _ _⟩, parts.1⟩
  exact Nat.le_trans List.erase_sublist.length_le wf.ghosts1

theorem leaveB2_wellformed {s : ArcCacheInner K V} (wf : Wellformed s) {key : K}
    (h : key ∈ s.b2) : Wellformed (leaveB2 s key) ∧ key ∉ directory (leaveB2 s key) := by
  have parts := Multiset.nodup_cons.mp (leaveB2_directory h ▸ wf.distinct)
  refine ⟨⟨parts.2, wf.positive, wf.live, wf.ghosts1, ?_, ?_⟩, parts.1⟩
  · exact Nat.le_trans List.erase_sublist.length_le wf.ghosts2
  · exact Nat.le_trans (Nat.sub_le _ _) wf.target

omit [DecidableEq K] in
theorem trim_wellformed {s : ArcCacheInner K V} (wf : Wellformed s) :
    Wellformed { s with b1 := s.b1.tail } ∧ Wellformed { s with b2 := s.b2.tail } := by
  have shorter : ∀ b : List K, (b.tail : Multiset K) ≤ b := fun b =>
    Multiset.coe_le.mpr (List.tail_sublist b).subperm
  have fewer : ∀ b : List K, b.length ≤ s.capacity → b.tail.length ≤ s.capacity := fun b h =>
    Nat.le_trans (List.tail_sublist b).length_le h
  constructor
  · refine ⟨Multiset.nodup_of_le ?_ wf.distinct, wf.positive, wf.live, fewer _ wf.ghosts1,
      wf.ghosts2, wf.target⟩
    have := shorter s.b1
    simp only [directory]
    gcongr
  · refine ⟨Multiset.nodup_of_le ?_ wf.distinct, wf.positive, wf.live, wf.ghosts1,
      fewer _ wf.ghosts2, wf.target⟩
    have := shorter s.b2
    simp only [directory]
    gcongr

omit [DecidableEq K] in
theorem missRoom_directory_le (s : ArcCacheInner K V) : directory (missRoom s) ≤ directory s := by
  have shorter : ∀ b : List K, (b.tail : Multiset K) ≤ b := fun b =>
    Multiset.coe_le.mpr (List.tail_sublist b).subperm
  simp only [missRoom]
  split
  · exact replace_directory_le s
  · split
    · split
      · have := shorter s.b1
        simp only [directory]
        gcongr
      · have := shorter s.b2
        simp only [directory]
        gcongr
    · exact le_rfl

omit [DecidableEq K] in
theorem missRoom_room {s : ArcCacheInner K V} (wf : Wellformed s) {key : K}
    (fresh : key ∉ directory s) : Room key (missRoom s) := by
  have stillFresh : key ∉ directory (missRoom s) := fun h =>
    fresh (Multiset.mem_of_le (missRoom_directory_le s) h)
  by_cases full : totalLive s ≥ s.capacity
  · simpa only [missRoom, if_pos full] using replace_room wf fresh
  · have notFull := Nat.not_le.mp full
    simp only [missRoom, if_neg full] at stillFresh ⊢
    split at stillFresh
    · rename_i trims
      simp only [if_pos trims]
      split at stillFresh
      · rename_i larger
        simpa only [if_pos larger] using
          room_of_not_full (trim_wellformed wf).1 stillFresh notFull
      · rename_i larger
        simpa only [if_neg larger] using
          room_of_not_full (trim_wellformed wf).2 stillFresh notFull
    · rename_i within
      simpa only [if_neg within] using room_of_not_full wf stillFresh notFull

theorem setLast_wellformed {s : ArcCacheInner K V} (wf : Wellformed s) (key : K) (value : V) :
    Wellformed { s with t2 := setLast key value s.t2 } where
  distinct := by
    have same : directory { s with t2 := setLast key value s.t2 } = directory s := by
      simp only [directory, keys_setLast]
    exact same ▸ wf.distinct
  positive := wf.positive
  live := by
    have := wf.live
    simpa only [totalLive, setLast_length] using this
  ghosts1 := wf.ghosts1
  ghosts2 := wf.ghosts2
  target := wf.target

theorem insert_wellformed {s : ArcCacheInner K V} (wf : Wellformed s) (key : K) (value : V) :
    Wellformed (insert s key value) := by
  rcases insert_cases s key value with
    ⟨_, hi⟩ | ⟨_, _, hb, hi⟩ | ⟨_, _, hb, hi⟩ | ⟨fresh, hi⟩
  · exact hi ▸ setLast_wellformed (get_wellformed wf key) key value
  · obtain ⟨left, absent⟩ := leaveB1_wellformed wf hb
    rw [hi]
    exact (makeRoom_room left absent).push_t2 value
  · obtain ⟨left, absent⟩ := leaveB2_wellformed wf hb
    rw [hi]
    exact (makeRoom_room left absent).push_t2 value
  · rw [hi]
    exact (missRoom_room wf fresh).push_t1 value

theorem step_wellformed {s : ArcCacheInner K V} (op : Op K V) (wf : Wellformed s) :
    Wellformed (step s op).1 := by
  cases op with
  | insert key value => exact insert_wellformed wf key value
  | get key => exact get_wellformed wf key
  | retain f => exact retain_wellformed wf f

theorem after_wellformed (c : Nat) (ops : List (Op K V)) : Wellformed (after c ops) :=
  final_invariant (fun _ op => step_wellformed op) (new_wellformed c) ops

omit [DecidableEq K] in
@[simp] theorem makeRoom_capacity (s : ArcCacheInner K V) :
    (makeRoom s).capacity = s.capacity := by
  simp only [makeRoom, apply_ite ArcCacheInner.capacity, replace_capacity, ite_self]

omit [DecidableEq K] in
@[simp] theorem missRoom_capacity (s : ArcCacheInner K V) :
    (missRoom s).capacity = s.capacity := by
  simp only [missRoom, apply_ite ArcCacheInner.capacity, replace_capacity, ite_self]

@[simp] theorem step_capacity (s : ArcCacheInner K V) (op : Op K V) :
    (step s op).1.capacity = s.capacity := by
  cases op with
  | insert key value =>
    change (insert s key value).capacity = s.capacity
    rcases insert_cases s key value with ⟨_, hi⟩ | ⟨_, _, _, hi⟩ | ⟨_, _, _, hi⟩ | ⟨_, hi⟩
    · rw [hi]
      exact (get_frame s key).1
    · rw [hi]
      exact makeRoom_capacity (leaveB1 s key)
    · rw [hi]
      exact makeRoom_capacity (leaveB2 s key)
    · rw [hi]
      exact missRoom_capacity s
  | get key => exact (get_frame s key).1
  | retain f => rfl

@[simp] theorem after_capacity (c : Nat) (ops : List (Op K V)) :
    (after c ops).capacity = max c 1 := by
  have keeps : ∀ (s : ArcCacheInner K V) (op : Op K V),
      s.capacity = max c 1 → (step s op).1.capacity = max c 1 :=
    fun s op h => (step_capacity s op).trans h
  exact final_invariant keeps rfl ops

/-- No key stands twice on the four lists together, and every list keeps its bound. -/
theorem arc_representation (c0 : Nat) (ops : List (Op K V)) :
    let s := after c0 ops
    let c := max c0 1
    (keys s.t1 ++ keys s.t2 ++ s.b1 ++ s.b2).Nodup ∧
      s.t1.length + s.t2.length ≤ c ∧ s.b1.length ≤ c ∧ s.b2.length ≤ c ∧ s.p ≤ c := by
  have wf := after_wellformed c0 ops
  have hc := after_capacity c0 ops
  exact ⟨wf.distinct, hc ▸ wf.live, hc ▸ wf.ghosts1, hc ▸ wf.ghosts2, hc ▸ wf.target⟩

end ArcCache
