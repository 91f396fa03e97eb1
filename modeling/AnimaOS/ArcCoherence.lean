import AnimaOS.ArcInvariant

/-!
# Coherence of the replacement cache with its history

The history lists the insertions of a run and the entries its `retain` calls
refused. Live entries are related to it by their current value: the last one
inserted under the key, not refused since.
-/

namespace ArcCache

open KeyedList Machine

universe u v

variable {K : Type u} {V : Type v}

def Live (s : ArcCacheInner K V) (k : K) (v : V) : Prop := (k, v) ∈ s.t1 ∨ (k, v) ∈ s.t2

inductive Event (K : Type u) (V : Type v) where
  | inserted (key : K) (value : V)
  | rejected (key : K) (value : V)

def rejections (s : ArcCacheInner K V) (f : List (K × V) → K × V → Bool) : List (K × V) :=
  rejectedFrom f [] s.t1 ++ rejectedFrom f s.t1 s.t2

def events (s : ArcCacheInner K V) : Op K V → List (Event K V)
  | .insert key value => [.inserted key value]
  | .get _ => []
  | .retain f => (rejections s f).map fun e => .rejected e.1 e.2

/-- `v` was inserted under `k`, nothing was inserted under `k` since, and no
`retain` refused the entry since. -/
def Current (h : List (Event K V)) (k : K) (v : V) : Prop :=
  ∃ earlier later, h = earlier ++ .inserted k v :: later ∧
    (∀ w, .inserted k w ∉ later) ∧ .rejected k v ∉ later

theorem current_inserted (h : List (Event K V)) (k : K) (v : V) :
    Current (h ++ [.inserted k v]) k v :=
  ⟨h, [], rfl, fun _ => List.not_mem_nil, List.not_mem_nil⟩

theorem Current.append {h : List (Event K V)} {k : K} {v : V} (current : Current h k v)
    {more : List (Event K V)} (noInsert : ∀ w, .inserted k w ∉ more)
    (noReject : .rejected k v ∉ more) : Current (h ++ more) k v := by
  obtain ⟨earlier, later, rfl, hi, hr⟩ := current
  refine ⟨earlier, later ++ more, by simp, ?_, ?_⟩
  · intro w hw
    exact (List.mem_append.mp hw).elim (hi w) (noInsert w)
  · intro hw
    exact (List.mem_append.mp hw).elim hr noReject

/-! ## Distinct live keys -/

theorem Wellformed.liveKeys {s : ArcCacheInner K V} (wf : Wellformed s) :
    (keys (s.t1 ++ s.t2)).Nodup := by
  have h : (keys s.t1 ++ keys s.t2 ++ s.b1 ++ s.b2).Nodup := wf.distinct
  rw [keys_append]
  exact ((List.nodup_append.mp (List.nodup_append.mp h).1).1)

theorem live_iff {s : ArcCacheInner K V} {k : K} {v : V} :
    Live s k v ↔ (k, v) ∈ s.t1 ++ s.t2 := List.mem_append.symm

theorem Wellformed.live_unique {s : ArcCacheInner K V} (wf : Wellformed s) {k : K} {v w : V}
    (hv : Live s k v) (hw : Live s k w) : v = w :=
  value_unique wf.liveKeys (live_iff.mp hv) (live_iff.mp hw)

theorem Wellformed.t1_not_t2 {s : ArcCacheInner K V} (wf : Wellformed s) {k : K}
    (h1 : k ∈ keys s.t1) : k ∉ keys s.t2 := by
  have h := wf.liveKeys
  rw [keys_append] at h
  exact fun h2 => (List.nodup_append.mp h).2.2 k h1 k h2 rfl

theorem Wellformed.t2_distinct {s : ArcCacheInner K V} (wf : Wellformed s) :
    (keys s.t2).Nodup := by
  have h := wf.liveKeys
  rw [keys_append] at h
  exact (List.nodup_append.mp h).2.1

theorem live_key_mem {s : ArcCacheInner K V} {k : K} {v : V} (h : Live s k v) :
    k ∈ keys s.t1 ∨ k ∈ keys s.t2 :=
  h.imp keys_mem keys_mem

/-! ## `retain` -/

theorem retainFrom_perm (f : List (K × V) → K × V → Bool) (seen l : List (K × V)) :
    (retainFrom f seen l ++ rejectedFrom f seen l).Perm l := by
  induction l generalizing seen with
  | nil => exact List.Perm.refl []
  | cons e rest ih =>
    simp only [retainFrom, rejectedFrom]
    split
    · exact (ih (seen ++ [e])).cons e
    · exact List.perm_middle.trans ((ih (seen ++ [e])).cons e)

theorem retain_live {s : ArcCacheInner K V} {f : List (K × V) → K × V → Bool} {k : K} {v : V}
    (h : Live (retain s f).1 k v) : Live s k v :=
  h.imp (fun h => (retainFrom_sublist f [] s.t1).subset h)
    (fun h => (retainFrom_sublist f s.t1 s.t2).subset h)

theorem retain_live_not_rejected {s : ArcCacheInner K V} (wf : Wellformed s)
    {f : List (K × V) → K × V → Bool} {k : K} {v : V} (h : Live (retain s f).1 k v) :
    (k, v) ∉ rejections s f := by
  have perm : ((retain s f).1.t1 ++ (retain s f).1.t2 ++ rejections s f).Perm
      (s.t1 ++ s.t2) := by
    have h1 := retainFrom_perm f [] s.t1
    have h2 := retainFrom_perm f s.t1 s.t2
    have regroup := (List.perm_append_comm_assoc (retainFrom f s.t1 s.t2)
      (rejectedFrom f [] s.t1) (rejectedFrom f s.t1 s.t2)).append_left (retainFrom f [] s.t1)
    simp only [retain, rejections, List.append_assoc] at regroup ⊢
    refine regroup.trans ?_
    rw [← List.append_assoc]
    exact h1.append h2
  have distinct : (s.t1 ++ s.t2).Nodup := wf.liveKeys.of_map Prod.fst
  exact fun refused =>
    (List.nodup_append.mp (perm.nodup_iff.mpr distinct)).2.2 _ (live_iff.mp h) _ refused rfl

variable [DecidableEq K]

/-! ## `get` -/

theorem live_get_iff (s : ArcCacheInner K V) (key k : K) (v : V) :
    Live (get s key).1 k v ↔ Live s k v := by
  rcases get_cases s key with ⟨w, xs, ys, ht, hg⟩ | ⟨_, w, xs, ys, ht, hg⟩ | ⟨_, _, hg⟩
  · simp only [Live, hg, ht, List.mem_append, List.mem_cons, List.not_mem_nil, or_false]
    tauto
  · simp only [Live, hg, ht, List.mem_append, List.mem_cons, List.not_mem_nil, or_false]
    tauto
  · rw [hg]

theorem get_some_live {s : ArcCacheInner K V} {key : K} {v : V} {hint : PromotionHint}
    (h : (get s key).2 = some (v, hint)) : Live s key v := by
  rcases get_cases s key with ⟨w, xs, ys, ht, hg⟩ | ⟨_, w, xs, ys, ht, hg⟩ | ⟨_, _, hg⟩
  · rw [hg] at h
    obtain rfl : w = v := congrArg Prod.fst (Option.some.inj h)
    exact Or.inl (by simp [ht])
  · rw [hg] at h
    obtain rfl : w = v := congrArg Prod.fst (Option.some.inj h)
    exact Or.inr (by simp [ht])
  · rw [hg] at h
    cases h

theorem live_get_some {s : ArcCacheInner K V} (wf : Wellformed s) {key : K} {v : V}
    (live : Live s key v) : ∃ hint, (get s key).2 = some (v, hint) := by
  rcases get_cases s key with ⟨w, xs, ys, ht, hg⟩ | ⟨_, w, xs, ys, ht, hg⟩ | ⟨h1, h2, _⟩
  · have found : Live s key w := Or.inl (by simp [ht])
    exact ⟨.recency, by rw [hg, wf.live_unique live found]⟩
  · have found : Live s key w := Or.inr (by simp [ht])
    exact ⟨.frequency, by rw [hg, wf.live_unique live found]⟩
  · exact ((live_key_mem live).elim h1 h2).elim

/-- After a `get` that finds it, the key stands on T2. -/
theorem get_moves_to_t2 {s : ArcCacheInner K V} {key : K}
    (found : key ∈ keys s.t1 ∨ key ∈ keys s.t2) : key ∈ keys (get s key).1.t2 := by
  rcases get_cases s key with ⟨w, xs, ys, _, hg⟩ | ⟨_, w, xs, ys, _, hg⟩ | ⟨h1, h2, _⟩
  · simp [hg]
  · simp [hg]
  · exact (found.elim h1 h2).elim

/-! ## `insert` -/

omit [DecidableEq K] in
theorem replace_live {s : ArcCacheInner K V} {k : K} {v : V} (h : Live (replace s) k v) :
    Live s k v := by
  rcases replace_cases s with ⟨_, _, rest, ht, _, hr⟩ | ⟨_, _, rest, ht, _, hr⟩ | ⟨_, _, hr⟩
  · rw [hr] at h
    exact h.imp_left fun h => ht ▸ List.mem_cons_of_mem _ h
  · rw [hr] at h
    exact h.imp_right fun h => ht ▸ List.mem_cons_of_mem _ h
  · exact hr ▸ h

omit [DecidableEq K] in
theorem makeRoom_live {s : ArcCacheInner K V} {k : K} {v : V} (h : Live (makeRoom s) k v) :
    Live s k v := by
  by_cases full : totalLive s ≥ s.capacity
  · simp only [makeRoom, if_pos full] at h
    exact replace_live h
  · simpa only [makeRoom, if_neg full] using h

omit [DecidableEq K] in
theorem missRoom_live {s : ArcCacheInner K V} {k : K} {v : V} (h : Live (missRoom s) k v) :
    Live s k v := by
  simp only [missRoom] at h
  split at h
  · exact replace_live h
  · split at h
    · split at h <;> exact h
    · exact h

/-- Below capacity neither path to a push drops a live entry. -/
theorem room_keeps_live {s : ArcCacheInner K V} (notFull : totalLive s < s.capacity) {k : K}
    {v : V} (live : Live s k v) :
    Live (missRoom s) k v ∧ ∀ key, Live (makeRoom (leaveB1 s key)) k v ∧
      Live (makeRoom (leaveB2 s key)) k v := by
  have below := Nat.not_le.mpr notFull
  refine ⟨?_, fun key => ⟨?_, ?_⟩⟩
  · simp only [missRoom, if_neg below]
    split
    · split <;> exact live
    · exact live
  · have same : makeRoom (leaveB1 s key) = leaveB1 s key := if_neg below
    rw [same]
    exact live
  · have same : makeRoom (leaveB2 s key) = leaveB2 s key := if_neg below
    rw [same]
    exact live

theorem insert_live_self (s : ArcCacheInner K V) (key : K) (value : V) :
    Live (insert s key value) key value := by
  rcases insert_cases s key value with ⟨found, hi⟩ | ⟨_, _, _, hi⟩ | ⟨_, _, _, hi⟩ | ⟨_, hi⟩
  · rw [hi]
    exact Or.inr (setLast_mem (get_moves_to_t2 found))
  · rw [hi]
    exact Or.inr (by simp [insertGhostB1])
  · rw [hi]
    exact Or.inr (by simp [insertGhostB2])
  · rw [hi]
    exact Or.inl (by simp [insertMiss])

/-- After an insertion the key holds the new value only, and every other live
entry was live before. -/
theorem live_insert {s : ArcCacheInner K V} (wf : Wellformed s) {key : K} {value : V}
    {k : K} {v : V} (h : Live (insert s key value) k v) :
    (k, v) = (key, value) ∨ (k ≠ key ∧ Live s k v) := by
  have pushed : (key ∉ keys s.t1 ∧ key ∉ keys s.t2) →
      (k, v) = (key, value) ∨ Live s k v → (k, v) = (key, value) ∨ (k ≠ key ∧ Live s k v) := by
    rintro ⟨h1, h2⟩ (same | live)
    · exact Or.inl same
    · refine Or.inr ⟨?_, live⟩
      rintro rfl
      exact (live_key_mem live).elim h1 h2
  rcases insert_cases s key value with ⟨found, hi⟩ | ⟨h1, h2, _, hi⟩ | ⟨h1, h2, _, hi⟩ |
    ⟨fresh, hi⟩
  · have wf' := get_wellformed wf key
    rw [hi] at h
    rcases h with h | h
    · refine Or.inr ⟨?_, (live_get_iff s key k v).mp (Or.inl h)⟩
      rintro rfl
      exact wf'.t1_not_t2 (keys_mem h) (get_moves_to_t2 found)
    · rcases mem_setLast wf'.t2_distinct h with same | ⟨hne, hm⟩
      · exact Or.inl same
      · exact Or.inr ⟨hne, (live_get_iff s key k v).mp (Or.inr hm)⟩
  · apply pushed ⟨h1, h2⟩
    rw [hi] at h
    rcases h with h | h
    · exact Or.inr (makeRoom_live (s := leaveB1 s key) (Or.inl h))
    · rcases List.mem_append.mp h with h | h
      · exact Or.inr (makeRoom_live (s := leaveB1 s key) (Or.inr h))
      · exact Or.inl (List.mem_singleton.mp h)
  · apply pushed ⟨h1, h2⟩
    rw [hi] at h
    rcases h with h | h
    · exact Or.inr (makeRoom_live (s := leaveB2 s key) (Or.inl h))
    · rcases List.mem_append.mp h with h | h
      · exact Or.inr (makeRoom_live (s := leaveB2 s key) (Or.inr h))
      · exact Or.inl (List.mem_singleton.mp h)
  · simp only [mem_directory, not_or] at fresh
    apply pushed ⟨fresh.1, fresh.2.1⟩
    rw [hi] at h
    rcases h with h | h
    · rcases List.mem_append.mp h with h | h
      · exact Or.inr (missRoom_live (Or.inl h))
      · exact Or.inl (List.mem_singleton.mp h)
    · exact Or.inr (missRoom_live (Or.inr h))

/-- An insertion that finds the live lists below capacity drops no live key. -/
theorem insert_keeps_live {s : ArcCacheInner K V} (notFull : totalLive s < s.capacity)
    (key : K) (value : V) {k : K} {v : V} (live : Live s k v) :
    ∃ w, Live (insert s key value) k w := by
  obtain ⟨miss, ghost⟩ := room_keeps_live notFull live
  rcases insert_cases s key value with ⟨_, hi⟩ | ⟨_, _, _, hi⟩ | ⟨_, _, _, hi⟩ | ⟨_, hi⟩
  · rcases (live_get_iff s key k v).mpr live with h | h
    · exact ⟨v, hi ▸ Or.inl h⟩
    · have stays : k ∈ keys (setLast key value (get s key).1.t2) := by
        rw [keys_setLast]
        exact keys_mem h
      obtain ⟨w, hw⟩ := mem_keys.mp stays
      exact ⟨w, hi ▸ Or.inr hw⟩
  · exact ⟨v, hi ▸ (ghost key).1.imp_right fun h => List.mem_append_left _ h⟩
  · exact ⟨v, hi ▸ (ghost key).2.imp_right fun h => List.mem_append_left _ h⟩
  · exact ⟨v, hi ▸ miss.imp_left fun h => List.mem_append_left _ h⟩

/-! ## Runs -/

def history (c : Nat) (ops : List (Op K V)) : List (Event K V) :=
  (trace step (new c) ops).flatMap fun call => events call.before call.request

theorem history_snoc (c : Nat) (ops : List (Op K V)) (op : Op K V) :
    history c (ops ++ [op]) = history c ops ++ events (after c ops) op := by
  simp only [history, trace_append, List.flatMap_append, trace, List.flatMap_cons,
    List.flatMap_nil, List.append_nil]

theorem step_current {s : ArcCacheInner K V} (wf : Wellformed s) (op : Op K V)
    {h : List (Event K V)} (current : ∀ k v, Live s k v → Current h k v) {k : K} {v : V}
    (live : Live (step s op).1 k v) : Current (h ++ events s op) k v := by
  cases op with
  | insert key value =>
    rcases live_insert wf live with same | ⟨hne, before⟩
    · obtain ⟨rfl, rfl⟩ := Prod.mk.inj same
      exact current_inserted h k v
    · refine (current k v before).append ?_ ?_
      · intro w hw
        simp only [events, List.mem_singleton, Event.inserted.injEq] at hw
        exact hne hw.1
      · simp [events]
  | get key =>
    have before := (live_get_iff s key k v).mp live
    exact (current k v before).append (by simp [events]) (by simp [events])
  | retain f =>
    refine (current k v (retain_live live)).append (by simp [events]) ?_
    intro refused
    obtain ⟨e, he, same⟩ := List.mem_map.mp refused
    obtain ⟨rfl, rfl⟩ := Event.rejected.inj same
    exact retain_live_not_rejected wf live he

theorem live_current (c : Nat) (ops : List (Op K V)) :
    ∀ k v, Live (after c ops) k v → Current (history c ops) k v := by
  induction ops using List.reverseRecOn with
  | nil =>
    rintro k v (h | h) <;> cases h
  | append_singleton ops op ih =>
    intro k v live
    rw [history_snoc]
    exact step_current (after_wellformed c ops) op ih (by rwa [after, final_snoc] at live)

/-- Coherence: what `get` answers is the current value of its key; an inserted
key is live with its value; `get` drops no live key; `insert` drops one only
when the live lists were full. -/
theorem arc_coherent (c : Nat) (ops : List (Op K V)) :
    let s := after c ops
    (∀ k v hint, (get s k).2 = some (v, hint) → Current (history c ops) k v) ∧
    (∀ k v, let s' := after c (ops ++ [.insert k v])
      Live s' k v ∧ ∃ hint, (get s' k).2 = some (v, hint)) ∧
    (∀ key k v, Live s k v → Live (get s key).1 k v) ∧
    (∀ key value k v, Live s k v → (∀ w, ¬ Live (insert s key value) k w) →
      s.t1.length + s.t2.length ≥ max c 1) := by
  intro s
  refine ⟨?_, ?_, ?_, ?_⟩
  · intro k v hint found
    exact live_current c ops k v (get_some_live found)
  · intro k v s'
    have same : s' = insert s k v := final_snoc step (new c) ops (.insert k v)
    have live : Live s' k v := same ▸ insert_live_self s k v
    exact ⟨live, live_get_some (after_wellformed c _) live⟩
  · intro key k v live
    exact (live_get_iff s key k v).mpr live
  · intro key value k v live gone
    by_contra below
    have notFull : totalLive s < s.capacity := by
      rw [after_capacity]
      exact Nat.not_le.mp below
    obtain ⟨w, hw⟩ := insert_keeps_live notFull key value live
    exact gone w hw

end ArcCache
