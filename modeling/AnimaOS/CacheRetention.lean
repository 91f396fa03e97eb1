import AnimaOS.ToolCacheHits

/-!
# Capacity, expiry and accounting of the tool cache

The cache under lookups and stores at arbitrary times. An entry stays findable
until an operation displaces it: a later store files over it or pushes it out, or
its time is up when it is read.
-/

namespace ToolCache

open FixedWidth KeyedList Machine

/-- The cache's own operations, each with the clock it reads. -/
inductive Operation where
  | get (toolId : String) (payload : List UInt8) (nowMs : Nat)
  | insert (toolId : String) (payload response : List UInt8) (nowMs : Nat) (iter : IterationOrder)
  | evictExpired (nowMs : Nat)
  | clear

def operate (config : CacheConfig) (s : ToolCacheInner) :
    Operation → ToolCacheInner × Option CacheEntry
  | .get toolId payload nowMs => get config s toolId payload nowMs
  | .insert toolId payload response nowMs iter =>
    (insert config s toolId payload response nowMs iter, none)
  | .evictExpired nowMs => ((evictExpired s nowMs).1, none)
  | .clear => (clear s, none)

def operated (config : CacheConfig) (s : ToolCacheInner) (ops : List Operation) : ToolCacheInner :=
  final (operate config) s ops

def CacheStats.totalLookups (stats : CacheStats) : Nat := wrap 64 (stats.hits + stats.misses)

/-! ## Capacity -/

theorem length_get (config : CacheConfig) (s : ToolCacheInner) (toolId : String)
    (payload : List UInt8) (now : Nat) :
    (get config s toolId payload now).1.entries.length ≤ s.entries.length := by
  simp only [get]
  split
  · exact Nat.le_refl _
  · split
    · split
      · exact List.length_filter_le _ _
      · split <;> exact Nat.le_refl _
    · exact Nat.le_refl _

theorem length_upsert_le (entries : Entries) (e : CacheKey × CacheEntry) :
    (upsert Prod.fst entries e).length ≤ entries.length + 1 := by
  simp only [upsert, List.length_append, List.length_singleton]
  exact Nat.succ_le_succ (List.length_filter_le _ _)

theorem length_upsert_found {entries : Entries} {key : CacheKey} (entry : CacheEntry)
    (found : find entries key ≠ none) :
    (upsert Prod.fst entries (key, entry)).length ≤ entries.length := by
  obtain ⟨old, at_⟩ := Option.ne_none_iff_exists'.mp found
  have fewer : (entries.filter fun a => a.1 ≠ key).length < entries.length :=
    List.length_filter_lt_length_iff_exists.mpr ⟨(key, old), find_mem at_, by simp⟩
  simp only [upsert, List.length_append, List.length_singleton]
  omega

theorem oldestKey_mem {entries : Entries} {iter : IterationOrder} {key : CacheKey}
    (h : oldestKey entries iter = some key) : ∃ e, (key, e) ∈ entries := by
  obtain ⟨⟨k, e⟩, least, rfl⟩ := Option.map_eq_some_iff.mp h
  exact ⟨e, (iter.rearranges entries).mem_iff.mp (List.argmin_mem least)⟩

theorem oldestKey_none {entries : Entries} {iter : IterationOrder}
    (h : oldestKey entries iter = none) : entries = [] := by
  have empty := List.argmin_eq_none.mp (Option.map_eq_none_iff.mp h)
  exact List.Perm.nil_eq (empty ▸ iter.rearranges entries) |>.symm

theorem length_makeRoom {config : CacheConfig} {s : ToolCacheInner} {key : CacheKey}
    (iter : IterationOrder) (some_ : config.maxEntries ≠ 0)
    (held : s.entries.length ≤ config.maxEntries) (fresh : find s.entries key = none) :
    (makeRoom config s key iter).entries.length < config.maxEntries := by
  simp only [makeRoom]
  split
  · cases oldest : oldestKey s.entries iter with
    | none =>
      have := oldestKey_none oldest
      simp only [this, List.length_nil]
      omega
    | some k =>
      obtain ⟨e, member⟩ := oldestKey_mem oldest
      have fewer : (remove s.entries k).length < s.entries.length :=
        List.length_filter_lt_length_iff_exists.mpr ⟨(k, e), member, by simp⟩
      show (remove s.entries k).length < config.maxEntries
      omega
  · rename_i room
    exact Nat.lt_of_not_le fun full => room ⟨full, fresh⟩

/-- An insertion that stores keeps within a capacity other than zero. -/
theorem length_insert {config : CacheConfig} {s : ToolCacheInner} (toolId : String)
    (payload response : List UInt8) (now : Nat) (iter : IterationOrder)
    (stores : config.maxEntries = 0 → config.isBypassed toolId = true)
    (held : s.entries.length ≤ config.maxEntries) :
    (insert config s toolId payload response now iter).entries.length ≤ config.maxEntries := by
  simp only [insert]
  split
  · exact held
  · rename_i served
    have some_ : config.maxEntries ≠ 0 := fun zero => served (stores zero)
    by_cases fresh : find s.entries (makeKey toolId payload) = none
    · have room := length_makeRoom iter some_ held fresh
      have := length_upsert_le (makeRoom config s (makeKey toolId payload) iter).entries
        (makeKey toolId payload, ⟨payload, response, wrap 64 (now + config.ttlFor toolId), now⟩)
      show (upsert Prod.fst _ _).length ≤ _
      omega
    · have same : makeRoom config s (makeKey toolId payload) iter = s := by
        simp only [makeRoom, if_neg (fun h : _ ∧ _ => fresh h.2)]
      rw [same]
      exact (length_upsert_found _ fresh).trans held

/-! ## Retention -/

/-- The operations that end an entry's stay: a store under its key, a store that
pushes it out, or a reading of it at or after `expires`. -/
def Displaces (config : CacheConfig) (s : ToolCacheInner) (key : CacheKey) (expires : Nat) :
    Operation → Prop
  | .get toolId payload now => makeKey toolId payload = key ∧ expires ≤ now
  | .insert toolId payload _ _ iter =>
    config.isBypassed toolId = false ∧
      (makeKey toolId payload = key ∨
        (config.maxEntries ≤ s.entries.length ∧ find s.entries (makeKey toolId payload) = none ∧
          oldestKey s.entries iter = some key))
  | .evictExpired now => expires ≤ now
  | .clear => True

def Undisplaced (config : CacheConfig) (key : CacheKey) (expires : Nat) :
    ToolCacheInner → List Operation → Prop
  | _, [] => True
  | s, op :: rest =>
    ¬ Displaces config s key expires op ∧
      Undisplaced config key expires (operate config s op).1 rest

theorem find_remove {entries : Entries} {key k : CacheKey} (apart : key ≠ k) :
    find (remove entries k) key = find entries key :=
  congrArg (Option.map Prod.snd) (findKey_remove Prod.fst apart entries)

theorem find_upsert_other {entries : Entries} {key : CacheKey} {e : CacheKey × CacheEntry}
    (apart : key ≠ e.1) : find (upsert Prod.fst entries e) key = find entries key :=
  congrArg (Option.map Prod.snd) (findKey_upsert_other Prod.fst apart entries)

theorem find_upsert_self (entries : Entries) (key : CacheKey) (e : CacheEntry) :
    find (upsert Prod.fst entries (key, e)) key = some e :=
  congrArg (Option.map Prod.snd) (findKey_upsert_self Prod.fst entries (key, e))

theorem find_filter {entries : Entries} {key : CacheKey} {e : CacheEntry}
    {keep : CacheKey × CacheEntry → Bool} (found : find entries key = some e)
    (kept : keep (key, e) = true) : find (entries.filter keep) key = some e := by
  obtain ⟨⟨k, e'⟩, at_, rfl⟩ := Option.map_eq_some_iff.mp found
  have named : k = key := by simpa using List.find?_some at_
  subst named
  exact congrArg (Option.map Prod.snd) (findKey_filter Prod.fst at_ kept)

theorem find_get {config : CacheConfig} {s : ToolCacheInner} {key : CacheKey} {e : CacheEntry}
    {toolId : String} {payload : List UInt8} {now : Nat} (found : find s.entries key = some e)
    (stays : ¬ (makeKey toolId payload = key ∧ e.expiresAtMs ≤ now)) :
    find (get config s toolId payload now).1.entries key = some e := by
  simp only [get]
  split
  · exact found
  · split
    · rename_i read at_
      split
      · rename_i expired
        have apart : key ≠ makeKey toolId payload := by
          rintro rfl
          have same : read = e := Option.some.inj (at_.symm.trans found)
          subst same
          exact stays ⟨rfl, by simpa [CacheEntry.isExpired] using expired⟩
        exact (find_remove apart).trans found
      · split <;> exact found
    · exact found

theorem find_makeRoom {config : CacheConfig} {s : ToolCacheInner} {key fresh : CacheKey}
    {e : CacheEntry} {iter : IterationOrder} (found : find s.entries key = some e)
    (stays : ¬ (config.maxEntries ≤ s.entries.length ∧ find s.entries fresh = none ∧
      oldestKey s.entries iter = some key)) :
    find (makeRoom config s fresh iter).entries key = some e := by
  simp only [makeRoom]
  split
  · rename_i full
    cases oldest : oldestKey s.entries iter with
    | none => exact found
    | some k =>
      have apart : key ≠ k := by
        rintro rfl
        exact stays ⟨full.1, full.2, oldest⟩
      exact (find_remove apart).trans found
  · exact found

theorem find_operate {config : CacheConfig} {s : ToolCacheInner} {key : CacheKey} {e : CacheEntry}
    {op : Operation} (found : find s.entries key = some e)
    (stays : ¬ Displaces config s key e.expiresAtMs op) :
    find (operate config s op).1.entries key = some e := by
  cases op with
  | get toolId payload now => exact find_get found stays
  | insert toolId payload response now iter =>
    simp only [operate, insert]
    split
    · exact found
    · rename_i served
      have served : config.isBypassed toolId = false := by simpa using served
      have apart : key ≠ makeKey toolId payload := fun same => stays ⟨served, .inl same.symm⟩
      refine (find_upsert_other apart).trans (find_makeRoom found ?_)
      exact fun pushed => stays ⟨served, .inr pushed⟩
  | evictExpired now =>
    refine find_filter found ?_
    simpa [CacheEntry.isExpired, Displaces] using stays
  | clear => exact absurd trivial stays

theorem find_operated {config : CacheConfig} {s : ToolCacheInner} {key : CacheKey} {e : CacheEntry}
    {ops : List Operation} (found : find s.entries key = some e)
    (stays : Undisplaced config key e.expiresAtMs s ops) :
    find (operated config s ops).entries key = some e := by
  induction ops generalizing s with
  | nil => exact found
  | cons op rest ih => exact ih (find_operate found stays.1) stays.2

theorem find_insert (config : CacheConfig) (s : ToolCacheInner) {toolId : String}
    (payload response : List UInt8) (now : Nat) (iter : IterationOrder)
    (served : config.isBypassed toolId = false) :
    find (insert config s toolId payload response now iter).entries (makeKey toolId payload) =
      some ⟨payload, response, wrap 64 (now + config.ttlFor toolId), now⟩ := by
  simp only [insert, served, Bool.false_eq_true, if_false]
  exact find_upsert_self _ _ _

theorem get_fresh {config : CacheConfig} {s : ToolCacheInner} {toolId : String}
    {payload : List UInt8} {now : Nat} {e : CacheEntry}
    (served : config.isBypassed toolId = false)
    (found : find s.entries (makeKey toolId payload) = some e) (same : e.payload = payload)
    (fresh : now < e.expiresAtMs) : (get config s toolId payload now).2 = some e := by
  have live : e.isExpired now = false := by simpa [CacheEntry.isExpired] using fresh
  simp [get, served, found, live, same]

/-! ## Accounting -/

def isLookup : Operation → Bool
  | .get _ _ _ => true
  | _ => false

/-- A lookup that reaches the store. -/
def isConsulted (config : CacheConfig) : Operation → Bool
  | .get toolId _ _ => !config.isBypassed toolId
  | _ => false

def lookups (ops : List Operation) : Nat := ops.countP isLookup

def consulted (config : CacheConfig) (ops : List Operation) : Nat := ops.countP (isConsulted config)

theorem consulted_le_lookups (config : CacheConfig) (ops : List Operation) :
    consulted config ops ≤ lookups ops := by
  refine List.countP_mono_left ?_
  rintro (_ | _ | _ | _) _ h <;> first | rfl | exact absurd h Bool.false_ne_true

theorem total_get (config : CacheConfig) (s : ToolCacheInner) {toolId : String}
    (payload : List UInt8) (now : Nat) (served : config.isBypassed toolId = false) :
    (get config s toolId payload now).1.stats.totalLookups =
      wrap 64 (s.stats.hits + s.stats.misses + 1) := by
  have hit : wrap 64 (wrap 64 (s.stats.hits + 1) + s.stats.misses) =
      wrap 64 (s.stats.hits + s.stats.misses + 1) := by
    simp only [wrap]
    omega
  have miss : wrap 64 (s.stats.hits + wrap 64 (s.stats.misses + 1)) =
      wrap 64 (s.stats.hits + s.stats.misses + 1) := by
    simp only [wrap]
    omega
  simp only [get, served, Bool.false_eq_true, if_false]
  split
  · split
    · exact miss
    · split
      · exact hit
      · exact miss
  · exact miss

theorem makeRoom_counters (config : CacheConfig) (s : ToolCacheInner) (key : CacheKey)
    (iter : IterationOrder) :
    (makeRoom config s key iter).stats.hits = s.stats.hits ∧
      (makeRoom config s key iter).stats.misses = s.stats.misses := by
  simp only [makeRoom]
  split
  · split <;> exact ⟨rfl, rfl⟩
  · exact ⟨rfl, rfl⟩

theorem insert_counters (config : CacheConfig) (s : ToolCacheInner) (toolId : String)
    (payload response : List UInt8) (now : Nat) (iter : IterationOrder) :
    (insert config s toolId payload response now iter).stats.hits = s.stats.hits ∧
      (insert config s toolId payload response now iter).stats.misses = s.stats.misses := by
  simp only [insert]
  split
  · exact ⟨rfl, rfl⟩
  · exact makeRoom_counters config s _ iter

theorem total_operate (config : CacheConfig) (s : ToolCacheInner) (op : Operation) :
    (operate config s op).1.stats.totalLookups =
      wrap 64 (s.stats.hits + s.stats.misses + consulted config [op]) := by
  cases op with
  | get toolId payload now =>
    cases bypassed : config.isBypassed toolId with
    | true =>
      have idle : consulted config [.get toolId payload now] = 0 := by
        simp [consulted, isConsulted, bypassed]
      have same : operate config s (.get toolId payload now) = (s, none) := by
        simp [operate, get, bypassed]
      rw [idle, same, Nat.add_zero]
      rfl
    | false =>
      have counts : consulted config [.get toolId payload now] = 1 := by
        simp [consulted, isConsulted, bypassed]
      rw [counts]
      exact total_get config s payload now bypassed
  | insert toolId payload response now iter =>
    obtain ⟨hits, misses⟩ := insert_counters config s toolId payload response now iter
    show wrap 64 (_ + _) = wrap 64 (_ + _ + 0)
    rw [Nat.add_zero, ← hits, ← misses]
    rfl
  | evictExpired now => rfl
  | clear => rfl

theorem total_operated (config : CacheConfig) (s : ToolCacheInner) (ops : List Operation) :
    (operated config s ops).stats.totalLookups =
      wrap 64 (s.stats.hits + s.stats.misses + consulted config ops) := by
  induction ops generalizing s with
  | nil => rfl
  | cons op rest ih =>
    have first := total_operate config s op
    have more := ih (operate config s op).1
    have split : consulted config (op :: rest) = consulted config [op] + consulted config rest := by
      simp only [consulted, List.countP_cons, List.countP_nil]
      omega
    simp only [CacheStats.totalLookups, wrap] at first more ⊢
    rw [split]
    show ((operated config (operate config s op).1 rest).stats.hits +
      (operated config (operate config s op).1 rest).stats.misses) % 2 ^ 64 = _
    omega

/-! ## Whole runs -/

/-- What the cache promises over a run of its operations. -/
structure CacheSound (config : CacheConfig) (ops : List Operation) : Prop where
  capacity : ∀ before after, ops = before ++ after →
    (operated config new before).entries.length ≤ config.maxEntries
  expiry : ∀ toolId payload response now iter, .insert toolId payload response now iter ∈ ops →
    config.isBypassed toolId = false → now + config.ttlFor toolId < 2 ^ 64
  retained : ∀ before toolId payload response stored iter between after,
    ops = before ++ .insert toolId payload response stored iter :: (between ++ after) →
    config.isBypassed toolId = false →
    Undisplaced config (makeKey toolId payload) (stored + config.ttlFor toolId)
      (operated config new (before ++ [.insert toolId payload response stored iter])) between →
    ∀ now, stored ≤ now → now < stored + config.ttlFor toolId →
      ∃ e, (get config
          (operated config new (before ++ .insert toolId payload response stored iter :: between))
          toolId payload now).2 = some e ∧ e.payload = payload ∧ e.response = response
  counted : ∀ before after, ops = before ++ after →
    (operated config new before).stats.totalLookups = lookups before

/-- The inputs under which it keeps them. -/
structure CacheProvided (config : CacheConfig) (ops : List Operation) : Prop where
  room : config.maxEntries = 0 → ∀ toolId payload response now iter,
    .insert toolId payload response now iter ∈ ops → config.isBypassed toolId = true
  expiry : ∀ toolId payload response now iter, .insert toolId payload response now iter ∈ ops →
    config.isBypassed toolId = false → now + config.ttlFor toolId < 2 ^ 64
  cached : ∀ toolId payload now, .get toolId payload now ∈ ops → config.isBypassed toolId = false
  few : lookups ops < 2 ^ 64

theorem operated_append (config : CacheConfig) (s : ToolCacheInner) (xs ys : List Operation) :
    operated config s (xs ++ ys) = operated config (operated config s xs) ys :=
  final_append (operate config) s xs ys

theorem length_operate {config : CacheConfig} {s : ToolCacheInner} {op : Operation}
    (room : config.maxEntries = 0 → ∀ toolId payload response now iter,
      op = .insert toolId payload response now iter → config.isBypassed toolId = true)
    (held : s.entries.length ≤ config.maxEntries) :
    (operate config s op).1.entries.length ≤ config.maxEntries := by
  cases op with
  | get toolId payload now => exact (length_get config s toolId payload now).trans held
  | insert toolId payload response now iter =>
    exact length_insert toolId payload response now iter
      (fun zero => room zero toolId payload response now iter rfl) held
  | evictExpired now => exact (List.length_filter_le _ _).trans held
  | clear => exact Nat.zero_le _

theorem length_operated {config : CacheConfig} {s : ToolCacheInner} {ops : List Operation}
    (room : config.maxEntries = 0 → ∀ toolId payload response now iter,
      .insert toolId payload response now iter ∈ ops → config.isBypassed toolId = true)
    (held : s.entries.length ≤ config.maxEntries) :
    (operated config s ops).entries.length ≤ config.maxEntries := by
  induction ops generalizing s with
  | nil => exact held
  | cons op rest ih =>
    refine ih (fun zero _ _ _ _ _ member => room zero _ _ _ _ _ (List.mem_cons_of_mem _ member))
      (length_operate ?_ held)
    rintro zero _ _ _ _ _ rfl
    exact room zero _ _ _ _ _ List.mem_cons_self

theorem CacheProvided.retained {config : CacheConfig} {ops : List Operation}
    (h : CacheProvided config ops) {before between after : List Operation} {toolId : String}
    {payload response : List UInt8} {stored now : Nat} {iter : IterationOrder}
    (split : ops = before ++ .insert toolId payload response stored iter :: (between ++ after))
    (served : config.isBypassed toolId = false)
    (stays : Undisplaced config (makeKey toolId payload) (stored + config.ttlFor toolId)
      (operated config new (before ++ [.insert toolId payload response stored iter])) between)
    (live : now < stored + config.ttlFor toolId) :
    ∃ e, (get config
        (operated config new (before ++ .insert toolId payload response stored iter :: between))
        toolId payload now).2 = some e ∧ e.payload = payload ∧ e.response = response := by
  have fits : wrap 64 (stored + config.ttlFor toolId) = stored + config.ttlFor toolId :=
    Nat.mod_eq_of_lt (h.expiry toolId payload response stored iter (by simp [split]) served)
  have filed := find_insert config (operated config new before) payload response stored iter served
  rw [fits] at filed
  rw [operated_append] at stays ⊢
  have kept := find_operated filed stays
  exact ⟨_, get_fresh served kept rfl live, rfl, rfl⟩

theorem CacheProvided.sound {config : CacheConfig} {ops : List Operation}
    (h : CacheProvided config ops) : CacheSound config ops where
  capacity := by
    rintro before after rfl
    refine length_operated ?_ (Nat.zero_le _)
    exact fun zero _ _ _ _ _ member => h.room zero _ _ _ _ _ (List.mem_append_left after member)
  expiry := h.expiry
  retained := fun _ _ _ _ _ _ _ _ split served stays _ _ live => h.retained split served stays live
  counted := by
    rintro before after rfl
    have all : consulted config before = lookups before := by
      refine List.countP_congr ?_
      rintro (⟨toolId, payload, now⟩ | _ | _ | _) member
      · simp [isConsulted, isLookup, h.cached toolId payload now (List.mem_append_left after member)]
      all_goals rfl
    have few := h.few
    simp only [lookups, List.countP_append] at few
    rw [total_operated, all]
    exact (congrArg (wrap 64) (Nat.zero_add _)).trans (Nat.mod_eq_of_lt (by
      simp only [lookups]
      omega))

theorem CacheSound.room {config : CacheConfig} {ops : List Operation} (h : CacheSound config ops)
    (zero : config.maxEntries = 0) {toolId : String} {payload response : List UInt8} {now : Nat}
    {iter : IterationOrder} (member : .insert toolId payload response now iter ∈ ops) :
    config.isBypassed toolId = true := by
  by_contra served
  have served : config.isBypassed toolId = false := by simpa using served
  obtain ⟨before, after, rfl⟩ := List.append_of_mem member
  have empty := h.capacity (before ++ [.insert toolId payload response now iter]) after (by simp)
  rw [operated_append, zero, Nat.le_zero, List.length_eq_zero_iff] at empty
  have filed := find_insert config (operated config new before) payload response now iter served
  change find (operated config (operated config new before)
    [.insert toolId payload response now iter]).entries _ = _ at filed
  rw [empty] at filed
  cases filed

theorem CacheSound.lookups_exact {config : CacheConfig} {ops : List Operation}
    (h : CacheSound config ops) : consulted config ops = lookups ops ∧ lookups ops < 2 ^ 64 := by
  have total := h.counted ops [] (by simp)
  rw [total_operated] at total
  have total : wrap 64 (consulted config ops) = lookups ops :=
    (congrArg (wrap 64) (Nat.zero_add _)).symm.trans total
  have below : wrap 64 (consulted config ops) < 2 ^ 64 := Nat.mod_lt _ (Nat.two_pow_pos 64)
  have shrinks : wrap 64 (consulted config ops) ≤ consulted config ops := Nat.mod_le _ _
  have := consulted_le_lookups config ops
  omega

theorem CacheSound.provided {config : CacheConfig} {ops : List Operation}
    (h : CacheSound config ops) : CacheProvided config ops where
  room := fun zero _ _ _ _ _ member => h.room zero member
  expiry := h.expiry
  cached := by
    intro toolId payload now member
    obtain ⟨before, after, rfl⟩ := List.append_of_mem member
    have exact_ := h.lookups_exact.1
    have first := consulted_le_lookups config before
    have last := consulted_le_lookups config after
    simp only [consulted, lookups, List.countP_append, List.countP_cons] at exact_ first last
    cases bypassed : config.isBypassed toolId with
    | false => rfl
    | true =>
      simp only [isConsulted, bypassed, isLookup] at exact_
      simp at exact_
      omega
  few := h.lookups_exact.2

theorem tool_cache_sound_iff (config : CacheConfig) (ops : List Operation) :
    CacheSound config ops ↔ CacheProvided config ops :=
  ⟨CacheSound.provided, CacheProvided.sound⟩

/-- A cache for no entries keeps one. -/
theorem zero_capacity_keeps :
    ¬ CacheSound { CacheConfig.default with maxEntries := 0 }
      [.insert "echo" [1] [2] 1000 .asListed] := by
  intro h
  have := h.capacity [.insert "echo" [1] [2] 1000 .asListed] [] rfl
  exact absurd this (by decide +kernel)

end ToolCache
