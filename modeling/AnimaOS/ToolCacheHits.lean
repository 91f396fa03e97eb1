import AnimaOS.ToolCache
import Mathlib

/-!
# What a cache hit may answer

Every stored entry comes from a live dispatch that succeeded. The key it is filed
under cannot tell colliding payloads apart, so an entry is tied to its request by
the payload stored in it.
-/

namespace ToolCache

open FixedWidth KeyedList Machine ToolRegistry

/-- Some dispatch of `calls` invoked the tool, got `response` and stored it at `storedMs`. -/
def LiveSuccess (calls : List (Call ToolCacheInner Request Response)) (envelope : ToolEnvelope)
    (response : List UInt8) (storedMs : Nat) : Prop :=
  ∃ call ∈ calls, ∃ d, call.request = .dispatch d ∧ d.envelope = envelope ∧
    d.invoked = .ok response ∧ call.response = .answered (.ok response) .miss ∧
    d.storeMs = storedMs

theorem LiveSuccess.append {calls : List (Call ToolCacheInner Request Response)}
    {envelope : ToolEnvelope} {response : List UInt8} {storedMs : Nat}
    (live : LiveSuccess calls envelope response storedMs)
    (more : List (Call ToolCacheInner Request Response)) :
    LiveSuccess (calls ++ more) envelope response storedMs := by
  obtain ⟨call, member, rest⟩ := live
  exact ⟨call, List.mem_append_left more member, rest⟩

structure Sourced (config : CacheConfig) (calls : List (Call ToolCacheInner Request Response))
    (e : CacheKey × CacheEntry) : Prop where
  live : LiveSuccess calls ⟨e.1.1, e.2.payload⟩ e.2.response e.2.insertedAtMs
  expires : e.2.expiresAtMs ≤ e.2.insertedAtMs + config.ttlFor e.1.1

theorem Sourced.append {config : CacheConfig} {calls : List (Call ToolCacheInner Request Response)}
    {e : CacheKey × CacheEntry} (sourced : Sourced config calls e)
    (more : List (Call ToolCacheInner Request Response)) : Sourced config (calls ++ more) e :=
  ⟨sourced.live.append more, sourced.expires⟩

/-! ## What each operation does to the entries -/

theorem find_mem {entries : Entries} {key : CacheKey} {e : CacheEntry}
    (found : find entries key = some e) : (key, e) ∈ entries := by
  obtain ⟨⟨k, e'⟩, at', rfl⟩ := Option.map_eq_some_iff.mp found
  have same : k = key := by simpa using List.find?_some at'
  subst same
  exact List.mem_of_find?_eq_some at'

theorem get_entries {config : CacheConfig} {s : ToolCacheInner} {toolId : String}
    {payload : List UInt8} {now : Nat} {x : CacheKey × CacheEntry}
    (h : x ∈ (get config s toolId payload now).1.entries) : x ∈ s.entries := by
  simp only [get] at h
  split at h
  · exact h
  · split at h
    · split at h
      · exact List.mem_of_mem_filter h
      · split at h
        · exact h
        · exact h
    · exact h

theorem get_hit {config : CacheConfig} {s s' : ToolCacheInner} {toolId : String}
    {payload : List UInt8} {now : Nat} {e : CacheEntry}
    (h : get config s toolId payload now = (s', some e)) :
    (makeKey toolId payload, e) ∈ s.entries ∧ e.payload = payload ∧ now < e.expiresAtMs := by
  simp only [get] at h
  split at h
  · cases h
  · split at h
    · rename_i found
      split at h
      · cases h
      · rename_i fresh
        split at h
        · rename_i same
          cases h
          refine ⟨find_mem found, same, ?_⟩
          simpa [CacheEntry.isExpired] using fresh
        · cases h
    · cases h

theorem makeRoom_entries {config : CacheConfig} {s : ToolCacheInner} {key : CacheKey}
    {iter : IterationOrder} {x : CacheKey × CacheEntry}
    (h : x ∈ (makeRoom config s key iter).entries) : x ∈ s.entries := by
  simp only [makeRoom] at h
  split at h
  · split at h
    · exact List.mem_of_mem_filter h
    · exact h
  · exact h

theorem insert_entries {config : CacheConfig} {s : ToolCacheInner} {toolId : String}
    {payload response : List UInt8} {now : Nat} {iter : IterationOrder}
    {x : CacheKey × CacheEntry}
    (h : x ∈ (insert config s toolId payload response now iter).entries) :
    x ∈ s.entries ∨
      x = (makeKey toolId payload,
        ⟨payload, response, wrap 64 (now + config.ttlFor toolId), now⟩) := by
  simp only [insert] at h
  split at h
  · exact Or.inl h
  · simp only [upsert, List.mem_append, List.mem_singleton] at h
    rcases h with kept | added
    · exact Or.inl (makeRoom_entries (List.mem_of_mem_filter kept))
    · exact Or.inr added

theorem dispatch_entries {config : CacheConfig} {s : ToolCacheInner} {d : Dispatch}
    {x : CacheKey × CacheEntry} (h : x ∈ (dispatchWithOutcome config s d).1.entries) :
    x ∈ s.entries ∨ ∃ response, d.invoked = .ok response ∧
      (dispatchWithOutcome config s d).2 = (.ok response, .miss) ∧
      x = (makeKey d.envelope.toolId d.envelope.payload,
        ⟨d.envelope.payload, response,
          wrap 64 (d.storeMs + config.ttlFor d.envelope.toolId), d.storeMs⟩) := by
  simp only [dispatchWithOutcome] at h ⊢
  split at h
  · exact Or.inl h
  · rename_i served
    rw [if_neg served]
    cases got : get config s d.envelope.toolId d.envelope.payload d.lookupMs with
    | mk s' found =>
      have kept : ∀ y ∈ s'.entries, y ∈ s.entries := by
        intro y hy
        have same := congrArg (fun r => r.1.entries) got
        apply get_entries
        exact same ▸ hy
      rw [got] at h
      cases found with
      | some entry => exact Or.inl (kept x h)
      | none =>
        cases invoked : d.invoked with
        | error e =>
          rw [invoked] at h
          exact Or.inl (kept x h)
        | ok response =>
          rw [invoked] at h
          rcases insert_entries h with old | new
          · exact Or.inl (kept x old)
          · exact Or.inr ⟨response, rfl, rfl, new⟩

theorem dispatch_hit {config : CacheConfig} {s : ToolCacheInner} {d : Dispatch}
    {result : ToolResult} {age : Nat}
    (h : (dispatchWithOutcome config s d).2 = (result, .hit age)) :
    ∃ e, (makeKey d.envelope.toolId d.envelope.payload, e) ∈ s.entries ∧
      e.payload = d.envelope.payload ∧ d.lookupMs < e.expiresAtMs ∧ result = .ok e.response := by
  simp only [dispatchWithOutcome] at h
  split at h
  · cases h
  · split at h
    · rename_i entry got
      obtain ⟨stored, same, fresh⟩ := get_hit got
      cases h
      exact ⟨entry, stored, same, fresh, rfl⟩
    · split at h
      · cases h
      · cases h

/-- An answer that is not a hit is the tool's own. -/
theorem dispatch_live {config : CacheConfig} {s : ToolCacheInner} {d : Dispatch}
    (live : ∀ age, (dispatchWithOutcome config s d).2.2 ≠ .hit age) :
    (dispatchWithOutcome config s d).2.1 = d.invoked := by
  simp only [dispatchWithOutcome] at live ⊢
  split
  · rfl
  · rename_i served
    rw [if_neg served] at live
    split
    · rename_i got
      rw [got] at live
      exact absurd rfl (live _)
    · split
      · rfl
      · rfl

/-! ## Whole runs -/

theorem step_entries {config : CacheConfig} {s : ToolCacheInner} {r : Request}
    {x : CacheKey × CacheEntry} (h : x ∈ (step config s r).1.entries) :
    x ∈ s.entries ∨ Sourced config [⟨s, r, (step config s r).2⟩] x := by
  cases r with
  | dispatch d =>
    rcases dispatch_entries h with old | ⟨response, invoked, outcome, rfl⟩
    · exact Or.inl old
    · right
      constructor
      · refine ⟨_, List.mem_singleton_self _, d, rfl, rfl, invoked, ?_, rfl⟩
        simp only [step, outcome]
      · exact Nat.mod_le _ _
  | evictExpired nowMs => exact Or.inl (List.mem_of_mem_filter h)
  | clear => cases h

theorem history_append (config : CacheConfig) (run : List Request) (r : Request) :
    history config (run ++ [r]) =
      history config run ++ [⟨after config run, r, (step config (after config run) r).2⟩] :=
  trace_append (step config) new run [r]

theorem after_sourced (config : CacheConfig) (run : List Request) :
    ∀ x ∈ (after config run).entries, Sourced config (history config run) x := by
  induction run using List.reverseRecOn with
  | nil =>
    intro x hx
    cases hx
  | append_singleton run r ih =>
    intro x hx
    rw [after, final_snoc] at hx
    rw [history_append]
    rcases step_entries hx with old | new
    · exact (ih x old).append _
    · obtain ⟨⟨call, member, rest⟩, expires⟩ := new
      exact ⟨⟨call, List.mem_append_right _ member, rest⟩, expires⟩

/-- A hit answers what a live dispatch of the same tool and payload got, stored
no longer ago than the tool's time to live. -/
theorem hit_repeats_live_success (config : CacheConfig) (run : List Request) (d : Dispatch)
    (result : ToolResult) (age : Nat)
    (h : (dispatchWithOutcome config (after config run) d).2 = (result, .hit age)) :
    ∃ response storedMs, result = .ok response ∧
      LiveSuccess (history config run) d.envelope response storedMs ∧
      d.lookupMs ≤ storedMs + config.ttlFor d.envelope.toolId := by
  obtain ⟨e, stored, same, fresh, answer⟩ := dispatch_hit h
  have sourced := after_sourced config run _ stored
  refine ⟨e.response, e.insertedAtMs, answer, ?_, ?_⟩
  · have live := sourced.live
    rw [same] at live
    exact live
  · have expires := sourced.expires
    simp only [makeKey] at expires
    omega

def echoRun : List Request :=
  [.dispatch ⟨⟨"echo", [1, 2]⟩, .ok [7], 1000, 1000, 1005, .asListed⟩]

theorem hit_repeats_live_success_echo :
    ∃ response storedMs, (.ok [7] : ToolResult) = .ok response ∧
      LiveSuccess (history .default echoRun) ⟨"echo", [1, 2]⟩ response storedMs ∧
      2000 ≤ storedMs + CacheConfig.default.ttlFor "echo" :=
  hit_repeats_live_success .default echoRun
    ⟨⟨"echo", [1, 2]⟩, .error .invalidPayload, 2000, 2001, 2000, .asListed⟩ (.ok [7]) 996
    (by decide +kernel)

end ToolCache
