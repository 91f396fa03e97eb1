import AnimaOS.QuotaTracker

/-!
# What the quota windows bound

For one user the three deques are the recent parts of the log of its admitted
requests. A check that lets a request in therefore sees every entry that still
counts at that instant, unless the limit is the unlimited sentinel.
-/

namespace QuotaTracker

open FixedWidth Machine TimeWindow
open ConsentRegistry (TrustTier)

/-- The deques at the user's last drain, as parts of its admitted log. -/
structure Tracks (log : List (Nat × Nat)) (last : Nat) (u : UserUsage) : Prop where
  ordered : InOrder Prod.fst log
  past : ∀ e ∈ log, e.1 ≤ last
  hourlyTokens : u.hourlyTokens = since Prod.fst (last - hourNs) log
  dailyTokens : u.dailyTokens = since Prod.fst (last - dayNs) log
  hourlyRequests : u.hourlyRequests = (since Prod.fst (last - hourNs) log).map Prod.fst

/-- Token limits below the sentinel bound their window; the request limit always does. -/
structure Enforced (limits : TierLimits) (log : List (Nat × Nat)) : Prop where
  hourlyTokens : limits.tokensPerHour < maxOf 64 →
    Bounded Prod.fst Prod.snd hourNs limits.tokensPerHour log
  dailyTokens : limits.tokensPerDay < maxOf 64 →
    Bounded Prod.fst Prod.snd dayNs limits.tokensPerDay log
  hourlyRequests : Bounded Prod.fst (fun _ => 1) hourNs limits.requestsPerHour log

theorem tracks_new : Tracks [] 0 UserUsage.new where
  ordered := List.Pairwise.nil
  past := by simp
  hourlyTokens := rfl
  dailyTokens := rfl
  hourlyRequests := rfl

theorem enforced_nil (limits : TierLimits) : Enforced limits [] where
  hourlyTokens := fun _ => bounded_nil _ _
  dailyTokens := fun _ => bounded_nil _ _
  hourlyRequests := bounded_nil _ _

theorem drain_map_fst (cutoff : Nat) (log : List (Nat × Nat)) :
    drain id cutoff (log.map Prod.fst) = (drain Prod.fst cutoff log).map Prod.fst :=
  List.dropWhile_map

theorem Tracks.drained {log : List (Nat × Nat)} {last now : Nat} {u : UserUsage}
    (tracks : Tracks log last u) (later : last ≤ now) : Tracks log now (drainStale u now) where
  ordered := tracks.ordered
  past := fun e he => Nat.le_trans (tracks.past e he) later
  hourlyTokens := by
    simp only [drainStale, tracks.hourlyTokens]
    exact drain_since tracks.ordered (by omega)
  dailyTokens := by
    simp only [drainStale, tracks.dailyTokens]
    exact drain_since tracks.ordered (by omega)
  hourlyRequests := by
    simp only [drainStale, tracks.hourlyRequests, drain_map_fst]
    exact congrArg (List.map Prod.fst) (drain_since tracks.ordered (by omega))

theorem Tracks.violate {log : List (Nat × Nat)} {now : Nat} {u : UserUsage}
    (tracks : Tracks log now u) : Tracks log now (violate u) where
  ordered := tracks.ordered
  past := tracks.past
  hourlyTokens := tracks.hourlyTokens
  dailyTokens := tracks.dailyTokens
  hourlyRequests := tracks.hourlyRequests

theorem since_consume (log : List (Nat × Nat)) (r : Request) (span : Nat) :
    since Prod.fst (r.nowNs - span) (log ++ [(r.nowNs, r.tokens)]) =
      since Prod.fst (r.nowNs - span) log ++ [(r.nowNs, r.tokens)] :=
  since_snoc (r.nowNs - span) log (Nat.sub_le r.nowNs span)

theorem Tracks.consume {log : List (Nat × Nat)} {u : UserUsage} {r : Request}
    (tracks : Tracks log r.nowNs u) :
    Tracks (log ++ [(r.nowNs, r.tokens)]) r.nowNs (consume u r) where
  ordered := ordered_snoc tracks.ordered tracks.past
  past := by
    intro e he
    rcases List.mem_append.mp he with he | he
    · exact tracks.past e he
    · rw [List.mem_singleton.mp he]
  hourlyTokens := by
    rw [since_consume, ← tracks.hourlyTokens]
    rfl
  dailyTokens := by
    rw [since_consume, ← tracks.dailyTokens]
    rfl
  hourlyRequests := by
    rw [since_consume, List.map_append, ← tracks.hourlyRequests]
    rfl

/-- Right after a drain the retained events are the window of that instant. -/
theorem Tracks.window {log : List (Nat × Nat)} {now : Nat} {u : UserUsage}
    (tracks : Tracks log now u) (span : Nat) :
    TimeWindow.window Prod.fst span now log = since Prod.fst (now - span) log :=
  window_eq_since tracks.past span

/-- What a check below the sentinel says: the retained tokens and the new ones fit. -/
theorem tokens_fit {events : List (Nat × Nat)} {tokens limit : Nat} (finite : limit < maxOf 64)
    (bounded : total Prod.snd events ≤ limit)
    (passed : ¬ satAdd 64 (tokensUsed events) tokens > limit) :
    total Prod.snd events + tokens ≤ limit := by
  have exactly : tokensUsed events = total Prod.snd events :=
    wrap_of_le_max (Nat.le_of_lt (Nat.lt_of_le_of_lt bounded finite))
  have := (satAdd_le_iff finite).mp (Nat.not_lt.mp passed)
  omega

/-- The three possible outcomes of the checks. -/
theorem checkLimits_cases (limits : TierLimits) (u : UserUsage) (r : Request) :
    ((checkLimits limits u r).1 = violate u ∧ (checkLimits limits u r).2.isExceeded = true ∧
      (checkLimits limits u r).2.isAllowed = false) ∨
    ((checkLimits limits u r).1 = consume u r ∧ (checkLimits limits u r).2.isExceeded = false ∧
      (checkLimits limits u r).2.isAllowed = true ∧
      hourlyRequestsUsed u < limits.requestsPerHour ∧
      ¬ satAdd 64 (hourlyTokensUsed u) r.tokens > limits.tokensPerHour ∧
      ¬ satAdd 64 (dailyTokensUsed u) r.tokens > limits.tokensPerDay) := by
  simp only [checkLimits]
  by_cases requests : hourlyRequestsUsed u ≥ limits.requestsPerHour
  · exact .inl (by simp [requests, QuotaResult.isExceeded, QuotaResult.isAllowed])
  by_cases hourly : satAdd 64 (hourlyTokensUsed u) r.tokens > limits.tokensPerHour
  · exact .inl (by simp [requests, hourly, QuotaResult.isExceeded, QuotaResult.isAllowed])
  by_cases daily : satAdd 64 (dailyTokensUsed u) r.tokens > limits.tokensPerDay
  · exact .inl (by simp [requests, hourly, daily, QuotaResult.isExceeded, QuotaResult.isAllowed])
  · exact .inr (by
      simp only [requests, hourly, daily, QuotaResult.isExceeded, QuotaResult.isAllowed]
      simp [Nat.not_le.mp requests])

theorem Enforced.consume {limits : TierLimits} {log : List (Nat × Nat)} {u : UserUsage}
    {r : Request} (enforced : Enforced limits log) (tracks : Tracks log r.nowNs u)
    (requests : hourlyRequestsUsed u < limits.requestsPerHour)
    (hourly : ¬ satAdd 64 (hourlyTokensUsed u) r.tokens > limits.tokensPerHour)
    (daily : ¬ satAdd 64 (dailyTokensUsed u) r.tokens > limits.tokensPerDay) :
    Enforced limits (log ++ [(r.nowNs, r.tokens)]) where
  hourlyTokens := by
    intro finite
    refine (enforced.hourlyTokens finite).snoc ?_
    have current := enforced.hourlyTokens finite r.nowNs
    rw [tracks.window, ← tracks.hourlyTokens] at current
    rw [← tracks.hourlyTokens]
    exact tokens_fit finite current hourly
  dailyTokens := by
    intro finite
    refine (enforced.dailyTokens finite).snoc ?_
    have current := enforced.dailyTokens finite r.nowNs
    rw [tracks.window, ← tracks.dailyTokens] at current
    rw [← tracks.dailyTokens]
    exact tokens_fit finite current daily
  hourlyRequests := by
    refine enforced.hourlyRequests.snoc ?_
    have count : hourlyRequestsUsed u = (since Prod.fst (r.nowNs - hourNs) log).length := by
      simp only [hourlyRequestsUsed, tracks.hourlyRequests, List.length_map]
    rw [total_one, ← count]
    exact requests

/-! ## Runs -/

/-- The requests of one user that a run let in, with their times and tokens. -/
def admitted (userId : String) (cs : List (Call UserQuotaTracker Request QuotaResult)) :
    List (Nat × Nat) :=
  (cs.filter fun c => c.request.userId = userId ∧ c.response.isAllowed).map
    fun c => (c.request.nowNs, c.request.tokens)

def requestsOf (userId : String) (requests : List Request) : List Request :=
  requests.filter fun r => r.userId = userId

theorem checkAndConsume_policy (s : UserQuotaTracker) (r : Request) :
    (checkAndConsume s r).1.policy = s.policy := by
  by_cases unlimited : (s.policy.forTier r.tier).isUnlimited
  · cases known : s.usage r.userId <;> simp [checkAndConsume, unlimited, bypass, known, put]
  · simp [checkAndConsume, unlimited, put]

theorem usageOf_put (s : UserQuotaTracker) (userId other : String) (u : UserUsage) :
    usageOf (put s userId u) other = if other = userId then u else usageOf s other := by
  simp only [usageOf, put]
  by_cases same : other = userId <;> simp [same]

theorem usageOf_other {s : UserQuotaTracker} {r : Request} {other : String}
    (distinct : other ≠ r.userId) :
    usageOf (checkAndConsume s r).1 other = usageOf s other := by
  by_cases unlimited : (s.policy.forTier r.tier).isUnlimited
  · cases known : s.usage r.userId <;>
      simp [checkAndConsume, unlimited, bypass, known, usageOf_put, distinct]
  · simp [checkAndConsume, unlimited, usageOf_put, distinct]

theorem checkAndConsume_limited {s : UserQuotaTracker} {r : Request}
    (limited : (s.policy.forTier r.tier).isUnlimited = false) :
    usageOf (checkAndConsume s r).1 r.userId =
      (checkLimits (s.policy.forTier r.tier) (drainStale (usageOf s r.userId) r.nowNs) r).1 ∧
    (checkAndConsume s r).2 =
      (checkLimits (s.policy.forTier r.tier) (drainStale (usageOf s r.userId) r.nowNs) r).2 := by
  simp [checkAndConsume, limited, usageOf_put]

/-- A pass of an unlimited tier changes at most the violations. -/
theorem usageOf_bypass (s : UserQuotaTracker) (userId : String) :
    ∃ violations, usageOf (bypass s userId).1 userId =
      { usageOf s userId with consecutiveViolations := violations } := by
  cases known : s.usage userId with
  | none =>
    refine ⟨0, ?_⟩
    simp only [bypass, known, usageOf, Option.getD_none]
    rfl
  | some u =>
    refine ⟨0, ?_⟩
    simp [bypass, known, usageOf, put]

/-- What one call does to the usage of its own user, and what it answers. -/
theorem checkAndConsume_own (s : UserQuotaTracker) (r : Request) :
    ((s.policy.forTier r.tier).isUnlimited = true ∧
      (∃ violations, usageOf (checkAndConsume s r).1 r.userId =
        { usageOf s r.userId with consecutiveViolations := violations }) ∧
      (checkAndConsume s r).2.isExceeded = false) ∨
    ((s.policy.forTier r.tier).isUnlimited = false ∧
      usageOf (checkAndConsume s r).1 r.userId =
        violate (drainStale (usageOf s r.userId) r.nowNs) ∧
      (checkAndConsume s r).2.isAllowed = false) ∨
    ((s.policy.forTier r.tier).isUnlimited = false ∧
      usageOf (checkAndConsume s r).1 r.userId =
        consume (drainStale (usageOf s r.userId) r.nowNs) r ∧
      (checkAndConsume s r).2.isExceeded = false ∧ (checkAndConsume s r).2.isAllowed = true ∧
      hourlyRequestsUsed (drainStale (usageOf s r.userId) r.nowNs) <
        (s.policy.forTier r.tier).requestsPerHour ∧
      ¬ satAdd 64 (hourlyTokensUsed (drainStale (usageOf s r.userId) r.nowNs)) r.tokens >
        (s.policy.forTier r.tier).tokensPerHour ∧
      ¬ satAdd 64 (dailyTokensUsed (drainStale (usageOf s r.userId) r.nowNs)) r.tokens >
        (s.policy.forTier r.tier).tokensPerDay) := by
  cases limited : (s.policy.forTier r.tier).isUnlimited with
  | true =>
    have passed : checkAndConsume s r = bypass s r.userId := by simp [checkAndConsume, limited]
    rw [passed]
    exact .inl ⟨rfl, usageOf_bypass s r.userId, by simp [bypass, QuotaResult.isExceeded]⟩
  | false =>
    obtain ⟨usage, result⟩ := checkAndConsume_limited limited
    rw [usage, result]
    rcases checkLimits_cases (s.policy.forTier r.tier) (drainStale (usageOf s r.userId) r.nowNs) r
      with ⟨violated, -, denied⟩ | ⟨consumed, within⟩
    · exact .inr (.inl ⟨rfl, violated, denied⟩)
    · exact .inr (.inr ⟨rfl, consumed, within⟩)

/-- What the tracker knows about one user after a run: its log is enforced and tracked. -/
structure Faithful (limits : TierLimits) (userId : String) (log : List (Nat × Nat)) (last : Nat)
    (s : UserQuotaTracker) : Prop where
  tracks : Tracks log last (usageOf s userId)
  enforced : Enforced limits log

theorem Faithful.other {limits : TierLimits} {userId : String} {log : List (Nat × Nat)}
    {last : Nat} {s : UserQuotaTracker} (faithful : Faithful limits userId log last s)
    {r : Request} (distinct : userId ≠ r.userId) :
    Faithful limits userId log last (checkAndConsume s r).1 where
  tracks := by
    rw [usageOf_other distinct]
    exact faithful.tracks
  enforced := faithful.enforced

/-- One call of the user extends the log exactly when it is allowed. -/
theorem Faithful.own {limits : TierLimits} {log : List (Nat × Nat)} {last : Nat}
    {s : UserQuotaTracker} {r : Request} (faithful : Faithful limits r.userId log last s)
    (tier : s.policy.forTier r.tier = limits) (limited : limits.isUnlimited = false)
    (later : last ≤ r.nowNs) :
    Faithful limits r.userId
      (log ++ if (checkAndConsume s r).2.isAllowed then [(r.nowNs, r.tokens)] else [])
      r.nowNs (checkAndConsume s r).1 := by
  subst tier
  have drained := faithful.tracks.drained later
  rcases checkAndConsume_own s r with ⟨unlimited, -⟩ | ⟨-, violated, denied⟩ |
      ⟨-, consumed, -, allowed, requests, hourly, daily⟩
  · rw [limited] at unlimited
    cases unlimited
  · simp only [denied, if_neg Bool.false_ne_true, List.append_nil]
    constructor
    · rw [violated]
      exact drained.violate
    · exact faithful.enforced
  · rw [allowed, if_pos rfl]
    constructor
    · rw [consumed]
      exact drained.consume
    · exact faithful.enforced.consume drained requests hourly daily

theorem admitted_snoc (userId : String) (cs : List (Call UserQuotaTracker Request QuotaResult))
    (c : Call UserQuotaTracker Request QuotaResult) :
    admitted userId (cs ++ [c]) = admitted userId cs ++
      if c.request.userId = userId ∧ c.response.isAllowed then
        [(c.request.nowNs, c.request.tokens)] else [] := by
  simp only [admitted]
  simp only [List.filter_append, List.map_append]
  by_cases h : c.request.userId = userId ∧ c.response.isAllowed <;> simp [h]

theorem final_policy (policy : QuotaPolicy) (requests : List Request) :
    (final checkAndConsume (new policy) requests).policy = policy := by
  have keeps : ∀ s r, s.policy = policy → (checkAndConsume s r).1.policy = policy :=
    fun s r h => (checkAndConsume_policy s r).trans h
  exact final_invariant keeps rfl requests

/-- After every run the user's log is enforced and its deques hold the recent part of it. -/
theorem run_faithful {policy : QuotaPolicy} {userId : String} {tier : TrustTier}
    (limited : (policy.forTier tier).isUnlimited = false) (requests : List Request)
    (fixed : ∀ r ∈ requestsOf userId requests, r.tier = tier)
    (ordered : (requestsOf userId requests).Pairwise fun a b => a.nowNs ≤ b.nowNs) :
    ∃ last, (∀ t, (∀ r ∈ requestsOf userId requests, r.nowNs ≤ t) → last ≤ t) ∧
      Faithful (policy.forTier tier) userId (admitted userId (calls policy requests)) last
        (final checkAndConsume (new policy) requests) := by
  induction requests using List.reverseRecOn with
  | nil => exact ⟨0, fun t _ => Nat.zero_le t, tracks_new, enforced_nil _⟩
  | append_singleton requests r ih =>
    have split : requestsOf userId (requests ++ [r]) =
        requestsOf userId requests ++ if r.userId = userId then [r] else [] := by
      by_cases own : r.userId = userId <;> simp [requestsOf, own]
    have log : admitted userId (calls policy (requests ++ [r])) =
        admitted userId (calls policy requests) ++
          if r.userId = userId ∧
              (checkAndConsume (final checkAndConsume (new policy) requests) r).2.isAllowed then
            [(r.nowNs, r.tokens)] else [] := by
      simp only [calls, trace_append]
      exact admitted_snoc userId _ _
    rw [split] at fixed ordered ⊢
    simp only [log, final_snoc]
    obtain ⟨last, least, faithful⟩ := ih
      (fun a ha => fixed a (List.mem_append_left _ ha)) (List.pairwise_append.mp ordered).1
    by_cases own : r.userId = userId
    · subst own
      rw [if_pos rfl] at fixed ordered ⊢
      have later : last ≤ r.nowNs := least r.nowNs fun a ha =>
        (List.pairwise_append.mp ordered).2.2 a ha r (List.mem_singleton_self r)
      have held : r.tier = tier := fixed r (List.mem_append_right _ (List.mem_singleton_self r))
      refine ⟨r.nowNs, fun t ht => ht r (List.mem_append_right _ (List.mem_singleton_self r)), ?_⟩
      simp only [true_and]
      exact faithful.own (by rw [final_policy, held]) limited later
    · simp only [if_neg own, List.append_nil]
      simp only [own, false_and, if_false, List.append_nil]
      exact ⟨last, least, faithful.other (Ne.symm own)⟩

/-- A denied call leaves every window a part of what it was. -/
def WindowsShrink (before after : UserUsage) : Prop :=
  after.hourlyTokens <:+ before.hourlyTokens ∧ after.dailyTokens <:+ before.dailyTokens ∧
    after.hourlyRequests <:+ before.hourlyRequests

theorem WindowsShrink.refl (u : UserUsage) : WindowsShrink u u :=
  ⟨List.suffix_refl _, List.suffix_refl _, List.suffix_refl _⟩

theorem drained_shrinks (u : UserUsage) (nowNs : Nat) :
    WindowsShrink u (violate (drainStale u nowNs)) :=
  ⟨List.dropWhile_suffix _, List.dropWhile_suffix _, List.dropWhile_suffix _⟩

theorem exceeded_shrinks {s : UserQuotaTracker} {r : Request}
    (exceeded : (checkAndConsume s r).2.isExceeded = true) (other : String) :
    WindowsShrink (usageOf s other) (usageOf (checkAndConsume s r).1 other) := by
  by_cases distinct : other ≠ r.userId
  · rw [usageOf_other distinct]
    exact WindowsShrink.refl _
  · rw [not_ne_iff.mp distinct]
    rcases checkAndConsume_own s r with ⟨-, -, passed⟩ | ⟨-, violated, -⟩ | ⟨-, -, passed, -⟩
    · rw [passed] at exceeded
      cases exceeded
    · rw [violated]
      exact drained_shrinks _ _
    · rw [passed] at exceeded
      cases exceeded

/-- Rolling-window safety for one user at a fixed limited tier, whatever other users do. -/
theorem rolling_windows_bounded (policy : QuotaPolicy) (userId : String) (tier : TrustTier)
    (limited : (policy.forTier tier).isUnlimited = false) (requests : List Request)
    (fixed : ∀ r ∈ requestsOf userId requests, r.tier = tier)
    (ordered : (requestsOf userId requests).Pairwise fun a b => a.nowNs ≤ b.nowNs) :
    let limits := policy.forTier tier
    let log := admitted userId (calls policy requests)
    (∀ t,
      ((limits.tokensPerHour < maxOf 64 ∨ limits.tokensPerDay < maxOf 64) →
        total Prod.snd (window Prod.fst hourNs t log) ≤ limits.tokensPerHour) ∧
      (limits.tokensPerDay < maxOf 64 →
        total Prod.snd (window Prod.fst dayNs t log) ≤ limits.tokensPerDay) ∧
      (window Prod.fst hourNs t log).length ≤ limits.requestsPerHour) ∧
    ∀ c ∈ calls policy requests, c.response.isExceeded = true →
      ∀ other, WindowsShrink (usageOf c.before other)
        (usageOf (checkAndConsume c.before c.request).1 other) := by
  intro limits log
  obtain ⟨last, -, faithful⟩ := run_faithful limited requests fixed ordered
  constructor
  · intro t
    refine ⟨?_, fun finite => faithful.enforced.dailyTokens finite t, ?_⟩
    · intro finite
      by_cases hourly : limits.tokensPerHour < maxOf 64
      · exact faithful.enforced.hourlyTokens hourly t
      · -- an hourly sentinel is bounded through the finite daily limit
        have daily : limits.tokensPerDay < maxOf 64 := finite.resolve_left hourly
        have bound := faithful.enforced.dailyTokens daily t
        have inner : total Prod.snd (window Prod.fst hourNs t log) ≤
            total Prod.snd (window Prod.fst dayNs t log) :=
          total_mono (window_mono_span (by decide) t log)
        change total Prod.snd (window Prod.fst dayNs t log) ≤ limits.tokensPerDay at bound
        omega
    · have bound := faithful.enforced.hourlyRequests t
      rw [total_one] at bound
      exact bound
  · intro c hc exceeded other
    obtain ⟨_, _, _, _, response⟩ := mem_trace hc
    rw [response] at exceeded
    exact exceeded_shrinks exceeded other

theorem rolling_windows_bounded_default :
    let requests : List Request :=
      [⟨"a", .unknown, 9_000, 10⟩, ⟨"b", .trusted, 4, 3⟩, ⟨"a", .unknown, 2_000, 11⟩]
    (QuotaPolicy.default.forTier .unknown).isUnlimited = false ∧
    total Prod.snd (window Prod.fst hourNs 11
      (admitted "a" (calls QuotaPolicy.default requests))) ≤ 10_000 := by
  intro requests
  have fixed : ∀ r ∈ requestsOf "a" requests, r.tier = .unknown := by decide
  have ordered : (requestsOf "a" requests).Pairwise fun a b => a.nowNs ≤ b.nowNs := by decide
  have limited : (QuotaPolicy.default.forTier .unknown).isUnlimited = false := by decide
  have bounds := rolling_windows_bounded QuotaPolicy.default "a" .unknown limited requests
    fixed ordered
  exact ⟨limited, (bounds.1 11).1 (.inl (by decide))⟩

/-- Both token limits at the sentinel, with a finite request limit. -/
def requestLimitOnly : QuotaPolicy :=
  { QuotaPolicy.default with unknown := ⟨maxOf 64, maxOf 64, 10⟩ }

def halfRange : List Request := [⟨"a", .unknown, 2 ^ 63, 0⟩, ⟨"a", .unknown, 2 ^ 63, 1⟩]

/-- The sentinel is no bound: two requests of half the range each are let in together. -/
theorem sentinel_limits_exceeded :
    (requestLimitOnly.forTier .unknown).isUnlimited = false ∧
    (∀ r ∈ requestsOf "a" halfRange, r.tier = .unknown) ∧
    ((requestsOf "a" halfRange).Pairwise fun a b => a.nowNs ≤ b.nowNs) ∧
    ¬ total Prod.snd (window Prod.fst hourNs 1 (admitted "a" (calls requestLimitOnly halfRange))) ≤
      (requestLimitOnly.forTier .unknown).tokensPerHour ∧
    ¬ total Prod.snd (window Prod.fst dayNs 1 (admitted "a" (calls requestLimitOnly halfRange))) ≤
      (requestLimitOnly.forTier .unknown).tokensPerDay := by
  decide

end QuotaTracker
