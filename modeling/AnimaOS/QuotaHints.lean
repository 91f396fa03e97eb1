import AnimaOS.QuotaWindows

/-!
# The retry hint of a denied request

The hint is the time of an entry plus the span of its window. At that instant the
cutoff is the entry's own time, and an entry at the cutoff is not drained.
-/

namespace QuotaTracker

open FixedWidth Machine TimeWindow

/-- The check of the limit a reason names, on a drained usage. -/
def denies (limits : TierLimits) (u : UserUsage) (tokens : Nat) : ExceededReason → Prop
  | .hourlyRequestLimit _ _ => hourlyRequestsUsed u ≥ limits.requestsPerHour
  | .hourlyTokenLimit _ _ => satAdd 64 (hourlyTokensUsed u) tokens > limits.tokensPerHour
  | .dailyTokenLimit _ _ => satAdd 64 (dailyTokensUsed u) tokens > limits.tokensPerDay

instance (limits : TierLimits) (u : UserUsage) (tokens : Nat) (reason : ExceededReason) :
    Decidable (denies limits u tokens reason) :=
  match reason with
  | .hourlyRequestLimit _ _ =>
    inferInstanceAs (Decidable (hourlyRequestsUsed u ≥ limits.requestsPerHour))
  | .hourlyTokenLimit _ _ =>
    inferInstanceAs (Decidable (satAdd 64 (hourlyTokensUsed u) tokens > limits.tokensPerHour))
  | .dailyTokenLimit _ _ =>
    inferInstanceAs (Decidable (satAdd 64 (dailyTokensUsed u) tokens > limits.tokensPerDay))

/-! ## The search for the hint -/

/-- What the search has passed over leaves too little room. -/
def PassedOver (limit used tokens : Nat) (seen : List (Nat × Nat)) : Prop :=
  ∀ dropped kept, seen = dropped ++ kept →
    limit < satAdd 64 (used - min (total Prod.snd dropped) (maxOf 64)) tokens

theorem satAdd_total (events : List (Nat × Nat)) (e : Nat × Nat) :
    satAdd 64 (min (total Prod.snd events) (maxOf 64)) e.2 =
      min (total Prod.snd (events ++ [e])) (maxOf 64) := by
  have : total Prod.snd [e] = e.2 := by simp [total]
  simp only [satAdd, total_append, this]
  omega

/-- The sum left behind a dropped part is the sum of the rest, wrapped or not. -/
theorem tokensUsed_behind {dropped kept : List (Nat × Nat)}
    (more : min (total Prod.snd dropped) (maxOf 64) < tokensUsed (dropped ++ kept)) :
    tokensUsed kept =
      tokensUsed (dropped ++ kept) - min (total Prod.snd dropped) (maxOf 64) := by
  simp only [tokensUsed, wrap, maxOf, total_append] at more ⊢
  omega

theorem denied_behind {limit tokens : Nat} {dropped kept : List (Nat × Nat)}
    (possible : tokens ≤ limit)
    (exceeds : limit < satAdd 64
      (tokensUsed (dropped ++ kept) - min (total Prod.snd dropped) (maxOf 64)) tokens) :
    limit < satAdd 64 (tokensUsed kept) tokens := by
  have more : min (total Prod.snd dropped) (maxOf 64) < tokensUsed (dropped ++ kept) := by
    by_contra none_left
    rw [Nat.sub_eq_zero_of_le (Nat.not_lt.mp none_left)] at exceeds
    simp only [satAdd] at exceeds
    omega
  rwa [tokensUsed_behind more]

theorem PassedOver.snoc {limit used tokens : Nat} {seen : List (Nat × Nat)} {e : Nat × Nat}
    (passed : PassedOver limit used tokens seen)
    (exceeds : limit < satAdd 64 (used - min (total Prod.snd (seen ++ [e])) (maxOf 64)) tokens) :
    PassedOver limit used tokens (seen ++ [e]) := by
  intro dropped kept split
  rcases List.eq_nil_or_concat kept with rfl | ⟨front, last, rfl⟩
  · rw [List.append_nil] at split
    exact split ▸ exceeds
  · rw [List.concat_eq_append, ← List.append_assoc] at split
    exact passed dropped front (List.append_inj_left' split rfl)

/-- Whatever the search answers, draining at the hint's cutoff leaves the limit exceeded. -/
theorem retrySearch_denied (span hint : Nat) {limit tokens : Nat} {seen : List (Nat × Nat)}
    (rest : List (Nat × Nat)) (possible : tokens ≤ limit)
    (passed : PassedOver limit (tokensUsed (seen ++ rest)) tokens seen) :
    ∃ ts, retrySearch span limit (tokensUsed (seen ++ rest)) tokens hint
        (min (total Prod.snd seen) (maxOf 64)) rest = satAdd 64 ts span ∧
      limit < satAdd 64 (tokensUsed (drain Prod.fst ts (seen ++ rest))) tokens := by
  induction rest generalizing seen with
  | nil =>
    -- all of the window is passed over: nothing is left to exceed the limit
    have exceeds := denied_behind possible (passed seen [] (List.append_nil _).symm)
    have empty : tokensUsed [] = 0 := by simp [tokensUsed, total, wrap]
    simp only [empty, satAdd] at exceeds
    omega
  | cons e rest ih =>
    simp only [retrySearch, satAdd_total]
    split
    · refine ⟨e.1, rfl, ?_⟩
      obtain ⟨dropped, kept, rfl, drained⟩ := drain_stops (Nat.le_refl e.1) seen rest
      rw [drained]
      have exceeds := passed dropped kept rfl
      rw [List.append_assoc] at exceeds
      exact denied_behind possible exceeds
    · rename_i exceeds
      have shift : seen ++ e :: rest = (seen ++ [e]) ++ rest := by simp
      rw [shift] at passed exceeds ⊢
      exact ih (passed.snoc (Nat.not_le.mp exceeds))

/-- A finite hint for a window that is too full leaves it too full. -/
theorem retryHint_denied {span limit tokens nowNs : Nat} {events : List (Nat × Nat)}
    (exceeds : limit < satAdd 64 (tokensUsed events) tokens)
    (finite : retryHint span limit (tokensUsed events) tokens nowNs events < maxOf 64) :
    limit < satAdd 64 (tokensUsed (drain Prod.fst
      (retryHint span limit (tokensUsed events) tokens nowNs events - span) events)) tokens := by
  simp only [retryHint] at finite ⊢
  split
  · rename_i impossible
    rw [if_pos impossible] at finite
    exact absurd finite (Nat.lt_irrefl _)
  · rename_i possible
    rw [if_neg possible] at finite
    have start : PassedOver limit (tokensUsed ([] ++ events)) tokens [] := by
      intro dropped kept split
      obtain ⟨rfl, -⟩ := List.append_eq_nil_iff.mp split.symm
      exact exceeds
    obtain ⟨ts, answer, denied⟩ :=
      retrySearch_denied span (satAdd 64 nowNs span) events (Nat.not_lt.mp possible) start
    have nothing : min (total Prod.snd ([] : List (Nat × Nat))) (maxOf 64) = 0 := rfl
    rw [nothing, List.nil_append] at answer
    rw [answer] at finite ⊢
    rwa [satAdd_sub finite]

theorem requestRetryHint_denied {nowNs : Nat} {u : UserUsage}
    (finite : requestRetryHint nowNs u < maxOf 64) :
    drain id (requestRetryHint nowNs u - hourNs) u.hourlyRequests = u.hourlyRequests := by
  cases requests : u.hourlyRequests with
  | nil => rfl
  | cons ts rest =>
    have hint : requestRetryHint nowNs u = satAdd 64 ts hourNs := by
      simp only [requestRetryHint, requests, List.head?_cons]
    rw [hint] at finite ⊢
    rw [satAdd_sub finite]
    exact List.dropWhile_cons_of_neg (by simp)

theorem checkLimits_denied {limits : TierLimits} {u : UserUsage} {r : Request} {userId : String}
    {reason : ExceededReason} {hint : Nat}
    (exceeded : (checkLimits limits u r).2 = .exceeded userId reason hint)
    (finite : hint < maxOf 64) :
    (checkLimits limits u r).1 = violate u ∧
      denies limits (drainStale (violate u) hint) r.tokens reason := by
  simp only [checkLimits] at exceeded ⊢
  split at exceeded
  · rename_i full
    rw [if_pos full]
    cases exceeded
    refine ⟨rfl, ?_⟩
    have same := requestRetryHint_denied finite
    simp only [denies, hourlyRequestsUsed, drainStale, violate, same]
    exact full
  · rename_i room
    rw [if_neg room]
    split at exceeded
    · rename_i full
      rw [if_pos full]
      cases exceeded
      exact ⟨rfl, retryHint_denied full finite⟩
    · rename_i hour
      rw [if_neg hour]
      split at exceeded
      · rename_i full
        rw [if_pos full]
        cases exceeded
        exact ⟨rfl, retryHint_denied full finite⟩
      · cases exceeded

/-! ## The repeated request -/

/-- A check that fails makes the whole request fail. -/
theorem denies_exceeded {limits : TierLimits} {u : UserUsage} {r : Request}
    {reason : ExceededReason} (h : denies limits u r.tokens reason) :
    (checkLimits limits u r).2.isExceeded = true := by
  rcases checkLimits_cases limits u r with ⟨-, exceeded, -⟩ | ⟨-, -, -, requests, hourly, daily⟩
  · exact exceeded
  · cases reason with
    | hourlyRequestLimit used limit => exact absurd requests (Nat.not_lt.mpr h)
    | hourlyTokenLimit used limit => exact absurd h hourly
    | dailyTokenLimit used limit => exact absurd h daily

def reached (policy : QuotaPolicy) (requests : List Request) : UserQuotaTracker :=
  final checkAndConsume (new policy) requests

theorem usageOf_apart {s : UserQuotaTracker} {userId : String} {between : List Request}
    (apart : ∀ b ∈ between, b.userId ≠ userId) :
    usageOf (final checkAndConsume s between) userId = usageOf s userId := by
  induction between generalizing s with
  | nil => rfl
  | cons b rest ih =>
    have first : usageOf (checkAndConsume s b).1 userId = usageOf s userId :=
      usageOf_other (apart b List.mem_cons_self).symm
    exact (ih fun c hc => apart c (List.mem_cons_of_mem _ hc)).trans first

/-- The limit a finite hint is given for denies the request again at that very instant. -/
theorem retry_hint_never_sufficient (policy : QuotaPolicy) (before between : List Request)
    (q : Request) (apart : ∀ b ∈ between, b.userId ≠ q.userId) (userId : String)
    (reason : ExceededReason) (hint : Nat)
    (exceeded : (checkAndConsume (reached policy before) q).2 = .exceeded userId reason hint)
    (finite : hint < maxOf 64) :
    denies (policy.forTier q.tier)
        (drainStale (usageOf (reached policy (before ++ q :: between)) q.userId) hint) q.tokens
        reason ∧
      (checkAndConsume (reached policy (before ++ q :: between)) { q with nowNs := hint
        }).2.isExceeded = true := by
  have tier : (reached policy before).policy.forTier q.tier = policy.forTier q.tier := by
    rw [reached, final_policy]
  cases limited : (policy.forTier q.tier).isUnlimited with
  | true =>
    rw [← tier] at limited
    simp [checkAndConsume, limited, bypass] at exceeded
  | false =>
    have limited' : ((reached policy before).policy.forTier q.tier).isUnlimited = false := by
      rw [tier, limited]
    obtain ⟨usage, result⟩ := checkAndConsume_limited limited'
    rw [result] at exceeded
    obtain ⟨violated, denied⟩ := checkLimits_denied exceeded finite
    rw [violated] at usage
    rw [tier] at denied
    have now : usageOf (reached policy (before ++ q :: between)) q.userId =
        violate (drainStale (usageOf (reached policy before) q.userId) q.nowNs) := by
      rw [reached, final_append, ← usage]
      exact usageOf_apart apart
    rw [now]
    refine ⟨denied, ?_⟩
    have later : (reached policy (before ++ q :: between)).policy.forTier q.tier =
        policy.forTier q.tier := by
      rw [reached, final_policy]
    have again := (checkAndConsume_limited (s := reached policy (before ++ q :: between))
      (r := { q with nowNs := hint }) (by rw [later, limited])).2
    rw [again, now, later]
    exact denies_exceeded (r := { q with nowNs := hint }) denied

def sixThenFour : List Request := [⟨"u:1", .unknown, 6, 1_000⟩, ⟨"u:1", .unknown, 4, 2_000⟩]

def tenAnHour : QuotaPolicy := { QuotaPolicy.default with unknown := ⟨10, 100, 100⟩ }

theorem retry_hint_never_sufficient_six :
    denies (tenAnHour.forTier .unknown)
      (drainStale (usageOf (reached tenAnHour (sixThenFour ++ [⟨"u:1", .unknown, 5, 4_000⟩]))
        "u:1") (1_000 + hourNs)) 5 (.hourlyTokenLimit 10 10) :=
  (retry_hint_never_sufficient tenAnHour sixThenFour [] ⟨"u:1", .unknown, 5, 4_000⟩ (by simp)
    "u:1" (.hourlyTokenLimit 10 10) (1_000 + hourNs) (by decide +kernel) (by decide)).1

/-- The hint for five tokens is the expiry of the six, where they still count. -/
theorem retry_hint_denies_six :
    ¬ ∀ (policy : QuotaPolicy) (before between : List Request) (q : Request),
      ((before ++ q :: between).Pairwise fun a b => a.nowNs ≤ b.nowNs) →
      (∀ b ∈ between, b.userId ≠ q.userId) →
      ∀ userId reason hint,
        (checkAndConsume (reached policy before) q).2 = .exceeded userId reason hint →
        hint < maxOf 64 →
        ¬ denies (policy.forTier q.tier)
          (drainStale (usageOf (reached policy (before ++ q :: between)) q.userId) hint) q.tokens
          reason := by
  intro sufficient
  exact sufficient tenAnHour sixThenFour [] ⟨"u:1", .unknown, 5, 4_000⟩ (by decide) (by simp)
    "u:1" (.hourlyTokenLimit 10 10) (1_000 + hourNs) (by decide +kernel) (by decide)
    (by decide +kernel)

end QuotaTracker
