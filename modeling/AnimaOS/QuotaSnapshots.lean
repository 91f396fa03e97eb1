import AnimaOS.QuotaHints

/-!
# Snapshots and enforcement

A snapshot filters the deques where a check drains them. On deques in time order,
which runs with non-decreasing times keep whatever the tiers, the two agree.
-/

namespace QuotaTracker

open FixedWidth Machine TimeWindow
open ConsentRegistry (TrustTier)

structure OrderedUsage (last : Nat) (u : UserUsage) : Prop where
  hourlyTokens : UpTo Prod.fst last u.hourlyTokens
  dailyTokens : UpTo Prod.fst last u.dailyTokens
  hourlyRequests : UpTo id last u.hourlyRequests

theorem orderedUsage_new : OrderedUsage 0 UserUsage.new :=
  ⟨.nil 0, .nil 0, .nil 0⟩

section Step

variable {last now : Nat} {u : UserUsage}

theorem OrderedUsage.drained (h : OrderedUsage last u) (later : last ≤ now) :
    OrderedUsage now (drainStale u now) where
  hourlyTokens := (h.hourlyTokens.drain _).later later
  dailyTokens := (h.dailyTokens.drain _).later later
  hourlyRequests := (h.hourlyRequests.drain _).later later

theorem OrderedUsage.violate (h : OrderedUsage now u) : OrderedUsage now (violate u) :=
  ⟨h.hourlyTokens, h.dailyTokens, h.hourlyRequests⟩

theorem OrderedUsage.consume {r : Request} (h : OrderedUsage r.nowNs u) :
    OrderedUsage r.nowNs (consume u r) where
  hourlyTokens := h.hourlyTokens.snoc rfl
  dailyTokens := h.dailyTokens.snoc rfl
  hourlyRequests := h.hourlyRequests.snoc rfl

end Step

theorem OrderedUsage.step {s : UserQuotaTracker} {r : Request} {last : Nat}
    (h : OrderedUsage last (usageOf s r.userId)) (later : last ≤ r.nowNs) :
    OrderedUsage r.nowNs (usageOf (checkAndConsume s r).1 r.userId) := by
  have drained := h.drained later
  rcases checkAndConsume_own s r with ⟨-, ⟨violations, same⟩, -⟩ | ⟨-, violated, -⟩ |
      ⟨-, consumed, -⟩
  · rw [same]
    exact ⟨h.hourlyTokens.later later, h.dailyTokens.later later, h.hourlyRequests.later later⟩
  · rw [violated]
    exact drained.violate
  · rw [consumed]
    exact drained.consume

theorem reached_snoc (policy : QuotaPolicy) (requests : List Request) (r : Request) :
    reached policy (requests ++ [r]) = (checkAndConsume (reached policy requests) r).1 :=
  final_snoc checkAndConsume (new policy) requests r

/-- After a run whose calls for the user come in time order, the user's deques are in order. -/
theorem reached_ordered (policy : QuotaPolicy) (userId : String) (requests : List Request)
    (ordered : (requestsOf userId requests).Pairwise fun a b => a.nowNs ≤ b.nowNs) :
    ∃ last, (∀ t, (∀ r ∈ requestsOf userId requests, r.nowNs ≤ t) → last ≤ t) ∧
      OrderedUsage last (usageOf (reached policy requests) userId) := by
  induction requests using List.reverseRecOn with
  | nil => exact ⟨0, fun t _ => Nat.zero_le t, orderedUsage_new⟩
  | append_singleton requests r ih =>
    have split : requestsOf userId (requests ++ [r]) =
        requestsOf userId requests ++ requestsOf userId [r] := List.filter_append _ _
    rw [split] at ordered ⊢
    obtain ⟨before, -, across⟩ := List.pairwise_append.mp ordered
    obtain ⟨last, least, kept⟩ := ih before
    rw [reached_snoc]
    by_cases own : r.userId = userId
    · subst own
      have member : r ∈ requestsOf r.userId [r] := by simp [requestsOf]
      have later : last ≤ r.nowNs := least r.nowNs fun a ha => across a ha r member
      exact ⟨r.nowNs, fun t ht => ht r (List.mem_append_right _ member), kept.step later⟩
    · rw [usageOf_other (Ne.symm own)]
      exact ⟨last, fun t ht => least t fun a ha => ht a (List.mem_append_left _ ha), kept⟩

/-! ## The figures -/

theorem snapshot_figures (s : UserQuotaTracker) (userId : String) (tier : TrustTier)
    (nowNs : Nat) :
    (snapshot s userId tier nowNs).hourlyTokensUsed =
        hourlyTokensUsedAt (usageOf s userId) nowNs ∧
      (snapshot s userId tier nowNs).dailyTokensUsed =
        dailyTokensUsedAt (usageOf s userId) nowNs ∧
      (snapshot s userId tier nowNs).hourlyRequestsUsed =
        hourlyRequestsUsedAt (usageOf s userId) nowNs := by
  cases known : s.usage userId with
  | none =>
    have fresh : usageOf s userId = UserUsage.new := by simp [usageOf, known]
    rw [fresh]
    simp only [snapshot, known]
    exact ⟨rfl, rfl, rfl⟩
  | some u =>
    have same : usageOf s userId = u := by simp [usageOf, known]
    simp only [snapshot, known, same, and_self]

theorem OrderedUsage.drained_figures {last : Nat} {u : UserUsage} (h : OrderedUsage last u)
    (nowNs : Nat) :
    hourlyTokensUsed (drainStale u nowNs) = hourlyTokensUsedAt u nowNs ∧
      dailyTokensUsed (drainStale u nowNs) = dailyTokensUsedAt u nowNs ∧
      hourlyRequestsUsed (drainStale u nowNs) = hourlyRequestsUsedAt u nowNs :=
  ⟨congrArg tokensUsed (drain_eq_since h.hourlyTokens.ordered _),
    congrArg tokensUsed (drain_eq_since h.dailyTokens.ordered _),
    congrArg List.length (drain_eq_since h.hourlyRequests.ordered _)⟩

/-- A figure within its limit, which the sentinel leaves open. -/
def Within (figure limit : Nat) : Prop := limit = maxOf 64 ∨ figure ≤ limit

theorem satAdd_within {used tokens limit : Nat} (fits : limit ≤ maxOf 64) :
    satAdd 64 used tokens ≤ limit ↔ Within (used + tokens) limit := by
  simp only [Within, satAdd]
  omega

/-- Limits are `u64` values. -/
structure TierLimits.Fits (limits : TierLimits) : Prop where
  tokensPerHour : limits.tokensPerHour ≤ maxOf 64
  tokensPerDay : limits.tokensPerDay ≤ maxOf 64

theorem checkLimits_allowed {limits : TierLimits} (fits : limits.Fits) (u : UserUsage)
    (r : Request) :
    (checkLimits limits u r).2.isAllowed = true ↔
      hourlyRequestsUsed u + 1 ≤ limits.requestsPerHour ∧
        Within (hourlyTokensUsed u + r.tokens) limits.tokensPerHour ∧
        Within (dailyTokensUsed u + r.tokens) limits.tokensPerDay := by
  rw [← satAdd_within fits.tokensPerHour, ← satAdd_within fits.tokensPerDay]
  simp only [checkLimits]
  split
  · simp only [QuotaResult.isAllowed, Bool.false_eq_true, false_iff]
    omega
  · split
    · simp only [QuotaResult.isAllowed, Bool.false_eq_true, false_iff]
      omega
    · split
      · simp only [QuotaResult.isAllowed, Bool.false_eq_true, false_iff]
        omega
      · simp only [QuotaResult.isAllowed, true_iff]
        omega

theorem snapshot_agrees (policy : QuotaPolicy) (limitsFit : ∀ tier, (policy.forTier tier).Fits)
    (requests : List Request) (userId : String)
    (ordered : (requestsOf userId requests).Pairwise fun a b => a.nowNs ≤ b.nowNs)
    (tier : TrustTier) (nowNs : Nat) :
    let limits := policy.forTier tier
    let shown := snapshot (reached policy requests) userId tier nowNs
    let drained := drainStale (usageOf (reached policy requests) userId) nowNs
    shown.hourlyTokensUsed = hourlyTokensUsed drained ∧
    shown.dailyTokensUsed = dailyTokensUsed drained ∧
    shown.hourlyRequestsUsed = hourlyRequestsUsed drained ∧
    ∀ tokens,
      ((checkAndConsume (reached policy requests) ⟨userId, tier, tokens, nowNs⟩).2.isAllowed =
          true ↔
        limits.isUnlimited = true ∨
          (shown.hourlyRequestsUsed + 1 ≤ limits.requestsPerHour ∧
            Within (shown.hourlyTokensUsed + tokens) limits.tokensPerHour ∧
            Within (shown.dailyTokensUsed + tokens) limits.tokensPerDay)) := by
  intro limits shown drained
  obtain ⟨last, -, kept⟩ := reached_ordered policy userId requests ordered
  obtain ⟨hour, day, reqs⟩ := kept.drained_figures nowNs
  obtain ⟨hourShown, dayShown, reqsShown⟩ :=
    snapshot_figures (reached policy requests) userId tier nowNs
  have hourSame : shown.hourlyTokensUsed = hourlyTokensUsed drained := hourShown.trans hour.symm
  have daySame : shown.dailyTokensUsed = dailyTokensUsed drained := dayShown.trans day.symm
  have reqsSame : shown.hourlyRequestsUsed = hourlyRequestsUsed drained :=
    reqsShown.trans reqs.symm
  refine ⟨hourSame, daySame, reqsSame, ?_⟩
  intro tokens
  rw [hourSame, daySame, reqsSame]
  have tierLimits : (reached policy requests).policy.forTier tier = limits := by
    rw [reached, final_policy]
  cases limited : limits.isUnlimited with
  | true => simp [checkAndConsume, tierLimits, limited, bypass, QuotaResult.isAllowed]
  | false =>
    have result := (checkAndConsume_limited (s := reached policy requests)
      (r := ⟨userId, tier, tokens, nowNs⟩) (by rw [tierLimits, limited])).2
    rw [result, tierLimits, checkLimits_allowed (limitsFit tier)]
    simp only [Bool.false_eq_true, false_or]
    exact Iff.rfl

theorem default_fits (tier : TrustTier) : (QuotaPolicy.default.forTier tier).Fits := by
  cases tier <;> exact ⟨by decide, by decide⟩

/-- An hour after the first request, to the nanosecond, both views still count it. -/
theorem snapshot_agrees_at_boundary :
    (snapshot (reached QuotaPolicy.default [⟨"a", .unknown, 9_000, 10⟩, ⟨"b", .trusted, 4, 3⟩])
      "a" .unknown (10 + hourNs)).hourlyTokensUsed =
    hourlyTokensUsed (drainStale (usageOf (reached QuotaPolicy.default
      [⟨"a", .unknown, 9_000, 10⟩, ⟨"b", .trusted, 4, 3⟩]) "a") (10 + hourNs)) :=
  (snapshot_agrees QuotaPolicy.default default_fits
    [⟨"a", .unknown, 9_000, 10⟩, ⟨"b", .trusted, 4, 3⟩] "a" (by decide) .unknown
    (10 + hourNs)).1

end QuotaTracker
