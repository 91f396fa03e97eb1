import AnimaOS.QuotaSnapshots

/-!
# The window sums

Only the `sum()` of a window can overflow: every other sum of the tracker
saturates. The hourly deque is a suffix of the daily one, at arbitrary times, so
the day's total bounds every sum. A finite daily limit bounds that total; the
unlimited sentinel does not.
-/

namespace QuotaTracker

open FixedWidth Machine TimeWindow

/-- A `u64` sum of the tokens does not overflow. -/
def SumFits (events : List (Nat × Nat)) : Prop := total Prod.snd events ≤ maxOf 64

theorem SumFits.sublist {xs ys : List (Nat × Nat)} (h : xs.Sublist ys) (fits : SumFits ys) :
    SumFits xs := (total_mono h).trans fits

/-- No sum of a run overflows: neither the two of each check, nor those of a
snapshot taken between two calls. -/
structure SumsFit (policy : QuotaPolicy) (requests : List Request) : Prop where
  checks : ∀ c ∈ calls policy requests, (policy.forTier c.request.tier).isUnlimited = false →
    SumFits (drainStale (usageOf c.before c.request.userId) c.request.nowNs).hourlyTokens ∧
      SumFits (drainStale (usageOf c.before c.request.userId) c.request.nowNs).dailyTokens
  snapshots : ∀ before after, requests = before ++ after → ∀ userId nowNs,
    SumFits (since Prod.fst (nowNs - hourNs)
        (usageOf (reached policy before) userId).hourlyTokens) ∧
      SumFits (since Prod.fst (nowNs - dayNs)
        (usageOf (reached policy before) userId).dailyTokens)

/-- Where the day's sentinel lets a request in, the day's total leaves room for it. -/
def DayHasRoom (limits : TierLimits) (u : UserUsage) (tokens : Nat) : Prop :=
  limits.isUnlimited = false → limits.tokensPerDay = maxOf 64 →
    hourlyRequestsUsed u < limits.requestsPerHour →
    satAdd 64 (hourlyTokensUsed u) tokens ≤ limits.tokensPerHour →
    total Prod.snd u.dailyTokens + tokens ≤ maxOf 64

/-! ## One user's deques -/

structure DayFits (u : UserUsage) : Prop where
  inner : u.hourlyTokens <:+ u.dailyTokens
  fits : SumFits u.dailyTokens

theorem dayFits_new : DayFits UserUsage.new :=
  ⟨List.suffix_refl _, Nat.zero_le _⟩

theorem DayFits.hour {u : UserUsage} (h : DayFits u) : SumFits u.hourlyTokens :=
  h.fits.sublist h.inner.sublist

theorem DayFits.drained {u : UserUsage} (h : DayFits u) (nowNs : Nat) :
    DayFits (drainStale u nowNs) where
  inner := drain_suffix h.inner (by simp only [hourNs, dayNs]; omega)
  fits := h.fits.sublist (List.dropWhile_sublist _)

theorem DayFits.violate {u : UserUsage} (h : DayFits u) : DayFits (violate u) := ⟨h.inner, h.fits⟩

theorem DayFits.consume {u : UserUsage} {r : Request} (h : DayFits u)
    (room : total Prod.snd u.dailyTokens + r.tokens ≤ maxOf 64) : DayFits (consume u r) where
  inner := by
    obtain ⟨before, same⟩ := h.inner
    exact ⟨before, by simp only [QuotaTracker.consume, ← same, List.append_assoc]⟩
  fits := by
    have last : total Prod.snd [(r.nowNs, r.tokens)] = r.tokens := by simp [total]
    simp only [SumFits, QuotaTracker.consume, total_append, last]
    exact room

/-- A finite daily limit is checked on a sum that is exact, and so leaves the sum exact. -/
theorem DayFits.room {limits : TierLimits} {u : UserUsage} {tokens : Nat} (h : DayFits u)
    (fits : limits.tokensPerDay ≤ maxOf 64) (limited : limits.isUnlimited = false)
    (has : DayHasRoom limits u tokens) (requests : hourlyRequestsUsed u < limits.requestsPerHour)
    (hourly : ¬ satAdd 64 (hourlyTokensUsed u) tokens > limits.tokensPerHour)
    (daily : ¬ satAdd 64 (dailyTokensUsed u) tokens > limits.tokensPerDay) :
    total Prod.snd u.dailyTokens + tokens ≤ maxOf 64 := by
  by_cases sentinel : limits.tokensPerDay = maxOf 64
  · exact has limited sentinel requests (Nat.not_lt.mp hourly)
  · have exactly : dailyTokensUsed u = total Prod.snd u.dailyTokens := wrap_of_le_max h.fits
    have finite : limits.tokensPerDay < maxOf 64 := Nat.lt_of_le_of_ne fits sentinel
    have := (satAdd_le_iff finite).mp (Nat.not_lt.mp daily)
    omega

/-! ## Runs -/

def AllDaysFit (s : UserQuotaTracker) : Prop := ∀ userId, DayFits (usageOf s userId)

/-- The request finds room in the day of its user, at its own tier. -/
def RoomFor (s : UserQuotaTracker) (r : Request) : Prop :=
  DayHasRoom (s.policy.forTier r.tier) (drainStale (usageOf s r.userId) r.nowNs) r.tokens

theorem AllDaysFit.step {s : UserQuotaTracker} {r : Request} (h : AllDaysFit s)
    (fits : (s.policy.forTier r.tier).Fits) (room : RoomFor s r) :
    AllDaysFit (checkAndConsume s r).1 := by
  intro userId
  by_cases own : userId = r.userId
  · subst own
    have drained := (h r.userId).drained r.nowNs
    rcases checkAndConsume_own s r with ⟨-, ⟨violations, same⟩, -⟩ | ⟨-, violated, -⟩ |
        ⟨limited, consumed, -, -, requests, hourly, daily⟩
    · rw [same]
      exact ⟨(h r.userId).inner, (h r.userId).fits⟩
    · rw [violated]
      exact drained.violate
    · rw [consumed]
      exact drained.consume
        (drained.room fits.tokensPerDay limited room requests hourly daily)
  · rw [usageOf_other own]
    exact h userId

theorem allDaysFit_final {s : UserQuotaTracker} {requests : List Request} (h : AllDaysFit s)
    (fits : ∀ tier, (s.policy.forTier tier).Fits)
    (room : ∀ c ∈ trace checkAndConsume s requests, RoomFor c.before c.request) :
    AllDaysFit (final checkAndConsume s requests) := by
  induction requests generalizing s with
  | nil => exact h
  | cons r rest ih =>
    have first : RoomFor s r := room ⟨s, r, (checkAndConsume s r).2⟩ List.mem_cons_self
    refine ih (h.step (fits r.tier) first) ?_ fun c hc => room c (List.mem_cons_of_mem _ hc)
    rw [checkAndConsume_policy]
    exact fits

theorem allDaysFit_reached {policy : QuotaPolicy} {requests before after : List Request}
    (fits : ∀ tier, (policy.forTier tier).Fits) (split : requests = before ++ after)
    (room : ∀ c ∈ calls policy requests, RoomFor c.before c.request) :
    AllDaysFit (reached policy before) := by
  refine allDaysFit_final (fun _ => dayFits_new) fits fun c hc => room c ?_
  rw [split, calls, trace_append]
  exact List.mem_append_left _ hc

/-- Runs in which every step finds room do not overflow. -/
theorem sumsFit_of_room {policy : QuotaPolicy} {requests : List Request}
    (fits : ∀ tier, (policy.forTier tier).Fits)
    (room : ∀ c ∈ calls policy requests, RoomFor c.before c.request) :
    SumsFit policy requests where
  checks := by
    intro c hc _
    obtain ⟨before, after, split, at_, -⟩ := mem_trace hc
    rw [at_]
    have drained := (allDaysFit_reached fits split room c.request.userId).drained c.request.nowNs
    exact ⟨drained.hour, drained.fits⟩
  snapshots := by
    intro before after split userId nowNs
    have day := allDaysFit_reached fits split room userId
    exact ⟨day.hour.sublist List.filter_sublist, day.fits.sublist List.filter_sublist⟩

theorem since_zero (events : List (Nat × Nat)) : since Prod.fst 0 events = events :=
  List.filter_eq_self.mpr fun e _ => by simp

/-- A request let in is in the day's deque, and a snapshot sums it. -/
theorem room_of_sumsFit {policy : QuotaPolicy} {requests : List Request}
    (h : SumsFit policy requests) (c : Call UserQuotaTracker Request QuotaResult)
    (member : c ∈ calls policy requests) : RoomFor c.before c.request := by
  intro limited sentinel requestsOk hourlyOk
  obtain ⟨before, after, split, at_, -⟩ := mem_trace member
  have consumed : (checkLimits (c.before.policy.forTier c.request.tier)
      (drainStale (usageOf c.before c.request.userId) c.request.nowNs) c.request).1 =
      consume (drainStale (usageOf c.before c.request.userId) c.request.nowNs) c.request := by
    have dailyOk : satAdd 64
        (dailyTokensUsed (drainStale (usageOf c.before c.request.userId) c.request.nowNs))
        c.request.tokens ≤ (c.before.policy.forTier c.request.tier).tokensPerDay := by
      rw [sentinel]
      exact Nat.min_le_right _ _
    simp only [checkLimits, if_neg (Nat.not_le.mpr requestsOk), if_neg (Nat.not_lt.mpr hourlyOk),
      if_neg (Nat.not_lt.mpr dailyOk)]
  have next : usageOf (reached policy (before ++ [c.request])) c.request.userId =
      consume (drainStale (usageOf c.before c.request.userId) c.request.nowNs) c.request := by
    rw [reached_snoc, reached, ← at_, (checkAndConsume_limited limited).1, consumed]
  have shown := (h.snapshots (before ++ [c.request]) after (by simp [split]) c.request.userId 0).2
  rw [Nat.zero_sub, since_zero, next] at shown
  have last : total Prod.snd [(c.request.nowNs, c.request.tokens)] = c.request.tokens := by
    simp [total]
  simpa only [SumFits, consume, total_append, last] using shown

/-- Finite daily limits leave every step its room. -/
theorem room_of_finite_days {policy : QuotaPolicy}
    (finite : ∀ tier, (policy.forTier tier).isUnlimited = false →
      (policy.forTier tier).tokensPerDay < maxOf 64)
    (requests : List Request) : ∀ c ∈ calls policy requests, RoomFor c.before c.request := by
  intro c hc limited sentinel
  obtain ⟨before, after, -, at_, -⟩ := mem_trace hc
  have same : c.before.policy = policy := by
    rw [at_, final_policy]
  rw [same] at limited sentinel
  exact absurd sentinel (Nat.ne_of_lt (finite c.request.tier limited))

theorem sumsFit_of_finite_days {policy : QuotaPolicy}
    (fits : ∀ tier, (policy.forTier tier).Fits)
    (finite : ∀ tier, (policy.forTier tier).isUnlimited = false →
      (policy.forTier tier).tokensPerDay < maxOf 64)
    (requests : List Request) : SumsFit policy requests :=
  sumsFit_of_room fits (room_of_finite_days finite requests)

theorem quota_sums_fit_iff (policy : QuotaPolicy) (fits : ∀ tier, (policy.forTier tier).Fits)
    (requests : List Request) :
    SumsFit policy requests ↔ ∀ c ∈ calls policy requests, RoomFor c.before c.request :=
  ⟨room_of_sumsFit, sumsFit_of_room fits⟩

theorem quota_sums_fit_iff_default :
    SumsFit QuotaPolicy.default [⟨"a", .unknown, 9_000, 10⟩, ⟨"a", .unknown, 2_000, 11⟩] :=
  (quota_sums_fit_iff QuotaPolicy.default default_fits _).mpr
    (room_of_finite_days (by rintro (_ | _ | _ | _) <;> decide) _)

/-- Two requests of half the range each pass a sentinel, and their sum does not fit. -/
theorem half_range_overflows : ¬ SumsFit requestLimitOnly halfRange := by
  intro h
  have shown := (h.snapshots halfRange [] rfl "a" 1).2
  exact absurd shown (by simp only [SumFits]; decide +kernel)

end QuotaTracker
