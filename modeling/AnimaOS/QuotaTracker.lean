import AnimaOS.ConsentRegistry
import AnimaOS.FixedWidth
import AnimaOS.Machine
import AnimaOS.TimeWindow

/-!
# Per-user rolling-window quotas

State and operations of `UserQuotaTracker`. Times, token counts and limits are
`u64` values as naturals. The `sum()` of a window and the violation counter
wrap, as they do in a build without overflow checks.
-/

namespace QuotaTracker

open FixedWidth TimeWindow
open ConsentRegistry (TrustTier)

def hourNs : Nat := 3_600_000_000_000

def dayNs : Nat := 86_400_000_000_000

def defaultEscalationThreshold : Nat := 5

def defaultEscalationCooldownNs : Nat := 300_000_000_000

structure TierLimits where
  tokensPerHour : Nat
  tokensPerDay : Nat
  requestsPerHour : Nat
  deriving DecidableEq, Repr

/-- `u64::MAX` stands for no limit. -/
def TierLimits.unlimited : TierLimits := ⟨maxOf 64, maxOf 64, maxOf 64⟩

def TierLimits.isUnlimited (l : TierLimits) : Bool :=
  l.tokensPerHour = maxOf 64 && l.tokensPerDay = maxOf 64 && l.requestsPerHour = maxOf 64

structure QuotaPolicy where
  unknown : TierLimits
  verified : TierLimits
  trusted : TierLimits
  operator : TierLimits
  escalationThreshold : Nat
  escalationCooldownNs : Nat
  deriving DecidableEq, Repr

def QuotaPolicy.default : QuotaPolicy where
  unknown := ⟨10_000, 50_000, 10⟩
  verified := ⟨50_000, 200_000, 50⟩
  trusted := ⟨200_000, 1_000_000, 200⟩
  operator := TierLimits.unlimited
  escalationThreshold := defaultEscalationThreshold
  escalationCooldownNs := defaultEscalationCooldownNs

def QuotaPolicy.forTier (p : QuotaPolicy) : TrustTier → TierLimits
  | .unknown => p.unknown
  | .verified => p.verified
  | .trusted => p.trusted
  | .operator => p.operator

inductive ExceededReason where
  | hourlyTokenLimit (used limit : Nat)
  | dailyTokenLimit (used limit : Nat)
  | hourlyRequestLimit (used limit : Nat)
  deriving DecidableEq, Repr

inductive QuotaResult where
  | allowed (remainingHourlyTokens remainingDailyTokens remainingHourlyRequests : Nat)
  | exceeded (userId : String) (reason : ExceededReason) (retryAfterNs : Nat)
  deriving DecidableEq, Repr

def QuotaResult.isAllowed : QuotaResult → Bool
  | .allowed .. => true
  | .exceeded .. => false

def QuotaResult.isExceeded : QuotaResult → Bool
  | .allowed .. => false
  | .exceeded .. => true

/-- An event is its time and its tokens; the front of a deque is its oldest entry. -/
structure UserUsage where
  hourlyTokens : List (Nat × Nat)
  dailyTokens : List (Nat × Nat)
  hourlyRequests : List Nat
  consecutiveViolations : Nat
  lastEscalationNs : Nat
  deriving DecidableEq, Repr

def UserUsage.new : UserUsage := ⟨[], [], [], 0, 0⟩

def drainStale (u : UserUsage) (nowNs : Nat) : UserUsage :=
  { u with
    hourlyTokens := drain Prod.fst (nowNs - hourNs) u.hourlyTokens
    dailyTokens := drain Prod.fst (nowNs - dayNs) u.dailyTokens
    hourlyRequests := drain id (nowNs - hourNs) u.hourlyRequests }

def tokensUsed (events : List (Nat × Nat)) : Nat := wrap 64 (total Prod.snd events)

def hourlyTokensUsed (u : UserUsage) : Nat := tokensUsed u.hourlyTokens

def dailyTokensUsed (u : UserUsage) : Nat := tokensUsed u.dailyTokens

def hourlyRequestsUsed (u : UserUsage) : Nat := u.hourlyRequests.length

/-- The expiry of the first event whose departure makes room for the request. -/
def retrySearch (span limit used tokens hint : Nat) (accumulated : Nat) :
    List (Nat × Nat) → Nat
  | [] => hint
  | (ts, t) :: rest =>
    let accumulated := satAdd 64 accumulated t
    if satAdd 64 (used - accumulated) tokens ≤ limit then satAdd 64 ts span
    else retrySearch span limit used tokens hint accumulated rest

/-- A request above the limit itself can never be served. -/
def retryHint (span limit used tokens nowNs : Nat) (events : List (Nat × Nat)) : Nat :=
  if tokens > limit then maxOf 64
  else retrySearch span limit used tokens (satAdd 64 nowNs span) 0 events

def requestRetryHint (nowNs : Nat) (u : UserUsage) : Nat :=
  match u.hourlyRequests.head? with
  | some ts => satAdd 64 ts hourNs
  | none => satAdd 64 nowNs hourNs

structure Request where
  userId : String
  tier : TrustTier
  tokens : Nat
  nowNs : Nat
  deriving DecidableEq, Repr

def violate (u : UserUsage) : UserUsage :=
  { u with consecutiveViolations := wrap 32 (u.consecutiveViolations + 1) }

def consume (u : UserUsage) (r : Request) : UserUsage :=
  { u with
    hourlyTokens := u.hourlyTokens ++ [(r.nowNs, r.tokens)]
    dailyTokens := u.dailyTokens ++ [(r.nowNs, r.tokens)]
    hourlyRequests := u.hourlyRequests ++ [r.nowNs]
    consecutiveViolations := 0 }

/-- The three checks on a drained usage, in the order of the source. -/
def checkLimits (limits : TierLimits) (u : UserUsage) (r : Request) : UserUsage × QuotaResult :=
  let hourlyTokens := hourlyTokensUsed u
  let dailyTokens := dailyTokensUsed u
  let hourlyReqs := hourlyRequestsUsed u
  if hourlyReqs ≥ limits.requestsPerHour then
    (violate u, .exceeded r.userId (.hourlyRequestLimit hourlyReqs limits.requestsPerHour)
      (requestRetryHint r.nowNs u))
  else if satAdd 64 hourlyTokens r.tokens > limits.tokensPerHour then
    (violate u, .exceeded r.userId (.hourlyTokenLimit hourlyTokens limits.tokensPerHour)
      (retryHint hourNs limits.tokensPerHour hourlyTokens r.tokens r.nowNs u.hourlyTokens))
  else if satAdd 64 dailyTokens r.tokens > limits.tokensPerDay then
    (violate u, .exceeded r.userId (.dailyTokenLimit dailyTokens limits.tokensPerDay)
      (retryHint dayNs limits.tokensPerDay dailyTokens r.tokens r.nowNs u.dailyTokens))
  else
    (consume u r, .allowed (limits.tokensPerHour - satAdd 64 hourlyTokens r.tokens)
      (limits.tokensPerDay - satAdd 64 dailyTokens r.tokens)
      (limits.requestsPerHour - satAdd 64 hourlyReqs 1))

structure UserQuotaTracker where
  policy : QuotaPolicy
  usage : String → Option UserUsage

def new (policy : QuotaPolicy) : UserQuotaTracker := ⟨policy, fun _ => none⟩

def put (s : UserQuotaTracker) (userId : String) (u : UserUsage) : UserQuotaTracker :=
  { s with usage := fun other => if other = userId then some u else s.usage other }

def usageOf (s : UserQuotaTracker) (userId : String) : UserUsage :=
  (s.usage userId).getD UserUsage.new

/-- An unlimited tier passes unrecorded; it only clears the violations of a known user. -/
def bypass (s : UserQuotaTracker) (userId : String) : UserQuotaTracker × QuotaResult :=
  (match s.usage userId with
    | some u => put s userId { u with consecutiveViolations := 0 }
    | none => s,
    .allowed (maxOf 64) (maxOf 64) (maxOf 64))

def checkAndConsume (s : UserQuotaTracker) (r : Request) : UserQuotaTracker × QuotaResult :=
  let limits := s.policy.forTier r.tier
  if limits.isUnlimited then bypass s r.userId
  else
    let checked := checkLimits limits (drainStale (usageOf s r.userId) r.nowNs) r
    (put s r.userId checked.1, checked.2)

/-! ## Snapshots -/

structure QuotaSnapshot where
  userId : String
  trustTier : TrustTier
  hourlyTokensUsed : Nat
  hourlyTokensLimit : Nat
  dailyTokensUsed : Nat
  dailyTokensLimit : Nat
  hourlyRequestsUsed : Nat
  hourlyRequestsLimit : Nat
  consecutiveViolations : Nat
  deriving DecidableEq, Repr

def hourlyTokensUsedAt (u : UserUsage) (nowNs : Nat) : Nat :=
  tokensUsed (since Prod.fst (nowNs - hourNs) u.hourlyTokens)

def dailyTokensUsedAt (u : UserUsage) (nowNs : Nat) : Nat :=
  tokensUsed (since Prod.fst (nowNs - dayNs) u.dailyTokens)

def hourlyRequestsUsedAt (u : UserUsage) (nowNs : Nat) : Nat :=
  (since id (nowNs - hourNs) u.hourlyRequests).length

/-- The figures are filtered out of the deques, which stay as they are. -/
def snapshot (s : UserQuotaTracker) (userId : String) (tier : TrustTier) (nowNs : Nat) :
    QuotaSnapshot :=
  let limits := s.policy.forTier tier
  let (hourlyUsed, dailyUsed, hourlyReqs, violations) :=
    match s.usage userId with
    | some u =>
      (hourlyTokensUsedAt u nowNs, dailyTokensUsedAt u nowNs, hourlyRequestsUsedAt u nowNs,
        u.consecutiveViolations)
    | none => (0, 0, 0, 0)
  { userId := userId
    trustTier := tier
    hourlyTokensUsed := hourlyUsed
    hourlyTokensLimit := limits.tokensPerHour
    dailyTokensUsed := dailyUsed
    dailyTokensLimit := limits.tokensPerDay
    hourlyRequestsUsed := hourlyReqs
    hourlyRequestsLimit := limits.requestsPerHour
    consecutiveViolations := violations }

abbrev calls (policy : QuotaPolicy) (requests : List Request) :
    List (Machine.Call UserQuotaTracker Request QuotaResult) :=
  Machine.trace checkAndConsume (new policy) requests

end QuotaTracker
