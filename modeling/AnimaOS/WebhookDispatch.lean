import AnimaOS.FixedWidth

/-!
# Webhook delivery with retries

One dispatch sends a payload until an attempt is accepted or the attempts are used
up, with a back-off that doubles. Its arithmetic is checked: an operation that does
not fit its width ends the dispatch.
-/

namespace WebhookDispatch

open FixedWidth

inductive DeliveryOutcome where
  | accepted
  | rejected (status : Nat) (error : String)
  | networkError (error : String)
  deriving DecidableEq, Repr

def DeliveryOutcome.isAccepted : DeliveryOutcome → Bool
  | .accepted => true
  | _ => false

structure DispatchStats where
  endpointId : String
  attempts : Nat
  success : Bool
  finalStatus : Option Nat
  lastError : Option String
  deriving DecidableEq, Repr

structure CumulativeStats where
  totalDispatches : Nat
  successful : Nat
  failed : Nat
  totalAttempts : Nat
  retries : Nat
  deriving DecidableEq, Repr

def CumulativeStats.default : CumulativeStats := ⟨0, 0, 0, 0, 0⟩

structure DispatchConfig where
  maxAttempts : UInt32
  baseBackoffMs : UInt64
  deriving DecidableEq, Repr

/-- The first attempt is made even when none is configured. -/
def DispatchConfig.limit (c : DispatchConfig) : Nat := max c.maxAttempts.toNat 1

/-- `1 << by` in 64 bits: the distance is checked, bits shifted out would be lost. -/
def checkedShl (distance : Nat) : Option Nat :=
  if distance < 64 then some (wrap 64 (1 <<< distance)) else none

/-- The pause before an attempt that is not the first. -/
def delayMs (c : DispatchConfig) (attempt : Nat) : Option Nat := do
  let factor ← checkedShl (attempt - 1)
  checked 64 (c.baseBackoffMs.toNat * factor)

structure Delivery where
  attempts : Nat
  lastOutcome : DeliveryOutcome
  slept : List Nat
  deriving DecidableEq, Repr

def pause (c : DispatchConfig) (attempt : Nat) (slept : List Nat) : Option (List Nat) :=
  if 0 < attempt then (delayMs c attempt).map fun delay =>
    if 0 < delay then slept ++ [delay] else slept
  else some slept

/-- The attempts from the given one on; `outcome` is what the sender answers to each. -/
def attemptsFrom (c : DispatchConfig) (outcome : Nat → DeliveryOutcome) :
    Nat → Nat → Delivery → Option Delivery
  | 0, _, d => some d
  | remaining + 1, attempt, d => do
    let attempts ← checked 32 (d.attempts + 1)
    let slept ← pause c attempt d.slept
    let d := ⟨attempts, outcome attempt, slept⟩
    if d.lastOutcome.isAccepted then some d
    else attemptsFrom c outcome remaining (attempt + 1) d

def deliver (c : DispatchConfig) (outcome : Nat → DeliveryOutcome) : Option Delivery :=
  attemptsFrom c outcome c.limit 0 ⟨0, .networkError "no attempt made", []⟩

def finalStatus : DeliveryOutcome → Option Nat × Option String
  | .accepted => (some 200, none)
  | .rejected status error => (some status, some error)
  | .networkError error => (none, some error)

def CumulativeStats.count (s : CumulativeStats) (d : Delivery) : Option CumulativeStats := do
  let totalDispatches ← checked 64 (s.totalDispatches + 1)
  let totalAttempts ← checked 64 (s.totalAttempts + d.attempts)
  let retries ← checked 64 (s.retries + (d.attempts - 1))
  let successful ← checked 64 (if d.lastOutcome.isAccepted then s.successful + 1 else s.successful)
  let failed ← checked 64 (if d.lastOutcome.isAccepted then s.failed else s.failed + 1)
  some ⟨totalDispatches, successful, failed, totalAttempts, retries⟩

structure WebhookDispatcher where
  config : DispatchConfig
  stats : CumulativeStats
  deriving DecidableEq, Repr

def withSender (config : DispatchConfig) : WebhookDispatcher := ⟨config, .default⟩

/-- One dispatch: the endpoint and what the sender answers to each attempt. -/
structure Dispatch where
  endpointId : String
  outcome : Nat → DeliveryOutcome

def dispatch (w : WebhookDispatcher) (call : Dispatch) :
    Option (WebhookDispatcher × DispatchStats) := do
  let d ← deliver w.config call.outcome
  let stats ← w.stats.count d
  some ({ w with stats := stats },
    ⟨call.endpointId, d.attempts, d.lastOutcome.isAccepted, (finalStatus d.lastOutcome).1,
      (finalStatus d.lastOutcome).2⟩)

def dispatchAll (w : WebhookDispatcher) :
    List Dispatch → Option (WebhookDispatcher × List DispatchStats)
  | [] => some (w, [])
  | call :: rest => do
    let (w, stats) ← dispatch w call
    let (w, later) ← dispatchAll w rest
    some (w, stats :: later)

/-! ## What is asked of the retries -/

/-- The attempt is within the limit and none before it was accepted. -/
def Tried (c : DispatchConfig) (outcome : Nat → DeliveryOutcome) (attempt : Nat) : Prop :=
  attempt < c.limit ∧ ∀ earlier < attempt, (outcome earlier).isAccepted = false

instance (c : DispatchConfig) (outcome : Nat → DeliveryOutcome) :
    DecidablePred (Tried c outcome) := fun _ => inferInstanceAs (Decidable (_ ∧ _))

/-- How many attempts the answers of the sender call for. -/
def tries (c : DispatchConfig) (outcome : Nat → DeliveryOutcome) : Nat :=
  Nat.count (Tried c outcome) c.limit

/-- Stopped at the first accepted attempt, or else after the last one allowed. -/
structure Stopped (c : DispatchConfig) (call : Dispatch) (stats : DispatchStats) : Prop where
  made : 1 ≤ stats.attempts
  within : stats.attempts ≤ c.limit
  earlier : ∀ k < stats.attempts - 1, (call.outcome k).isAccepted = false
  success : stats.success = (call.outcome (stats.attempts - 1)).isAccepted
  ended : stats.success = true ∨ stats.attempts = c.limit

/-- The run ends, every dispatch stops where it should, and the statistics add up. -/
def Accounted (c : DispatchConfig) (calls : List Dispatch) : Prop :=
  ∃ w results, dispatchAll (withSender c) calls = some (w, results) ∧
    List.Forall₂ (Stopped c) calls results ∧
    w.stats.totalDispatches = calls.length ∧
    w.stats.successful + w.stats.failed = calls.length ∧
    w.stats.totalAttempts = (results.map DispatchStats.attempts).sum

/-- The back-off of an attempt fits in 64 bits. -/
def Fits (c : DispatchConfig) (attempt : Nat) : Prop :=
  attempt - 1 < 64 ∧ c.baseBackoffMs.toNat * 2 ^ (attempt - 1) ≤ maxOf 64

/-- Every back-off of the dispatch fits. -/
def BackoffFits (c : DispatchConfig) (call : Dispatch) : Prop :=
  ∀ attempt, 1 ≤ attempt → Tried c call.outcome attempt → Fits c attempt

/-! ## One dispatch -/

theorem delayMs_eq (c : DispatchConfig) (attempt : Nat) :
    delayMs c attempt =
      if attempt - 1 < 64 then checked 64 (c.baseBackoffMs.toNat * 2 ^ (attempt - 1)) else none := by
  simp only [delayMs, checkedShl]
  split
  · rename_i near
    have small : 2 ^ (attempt - 1) < 2 ^ 64 := Nat.pow_lt_pow_right (by decide) near
    rw [Nat.one_shiftLeft, wrap, Nat.mod_eq_of_lt small]
    rfl
  · rfl

theorem pause_isSome (c : DispatchConfig) (attempt : Nat) (slept : List Nat) :
    (pause c attempt slept).isSome = true ↔ (1 ≤ attempt → Fits c attempt) := by
  simp only [pause, delayMs_eq, Fits, checked]
  by_cases first : 0 < attempt
  · by_cases near : attempt - 1 < 64
    · by_cases small : c.baseBackoffMs.toNat * 2 ^ (attempt - 1) ≤ maxOf 64
      · simp [first, near, small]
      · simp [first, near, small]
        omega
    · simp [first, near]
      omega
  · simp [first]
    omega

theorem limit_le (c : DispatchConfig) : c.limit ≤ maxOf 32 := by
  have small := c.maxAttempts.toNat_lt
  simp only [DispatchConfig.limit, maxOf]
  omega

/-- The loop before an attempt: all earlier ones were made and refused. -/
structure Before (c : DispatchConfig) (outcome : Nat → DeliveryOutcome) (remaining attempt : Nat)
    (d : Delivery) : Prop where
  made : d.attempts = attempt
  total : attempt + remaining = c.limit
  refused : ∀ k < attempt, (outcome k).isAccepted = false
  last : 1 ≤ attempt → d.lastOutcome = outcome (attempt - 1)

/-- The loop at its end: exactly the attempts called for were made. -/
structure Ended (c : DispatchConfig) (outcome : Nat → DeliveryOutcome) (d : Delivery) : Prop where
  tried : ∀ k, Tried c outcome k ↔ k < d.attempts
  made : 1 ≤ d.attempts
  last : d.lastOutcome = outcome (d.attempts - 1)

variable {c : DispatchConfig} {outcome : Nat → DeliveryOutcome}

theorem limit_pos (c : DispatchConfig) : 1 ≤ c.limit := Nat.le_max_right _ _

theorem Before.counted {remaining attempt : Nat} {d : Delivery}
    (before : Before c outcome (remaining + 1) attempt d) :
    checked 32 (d.attempts + 1) = some (attempt + 1) := by
  have small := limit_le c
  have total := before.total
  rw [before.made]
  exact checked_of_le (by omega)

theorem Before.tried {remaining attempt : Nat} {d : Delivery}
    (before : Before c outcome (remaining + 1) attempt d) : Tried c outcome attempt := by
  have total := before.total
  exact ⟨by omega, before.refused⟩

theorem Before.next {remaining attempt : Nat} {d : Delivery}
    (before : Before c outcome (remaining + 1) attempt d)
    (refused : (outcome attempt).isAccepted = false) (slept : List Nat) :
    Before c outcome remaining (attempt + 1) ⟨attempt + 1, outcome attempt, slept⟩ := by
  have total := before.total
  refine ⟨rfl, by omega, ?_, fun _ => rfl⟩
  intro k below
  rcases Nat.lt_succ_iff_lt_or_eq.mp below with earlier | rfl
  · exact before.refused k earlier
  · exact refused

theorem Ended.ofAccepted {remaining attempt : Nat} {d : Delivery}
    (before : Before c outcome (remaining + 1) attempt d)
    (accepted : (outcome attempt).isAccepted = true) (slept : List Nat) :
    Ended c outcome ⟨attempt + 1, outcome attempt, slept⟩ := by
  have total := before.total
  refine ⟨fun k => ?_, Nat.le_add_left 1 attempt, rfl⟩
  change _ ↔ k < attempt + 1
  constructor
  · rintro ⟨-, refused⟩
    by_contra late
    have contrary := refused attempt (by omega)
    rw [accepted] at contrary
    cases contrary
  · intro below
    exact ⟨by omega, fun earlier early => before.refused earlier (by omega)⟩

theorem Ended.ofLimit {attempt : Nat} {d : Delivery} (before : Before c outcome 0 attempt d) :
    Ended c outcome d := by
  have total := before.total
  have positive := limit_pos c
  have made := before.made
  refine ⟨fun k => ⟨fun tried => ?_, fun below => ?_⟩, by omega, ?_⟩
  · have within := tried.1
    omega
  · exact ⟨by omega, fun earlier early => before.refused earlier (by omega)⟩
  · rw [before.last (by omega), made]

/-- The loop ends unless some back-off it comes to does not fit. -/
theorem attemptsFrom_ends {remaining attempt : Nat} {d : Delivery}
    (before : Before c outcome remaining attempt d)
    (fits : ∀ k, attempt ≤ k → 1 ≤ k → Tried c outcome k → Fits c k) :
    ∃ r, attemptsFrom c outcome remaining attempt d = some r ∧ Ended c outcome r := by
  induction remaining generalizing attempt d with
  | zero => exact ⟨d, rfl, Ended.ofLimit before⟩
  | succ remaining ih =>
    have paused : (pause c attempt d.slept).isSome = true :=
      (pause_isSome c attempt d.slept).mpr fun first => fits attempt le_rfl first before.tried
    obtain ⟨slept, pauses⟩ := Option.isSome_iff_exists.mp paused
    cases accepted : (outcome attempt).isAccepted with
    | true =>
      refine ⟨⟨attempt + 1, outcome attempt, slept⟩, ?_, Ended.ofAccepted before accepted slept⟩
      simp [attemptsFrom, before.counted, pauses, accepted]
    | false =>
      obtain ⟨r, loop, ended⟩ := ih (before.next accepted slept)
        fun k later => fits k (by omega)
      refine ⟨r, ?_, ended⟩
      simp [attemptsFrom, before.counted, pauses, accepted, loop]

/-- When the loop ends, every back-off it came to fitted. -/
theorem attemptsFrom_fits {remaining attempt : Nat} {d r : Delivery}
    (before : Before c outcome remaining attempt d)
    (loop : attemptsFrom c outcome remaining attempt d = some r) {k : Nat} (later : attempt ≤ k)
    (first : 1 ≤ k) (tried : Tried c outcome k) : Fits c k := by
  induction remaining generalizing attempt d with
  | zero =>
    have total := before.total
    have within := tried.1
    omega
  | succ remaining ih =>
    rw [attemptsFrom, before.counted] at loop
    cases pauses : pause c attempt d.slept with
    | none => simp [pauses] at loop
    | some slept =>
      have fits := (pause_isSome c attempt d.slept).mp (by rw [pauses]; rfl)
      rcases Nat.eq_or_lt_of_le later with same | after
      · exact same ▸ fits (same ▸ first)
      · have refused := tried.2 attempt after
        refine ih (before.next refused slept) ?_ after
        simpa [pauses, refused] using loop

theorem Before.start (c : DispatchConfig) (outcome : Nat → DeliveryOutcome) :
    Before c outcome c.limit 0 ⟨0, .networkError "no attempt made", []⟩ :=
  ⟨rfl, Nat.zero_add _, fun _ below => absurd below (Nat.not_lt_zero _), fun first => by omega⟩

theorem deliver_ends {call : Dispatch} (fits : BackoffFits c call) :
    ∃ d, deliver c call.outcome = some d ∧ Ended c call.outcome d :=
  attemptsFrom_ends (Before.start c call.outcome) fun k _ first tried => fits k first tried

theorem deliver_fits {call : Dispatch} {d : Delivery} (done : deliver c call.outcome = some d) :
    BackoffFits c call := fun k first tried =>
  attemptsFrom_fits (Before.start c call.outcome) done (Nat.zero_le k) first tried

theorem Ended.within {d : Delivery} (ended : Ended c outcome d) : d.attempts ≤ c.limit := by
  by_contra beyond
  have tried := (ended.tried c.limit).mpr (by omega)
  exact absurd tried.1 (Nat.lt_irrefl _)

theorem count_below {p : Nat → Prop} [DecidablePred p] {m : Nat} (below : ∀ k, p k ↔ k < m)
    (n : Nat) : Nat.count p n = min n m := by
  induction n with
  | zero => simp
  | succ n ih =>
    rw [Nat.count_succ, ih]
    simp only [below]
    split <;> omega

theorem Ended.tries_eq {d : Delivery} (ended : Ended c outcome d) :
    tries c outcome = d.attempts := by
  have within := ended.within
  rw [tries, count_below ended.tried]
  omega

theorem Ended.stopped {call : Dispatch} {d : Delivery} (ended : Ended c call.outcome d)
    (status : Option Nat) (error : Option String) : Stopped c call
      ⟨call.endpointId, d.attempts, d.lastOutcome.isAccepted, status, error⟩ := by
  have made := ended.made
  have lastTried := (ended.tried (d.attempts - 1)).mpr (by omega)
  refine ⟨made, ended.within, lastTried.2, by rw [ended.last], ?_⟩
  by_contra unfinished
  obtain ⟨refused, fewer⟩ := not_or.mp unfinished
  have within := ended.within
  have another : Tried c call.outcome d.attempts := by
    refine ⟨lt_of_le_of_ne within fewer, ?_⟩
    intro earlier early
    rcases Nat.lt_or_eq_of_le (Nat.le_sub_one_of_lt early) with before | rfl
    · exact lastTried.2 earlier before
    · simpa [ended.last] using refused
  exact absurd ((ended.tried d.attempts).mp another) (Nat.lt_irrefl _)

/-! ## The statistics -/

structure Balanced (s : CumulativeStats) : Prop where
  outcomes : s.successful + s.failed = s.totalDispatches
  retries : s.retries + s.totalDispatches = s.totalAttempts

/-- No counter outgrows the attempts, so theirs is the only sum that has to fit. -/
theorem count_balanced {s : CumulativeStats} (balanced : Balanced s) {d : Delivery}
    (made : 1 ≤ d.attempts) (room : s.totalAttempts + d.attempts ≤ maxOf 64) :
    ∃ s', s.count d = some s' ∧ Balanced s' ∧ s'.totalDispatches = s.totalDispatches + 1 ∧
      s'.totalAttempts = s.totalAttempts + d.attempts := by
  have outcomes := balanced.outcomes
  have retries := balanced.retries
  cases accepted : d.lastOutcome.isAccepted with
  | true =>
    refine ⟨⟨s.totalDispatches + 1, s.successful + 1, s.failed, s.totalAttempts + d.attempts,
      s.retries + (d.attempts - 1)⟩, ?_, ⟨?_, ?_⟩, rfl, rfl⟩
    · simp only [CumulativeStats.count, accepted, Option.bind_eq_bind, Option.bind_eq_some_iff,
        checked_eq_some, if_true]
      refine ⟨_, ⟨?_, rfl⟩, _, ⟨room, rfl⟩, _, ⟨?_, rfl⟩, _, ⟨?_, rfl⟩, _, ⟨?_, rfl⟩, rfl⟩ <;> omega
    · change s.successful + 1 + s.failed = s.totalDispatches + 1
      omega
    · change s.retries + (d.attempts - 1) + (s.totalDispatches + 1) = s.totalAttempts + d.attempts
      omega
  | false =>
    refine ⟨⟨s.totalDispatches + 1, s.successful, s.failed + 1, s.totalAttempts + d.attempts,
      s.retries + (d.attempts - 1)⟩, ?_, ⟨?_, ?_⟩, rfl, rfl⟩
    · simp only [CumulativeStats.count, accepted, Option.bind_eq_bind, Option.bind_eq_some_iff,
        checked_eq_some, Bool.false_eq_true, if_false]
      refine ⟨_, ⟨?_, rfl⟩, _, ⟨room, rfl⟩, _, ⟨?_, rfl⟩, _, ⟨?_, rfl⟩, _, ⟨?_, rfl⟩, rfl⟩ <;> omega
    · change s.successful + (s.failed + 1) = s.totalDispatches + 1
      omega
    · change s.retries + (d.attempts - 1) + (s.totalDispatches + 1) = s.totalAttempts + d.attempts
      omega

theorem count_fits {s s' : CumulativeStats} {d : Delivery} (counted : s.count d = some s') :
    s.totalAttempts + d.attempts ≤ maxOf 64 := by
  simp only [CumulativeStats.count, Option.bind_eq_bind, Option.bind_eq_some_iff,
    checked_eq_some] at counted
  obtain ⟨-, -, -, ⟨room, -⟩, -⟩ := counted
  exact room

/-- The attempts the answers call for, over several dispatches. -/
def triesOf (c : DispatchConfig) (calls : List Dispatch) : Nat :=
  (calls.map fun call => tries c call.outcome).sum

/-- The back-offs fit in 64 bits, and so do the attempts counted so far with the ones to come. -/
def RunFits (w : WebhookDispatcher) (calls : List Dispatch) : Prop :=
  (∀ call ∈ calls, BackoffFits w.config call) ∧
    w.stats.totalAttempts + triesOf w.config calls ≤ maxOf 64

theorem dispatch_ends {w : WebhookDispatcher} {call : Dispatch} (balanced : Balanced w.stats)
    (fits : BackoffFits w.config call)
    (room : w.stats.totalAttempts + tries w.config call.outcome ≤ maxOf 64) :
    ∃ s r, dispatch w call = some (⟨w.config, s⟩, r) ∧ Stopped w.config call r ∧ Balanced s ∧
      s.totalDispatches = w.stats.totalDispatches + 1 ∧
      s.totalAttempts = w.stats.totalAttempts + r.attempts ∧
      r.attempts = tries w.config call.outcome := by
  obtain ⟨d, delivered, ended⟩ := deliver_ends fits
  rw [ended.tries_eq] at room ⊢
  obtain ⟨s, counted, still, dispatches, attempts⟩ := count_balanced balanced ended.made room
  refine ⟨s, ⟨call.endpointId, d.attempts, d.lastOutcome.isAccepted,
    (finalStatus d.lastOutcome).1, (finalStatus d.lastOutcome).2⟩, ?_,
    ended.stopped _ _, still, dispatches, attempts, rfl⟩
  simp [dispatch, delivered, counted]

theorem dispatch_fits {w : WebhookDispatcher} {call : Dispatch}
    {answer : WebhookDispatcher × DispatchStats} (done : dispatch w call = some answer) :
    BackoffFits w.config call ∧
      w.stats.totalAttempts + tries w.config call.outcome ≤ maxOf 64 := by
  simp only [dispatch, Option.bind_eq_bind, Option.bind_eq_some_iff] at done
  obtain ⟨d, delivered, s, counted, -⟩ := done
  have fits := deliver_fits delivered
  obtain ⟨d', again, ended⟩ := deliver_ends fits
  rw [delivered] at again
  cases again
  rw [ended.tries_eq]
  exact ⟨fits, count_fits counted⟩

theorem dispatchAll_ends {w : WebhookDispatcher} {calls : List Dispatch}
    (balanced : Balanced w.stats) (fits : RunFits w calls) :
    ∃ s results, dispatchAll w calls = some (⟨w.config, s⟩, results) ∧
      List.Forall₂ (Stopped w.config) calls results ∧ Balanced s ∧
      s.totalDispatches = w.stats.totalDispatches + calls.length ∧
      s.totalAttempts = w.stats.totalAttempts + (results.map DispatchStats.attempts).sum := by
  induction calls generalizing w with
  | nil => exact ⟨w.stats, [], rfl, .nil, balanced, rfl, rfl⟩
  | cons call rest ih =>
    obtain ⟨backoffs, room⟩ := fits
    rw [triesOf, List.map_cons, List.sum_cons] at room
    obtain ⟨s, r, first, stopped, still, dispatches, attempts, made⟩ :=
      dispatch_ends balanced (backoffs call List.mem_cons_self) (by omega)
    have later : RunFits ⟨w.config, s⟩ rest := by
      refine ⟨fun other listed => backoffs other (List.mem_cons_of_mem call listed), ?_⟩
      simp only [attempts, made, triesOf]
      omega
    obtain ⟨s', results, run, all, last, total, sum⟩ := ih still later
    refine ⟨s', r :: results, ?_, .cons stopped all, last, ?_, ?_⟩
    · simp [dispatchAll, first, run]
    · rw [total, List.length_cons]
      simp only [dispatches]
      omega
    · rw [sum, List.map_cons, List.sum_cons]
      simp only [attempts]
      omega

theorem dispatchAll_fits {w : WebhookDispatcher} {calls : List Dispatch}
    (balanced : Balanced w.stats) {answer : WebhookDispatcher × List DispatchStats}
    (done : dispatchAll w calls = some answer) (bounded : w.stats.totalAttempts ≤ maxOf 64) :
    RunFits w calls := by
  induction calls generalizing w answer with
  | nil => exact ⟨fun _ listed => absurd listed List.not_mem_nil, bounded⟩
  | cons call rest ih =>
    simp only [dispatchAll, Option.bind_eq_bind, Option.bind_eq_some_iff] at done
    obtain ⟨answered, first, more, run, -⟩ := done
    obtain ⟨fits, room⟩ := dispatch_fits first
    obtain ⟨s, r, again, -, still, -, attempts, made⟩ := dispatch_ends balanced fits room
    rw [first] at again
    cases again
    have later := ih still run (by simp only [attempts, made]; omega)
    constructor
    · intro other listed
      rcases List.mem_cons.mp listed with rfl | listed
      · exact fits
      · exact later.1 other listed
    · have sum := later.2
      simp only [attempts, made, triesOf] at sum
      rw [triesOf, List.map_cons, List.sum_cons]
      omega

/-- The retries are accounted for exactly when every back-off of an attempt made fits in 64 bits,
and so do the attempts of the whole run. -/
theorem accounted_iff (c : DispatchConfig) (calls : List Dispatch) :
    Accounted c calls ↔
      (∀ call ∈ calls, BackoffFits c call) ∧ triesOf c calls ≤ maxOf 64 := by
  have balanced : Balanced (withSender c).stats := ⟨rfl, rfl⟩
  have total : (withSender c).stats.totalAttempts = 0 := rfl
  constructor
  · rintro ⟨w, results, run, -⟩
    have fits := dispatchAll_fits balanced run (by omega)
    have room := fits.2
    rw [total, Nat.zero_add] at room
    exact ⟨fits.1, room⟩
  · rintro ⟨backoffs, room⟩
    obtain ⟨s, results, run, stopped, still, dispatches, attempts⟩ :=
      dispatchAll_ends (w := withSender c) balanced
        ⟨backoffs, by rw [total, Nat.zero_add]; exact room⟩
    have counted : s.totalDispatches = calls.length := by
      rw [dispatches]
      exact Nat.zero_add _
    refine ⟨_, results, run, stopped, counted, still.outcomes.trans counted, ?_⟩
    rw [attempts, total, Nat.zero_add]

def refusing : Dispatch := ⟨"hook", fun _ => .rejected 500 "unavailable"⟩

/-- Without any pause the shift for the back-off of the sixty-sixth attempt overflows. -/
theorem shift_overflows :
    ¬ Accounted ⟨66, 0⟩ [refusing] ∧ dispatchAll (withSender ⟨66, 0⟩) [refusing] = none ∧
      (dispatchAll (withSender ⟨65, 0⟩) [refusing]).isSome = true := by
  have stops : dispatchAll (withSender ⟨66, 0⟩) [refusing] = none := by
    decide +kernel
  refine ⟨?_, stops, by decide +kernel⟩
  rintro ⟨w, results, run, -⟩
  rw [stops] at run
  cases run

end WebhookDispatch
