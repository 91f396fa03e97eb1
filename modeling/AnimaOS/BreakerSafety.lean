import AnimaOS.ToolRegistry

/-!
# Failed probes and the cooldown

A failure trips a half-open breaker exactly when enough failures were recorded
since the last success. Outcomes of calls admitted before the trip count too: a
late success resets the count while the breaker is open, and the probe after the
cooldown then fails without tripping it. The cooldown itself always holds.
-/

namespace ToolRegistry

open FixedWidth Machine

universe u

variable {D : Type u}

inductive Outcome where
  | success
  | failure
  deriving DecidableEq, Repr

def outcomeOf : ToolResult → Option Outcome
  | .ok _ => some .success
  | .error .breakerOpen => none
  | .error _ => some .failure

/-- The tool whose breaker an event writes an outcome to, and the outcome. -/
def recorded (s : System D) : Event D → Option (String × Outcome)
  | .dispatchEnd flight result =>
    match s.inFlight[flight]? with
    | some f =>
      if (s.entries f.envelope.toolId).isSome then
        (outcomeOf result).map fun outcome => (f.envelope.toolId, outcome)
      else none
    | none => none
  | _ => none

def registers (id : String) : Event D → Bool
  | .register driver => driver.id = id
  | _ => false

def tally (id : String) (failures : Nat) (c : Call (System D) (Request D) (Response D)) : Nat :=
  if registers id c.request.event then 0
  else if recorded c.before c.request.event = some (id, .success) then 0
  else if recorded c.before c.request.event = some (id, .failure) then failures + 1
  else failures

/-- Failures recorded for a tool since its last recorded success or its registration. -/
def failuresSince (cfg : Settings) (id : String) (run : List (Request D)) : Nat :=
  (trace (step cfg) empty run).foldl (tally id) 0

/-! ## The three operations of a breaker -/

namespace CircuitBreaker

variable (b : CircuitBreaker) (openThreshold now : Nat)

theorem recordFailure_eq : b.recordFailure openThreshold now =
    ⟨satAdd 32 b.failureCount 1,
      if openThreshold ≤ satAdd 32 b.failureCount 1 then .opened else b.state,
      some now, b.cooldown⟩ := by
  simp only [recordFailure, ge_iff_le]
  split <;> rfl

theorem recordSuccess_eq : b.recordSuccess =
    ⟨0, if b.state = .halfOpen then .closed else b.state, b.lastFailure, b.cooldown⟩ := by
  simp only [recordSuccess]
  split <;> rfl

theorem verify_cases : (b.verifyPathwayHealth now).1 = b ∨
    (b.state = .opened ∧ (b.verifyPathwayHealth now).1 = { b with state := .halfOpen }) := by
  by_cases opened : b.state = .opened
  · cases failed : b.lastFailure with
    | none => simp [verifyPathwayHealth, opened, failed]
    | some last =>
      by_cases late : now - last > b.cooldown <;>
        simp [verifyPathwayHealth, opened, failed, late]
  · simp [verifyPathwayHealth, opened]

theorem verify_refuses {last : Nat} (opened : b.state = .opened) (failed : b.lastFailure = some last)
    (early : now - last ≤ b.cooldown) :
    b.verifyPathwayHealth now = (b, .error .breakerOpen) := by
  simp [verifyPathwayHealth, opened, failed, Nat.not_lt.mpr early]

end CircuitBreaker

/-! ## What one event does to one breaker -/

theorem breakerOf_insert (entries : Entries D) (id other : String) (entry : RegistryEntry D) :
    breakerOf (insert entries id entry) other =
      if other = id then some entry.breaker else breakerOf entries other := by
  by_cases same : other = id <;> simp [breakerOf, insert, same]

theorem checkAdmission_breaker (entries : Entries D) (envelope : ToolEnvelope) (now : Nat) (id : String) :
    breakerOf (checkAdmission entries envelope now).1 id =
      if id = envelope.toolId then
        (breakerOf entries id).map fun b => (b.verifyPathwayHealth now).1
      else breakerOf entries id := by
  cases found : entries envelope.toolId with
  | none =>
    by_cases same : id = envelope.toolId <;> simp [checkAdmission, breakerOf, same, found]
  | some entry =>
    have written : (checkAdmission entries envelope now).1 = insert entries envelope.toolId
        { entry with breaker := (entry.breaker.verifyPathwayHealth now).1 } := by
      simp only [checkAdmission, found]
      split <;> rfl
    simp only [written, breakerOf_insert]
    by_cases same : id = envelope.toolId
    · rw [if_pos same, if_pos same, same]
      simp [breakerOf, found]
    · rw [if_neg same, if_neg same]

theorem recordOutcome_breaker (cfg : Settings) (entries : Entries D) (toolId : String)
    (result : ToolResult) (now : Nat) (id : String) :
    breakerOf (recordOutcome cfg entries toolId result now) id =
      if id = toolId then
        (breakerOf entries id).map fun b =>
          match outcomeOf result with
          | some .success => b.recordSuccess
          | some .failure => b.recordFailure cfg.openThreshold now
          | none => b
      else breakerOf entries id := by
  cases found : entries toolId with
  | none =>
    by_cases same : id = toolId <;> simp [recordOutcome, breakerOf, same, found]
  | some entry =>
    rcases result with e | bytes
    · cases e <;> by_cases same : id = toolId <;>
        simp [recordOutcome, found, breakerOf, insert, outcomeOf, same]
    · by_cases same : id = toolId <;>
        simp [recordOutcome, found, breakerOf, insert, outcomeOf, same]

/-- The breaker of a tool is replaced, gets an outcome recorded, is checked, or is left alone. -/
theorem step_breaker (cfg : Settings) (s : System D) (r : Request D) (id : String) :
    (registers id r.event = true ∧
      breakerOf (step cfg s r).1.entries id = some (CircuitBreaker.withCooldown cfg.cooldown)) ∨
    (registers id r.event = false ∧
      ((∃ b, recorded s r.event = some (id, .success) ∧ breakerOf s.entries id = some b ∧
          breakerOf (step cfg s r).1.entries id = some b.recordSuccess) ∨
        (∃ b, recorded s r.event = some (id, .failure) ∧ breakerOf s.entries id = some b ∧
          breakerOf (step cfg s r).1.entries id =
            some (b.recordFailure cfg.openThreshold (s.now + r.elapsed))) ∨
        ((∀ outcome, recorded s r.event ≠ some (id, outcome)) ∧
          (breakerOf (step cfg s r).1.entries id = breakerOf s.entries id ∨
            ∃ b, breakerOf s.entries id = some b ∧ b.state = .opened ∧
              breakerOf (step cfg s r).1.entries id = some { b with state := .halfOpen })))) := by
  obtain ⟨elapsed, event⟩ := r
  cases event with
  | register driver =>
    by_cases same : driver.id = id
    · left
      simp [registers, step, register, breakerOf_insert, same]
    · right
      have other : ¬ id = driver.id := fun h => same h.symm
      simp [registers, recorded, step, register, breakerOf_insert, same, other]
  | dispatchBegin envelope =>
    right
    refine ⟨rfl, .inr (.inr ⟨by simp [recorded], ?_⟩)⟩
    have written : (step cfg s ⟨elapsed, .dispatchBegin envelope⟩).1.entries =
        (checkAdmission s.entries envelope (s.now + elapsed)).1 := by
      simp only [step]
      split <;> rename_i admitted <;> rw [admitted]
    simp only [written, checkAdmission_breaker]
    by_cases same : id = envelope.toolId
    · rw [if_pos same]
      cases was : breakerOf s.entries id with
      | none => exact .inl rfl
      | some b =>
        rcases b.verify_cases (s.now + elapsed) with kept | ⟨opened, probing⟩
        · exact .inl (congrArg some kept)
        · exact .inr ⟨b, rfl, opened, congrArg some probing⟩
    · exact .inl (if_neg same)
  | dispatchEnd flight result =>
    right
    refine ⟨rfl, ?_⟩
    cases landed : s.inFlight[flight]? with
    | none =>
      refine .inr (.inr ⟨by simp [recorded, landed], .inl ?_⟩)
      simp [step, landed]
    | some f =>
      have written := recordOutcome_breaker cfg s.entries f.envelope.toolId result
        (s.now + elapsed) id
      simp only [step, landed, recorded, written]
      by_cases same : id = f.envelope.toolId
      · subst same
        rw [if_pos rfl]
        cases found : s.entries f.envelope.toolId with
        | none => simp [breakerOf, found]
        | some entry =>
          cases outcome : outcomeOf result with
          | none => simp [breakerOf, found]
          | some o => cases o <;> simp [breakerOf, found]
      · rw [if_neg same]
        refine .inr (.inr ⟨?_, .inl rfl⟩)
        intro outcome
        split
        · cases outcomeOf result <;> simp [Ne.symm same]
        · simp

/-! ## Runs -/

theorem after_snoc (cfg : Settings) (run : List (Request D)) (r : Request D) :
    after cfg (run ++ [r]) = (step cfg (after cfg run) r).1 :=
  final_snoc (step cfg) empty run r

theorem step_now (cfg : Settings) (s : System D) (r : Request D) :
    (step cfg s r).1.now = s.now + r.elapsed := by
  obtain ⟨elapsed, event⟩ := r
  cases event with
  | register driver => rfl
  | dispatchBegin envelope =>
    simp only [step]
    split <;> rfl
  | dispatchEnd flight result =>
    simp only [step]
    split <;> rfl

theorem failuresSince_snoc (cfg : Settings) (id : String) (run : List (Request D)) (r : Request D) :
    failuresSince cfg id (run ++ [r]) =
      tally id (failuresSince cfg id run) ⟨after cfg run, r, (step cfg (after cfg run) r).2⟩ := by
  simp only [failuresSince, trace_append, List.foldl_append]
  rfl

/-- How a breaker and the failures counted for it come out of one more step of a run. -/
theorem run_breaker {cfg : Settings} {id : String} {run : List (Request D)} {r : Request D}
    {b : CircuitBreaker} (hb : breakerOf (after cfg (run ++ [r])).entries id = some b) :
    (b = CircuitBreaker.withCooldown cfg.cooldown ∧ failuresSince cfg id (run ++ [r]) = 0) ∨
    ∃ a, breakerOf (after cfg run).entries id = some a ∧
      ((b = a.recordSuccess ∧ recorded (after cfg run) r.event = some (id, .success) ∧
          failuresSince cfg id (run ++ [r]) = 0) ∨
        (b = a.recordFailure cfg.openThreshold (after cfg (run ++ [r])).now ∧
          failuresSince cfg id (run ++ [r]) = failuresSince cfg id run + 1) ∨
        ((b = a ∨ (a.state = .opened ∧ b = { a with state := .halfOpen })) ∧
          failuresSince cfg id (run ++ [r]) = failuresSince cfg id run)) := by
  simp only [after_snoc, failuresSince_snoc, step_now] at hb ⊢
  rcases step_breaker cfg (after cfg run) r id with
    ⟨new, written⟩ | ⟨old, ⟨a, outcome, was, written⟩ | ⟨a, outcome, was, written⟩ |
      ⟨silent, written | ⟨a, was, opened, written⟩⟩⟩ <;> rw [written] at hb
  · cases hb
    simp [tally, new]
  · cases hb
    exact .inr ⟨a, was, .inl ⟨rfl, outcome, by simp [tally, old, outcome]⟩⟩
  · cases hb
    exact .inr ⟨a, was, .inr (.inl ⟨rfl, by simp [tally, old, outcome]⟩)⟩
  · exact .inr ⟨b, hb, .inr (.inr ⟨.inl rfl, by simp [tally, old, silent]⟩)⟩
  · cases hb
    exact .inr ⟨a, was, .inr (.inr ⟨.inr ⟨opened, rfl⟩, by simp [tally, old, silent]⟩)⟩

/-- The count of a breaker is the history's, up to its saturation. -/
theorem counted (cfg : Settings) (id : String) (run : List (Request D)) :
    ∀ b, breakerOf (after cfg run).entries id = some b →
      b.failureCount = min (failuresSince cfg id run) (maxOf 32) ∧ b.cooldown = cfg.cooldown := by
  induction run using List.reverseRecOn with
  | nil =>
    intro b hb
    cases hb
  | append_singleton run r ih =>
    intro b hb
    rcases run_breaker hb with ⟨rfl, none⟩ | ⟨a, was, change⟩
    · simp [none, CircuitBreaker.withCooldown, CircuitBreaker.new]
    · obtain ⟨count, cooldown⟩ := ih a was
      rcases change with ⟨rfl, -, none⟩ | ⟨rfl, more⟩ | ⟨rfl | ⟨-, rfl⟩, same⟩
      · simp [none, CircuitBreaker.recordSuccess_eq, cooldown]
      · simp only [more, CircuitBreaker.recordFailure_eq, satAdd, count]
        refine ⟨?_, cooldown⟩
        omega
      · rw [same]
        exact ⟨count, cooldown⟩
      · rw [same]
        exact ⟨count, cooldown⟩

/-! ## The cooldown -/

/-- The breaker opened at this time and has been open since. -/
inductive OpenedAt (cfg : Settings) (id : String) : List (Request D) → Nat → Prop
  | opens {run : List (Request D)} {r : Request D} :
      breakerState (after cfg run).entries id ≠ some .opened →
      breakerState (after cfg (run ++ [r])).entries id = some .opened →
      OpenedAt cfg id (run ++ [r]) (after cfg (run ++ [r])).now
  | stays {run : List (Request D)} {r : Request D} {time : Nat} :
      OpenedAt cfg id run time →
      breakerState (after cfg (run ++ [r])).entries id = some .opened →
      OpenedAt cfg id (run ++ [r]) time

theorem open_since (cfg : Settings) (id : String) (run : List (Request D))
    (opened : breakerState (after cfg run).entries id = some .opened) :
    ∃ time, OpenedAt cfg id run time := by
  induction run using List.reverseRecOn with
  | nil => cases opened
  | append_singleton run r ih =>
    by_cases before : breakerState (after cfg run).entries id = some .opened
    · obtain ⟨time, since⟩ := ih before
      exact ⟨time, .stays since opened⟩
    · exact ⟨_, .opens before opened⟩

/-- An open breaker has just recorded a failure, or was open with the same last failure. -/
theorem run_opened {cfg : Settings} {id : String} {run : List (Request D)} {r : Request D}
    {b : CircuitBreaker} (hb : breakerOf (after cfg (run ++ [r])).entries id = some b)
    (opened : b.state = .opened) :
    b.lastFailure = some (after cfg (run ++ [r])).now ∨
      ∃ a, breakerOf (after cfg run).entries id = some a ∧ a.state = .opened ∧
        b.lastFailure = a.lastFailure := by
  rcases run_breaker hb with ⟨rfl, -⟩ | ⟨a, was, ⟨rfl, -, -⟩ | ⟨rfl, -⟩ | ⟨rfl | ⟨-, rfl⟩, -⟩⟩
  · cases opened
  · rw [CircuitBreaker.recordSuccess_eq] at opened ⊢
    refine .inr ⟨a, was, ?_, rfl⟩
    by_contra other
    by_cases probing : a.state = .halfOpen <;> simp [probing, other] at opened
  · rw [CircuitBreaker.recordFailure_eq]
    exact .inl rfl
  · exact .inr ⟨b, was, opened, rfl⟩
  · cases opened

/-- An open breaker's last failure came when it opened, or later. -/
theorem opened_failure {cfg : Settings} {id : String} {run : List (Request D)} {time : Nat}
    (since : OpenedAt cfg id run time) :
    time ≤ (after cfg run).now ∧ ∃ b last, breakerOf (after cfg run).entries id = some b ∧
      b.state = .opened ∧ b.lastFailure = some last ∧ time ≤ last := by
  induction since with
  | @opens run r before opened =>
    refine ⟨Nat.le_refl _, ?_⟩
    obtain ⟨b, hb, state⟩ := Option.map_eq_some_iff.mp opened
    rcases run_opened hb state with failed | ⟨a, was, already, -⟩
    · exact ⟨b, _, hb, state, failed, Nat.le_refl _⟩
    · exact absurd (by simp [breakerState, was, already]) before
  | @stays run r time since opened ih =>
    obtain ⟨past, a', last, was', -, failed', held⟩ := ih
    have advanced : (after cfg (run ++ [r])).now = (after cfg run).now + r.elapsed := by
      rw [after_snoc, step_now]
    obtain ⟨b, hb, state⟩ := Option.map_eq_some_iff.mp opened
    refine ⟨by omega, b, ?_⟩
    rcases run_opened hb state with failed | ⟨a, was, -, same⟩
    · exact ⟨_, hb, state, failed, by omega⟩
    · rw [was'] at was
      cases was
      exact ⟨last, hb, state, same.trans failed', held⟩

/-! ## The law of the breaker -/

/-- Every failure recorded while the breaker is half-open leaves it open. -/
def ProbesTrip (cfg : Settings) (run : List (Request D)) : Prop :=
  ∀ past r rest id, run = past ++ r :: rest →
    recorded (after cfg past) r.event = some (id, .failure) →
    breakerState (after cfg past).entries id = some .halfOpen →
    breakerState (after cfg (past ++ [r])).entries id = some .opened

/-- Before every such failure, all but one of the threshold have been recorded. -/
def ProbesCounted (cfg : Settings) (run : List (Request D)) : Prop :=
  ∀ past r rest id, run = past ++ r :: rest →
    recorded (after cfg past) r.event = some (id, .failure) →
    breakerState (after cfg past).entries id = some .halfOpen →
    cfg.openThreshold ≤ failuresSince cfg id past + 1

/-- Until the cooldown has passed since a breaker opened, it refuses every dispatch. -/
structure CooldownHeld (cfg : Settings) (run : List (Request D)) : Prop where
  opening : ∀ id, breakerState (after cfg run).entries id = some .opened →
    ∃ time, OpenedAt cfg id run time
  refused : ∀ id time, OpenedAt cfg id run time → ∀ elapsed envelope, envelope.toolId = id →
    (after cfg run).now + elapsed - time ≤ cfg.cooldown →
    (step cfg (after cfg run) ⟨elapsed, .dispatchBegin envelope⟩).2 = .refused .breakerOpen

theorem failure_opens_iff {cfg : Settings} (fits : cfg.openThreshold ≤ maxOf 32) {id : String}
    {past : List (Request D)} {r : Request D}
    (failed : recorded (after cfg past) r.event = some (id, .failure))
    (probing : breakerState (after cfg past).entries id = some .halfOpen) :
    breakerState (after cfg (past ++ [r])).entries id = some .opened ↔
      cfg.openThreshold ≤ failuresSince cfg id past + 1 := by
  obtain ⟨b, was, state⟩ := Option.map_eq_some_iff.mp probing
  obtain ⟨count, -⟩ := counted cfg id past b was
  have reached : cfg.openThreshold ≤ satAdd 32 b.failureCount 1 ↔
      cfg.openThreshold ≤ failuresSince cfg id past + 1 := by
    simp only [count, satAdd]
    omega
  rw [← reached, after_snoc, breakerState]
  rcases step_breaker cfg (after cfg past) r id with
    ⟨new, -⟩ | ⟨-, ⟨a, other, -, -⟩ | ⟨a, -, was', written⟩ | ⟨silent, -⟩⟩
  · cases event : r.event <;> simp [event, registers, recorded] at new failed
  · rw [failed] at other
    cases other
  · rw [was] at was'
    cases was'
    simp only [written, CircuitBreaker.recordFailure_eq]
    by_cases enough : cfg.openThreshold ≤ satAdd 32 b.failureCount 1 <;> simp [enough, state]
  · exact absurd failed (silent .failure)

theorem cooldown_held (cfg : Settings) (run : List (Request D)) : CooldownHeld cfg run := by
  constructor
  · intro id opened
    exact open_since cfg id run opened
  · rintro id time since elapsed envelope rfl early
    obtain ⟨-, b, last, was, opened, failed, later⟩ := opened_failure since
    obtain ⟨-, cooldown⟩ := counted cfg envelope.toolId run b was
    obtain ⟨entry, found, rfl⟩ := Option.map_eq_some_iff.mp was
    have refused := entry.breaker.verify_refuses ((after cfg run).now + elapsed) opened failed
      (by omega)
    simp [step, checkAdmission, found, refused]

/-- No outcome of a call admitted before the trip arrives as a success. -/
def QuietWhileOpen (cfg : Settings) (run : List (Request D)) : Prop :=
  ∀ past r rest id, run = past ++ r :: rest →
    breakerState (after cfg past).entries id = some .opened →
    recorded (after cfg past) r.event ≠ some (id, .success)

theorem QuietWhileOpen.past {cfg : Settings} {past rest : List (Request D)}
    (quiet : QuietWhileOpen cfg (past ++ rest)) : QuietWhileOpen cfg past := by
  intro earlier r between id split
  exact quiet earlier r (between ++ rest) id (by rw [split]; simp)

/-- Without late successes a tripped breaker keeps its count until a probe succeeds. -/
theorem armed {cfg : Settings} (id : String) {run : List (Request D)}
    (quiet : QuietWhileOpen cfg run) :
    ∀ b, breakerOf (after cfg run).entries id = some b → b.state ≠ .closed →
      cfg.openThreshold ≤ failuresSince cfg id run := by
  induction run using List.reverseRecOn with
  | nil =>
    intro b hb
    cases hb
  | append_singleton run r ih =>
    intro b hb tripped
    rcases run_breaker hb with ⟨rfl, -⟩ | ⟨a, was, change⟩
    · exact absurd rfl tripped
    · have before := ih quiet.past a was
      rcases change with ⟨rfl, success, -⟩ | ⟨rfl, more⟩ | ⟨rfl | ⟨opened, rfl⟩, same⟩
      · have unopened : a.state ≠ .opened := by
          intro opened
          exact quiet run r [] id rfl (by simp [breakerState, was, opened]) success
        rw [CircuitBreaker.recordSuccess_eq] at tripped
        cases state : a.state <;> simp [state] at tripped unopened
      · by_cases closed : a.state = .closed
        · obtain ⟨count, -⟩ := counted cfg id run a was
          by_contra few
          have unreached : ¬ cfg.openThreshold ≤ satAdd 32 a.failureCount 1 := by
            simp only [count, satAdd]
            omega
          simp [CircuitBreaker.recordFailure_eq, unreached, closed] at tripped
        · have := before closed
          omega
      · rw [same]
        exact before tripped
      · rw [same]
        exact before (by simp [opened])

theorem quiet_counted {cfg : Settings} {run : List (Request D)} (quiet : QuietWhileOpen cfg run) :
    ProbesCounted cfg run := by
  rintro past r rest id rfl - probing
  obtain ⟨b, was, state⟩ := Option.map_eq_some_iff.mp probing
  have := armed id quiet.past b was (by simp [state])
  omega

/-- In every run failed probes trip their breaker exactly when enough failures were recorded
since the last success, as they are where no success is recorded while it is open, and no
dispatch is admitted during a cooldown. -/
theorem failed_probe_trips_iff (cfg : Settings) (fits : cfg.openThreshold ≤ maxOf 32)
    (run : List (Request D)) :
    (ProbesTrip cfg run ↔ ProbesCounted cfg run) ∧
      (QuietWhileOpen cfg run → ProbesCounted cfg run) ∧ CooldownHeld cfg run := by
  refine ⟨?_, quiet_counted, cooldown_held cfg run⟩
  constructor
  · intro trips past r rest id split failed probing
    exact (failure_opens_iff fits failed probing).mp (trips past r rest id split failed probing)
  · intro enough past r rest id split failed probing
    exact (failure_opens_iff fits failed probing).mpr (enough past r rest id split failed probing)

def flaky : ToolDriver Unit := ⟨"flaky", ()⟩

def callFlaky : Event Unit := .dispatchBegin ⟨flaky.id, []⟩

def fails : Event Unit := .dispatchEnd 0 (.error (.executionFailed "boom"))

/-- Six calls enter, five fail, the sixth succeeds late, and a probe enters after the cooldown. -/
def lateSuccess : List (Request Unit) :=
  ⟨0, .register flaky⟩ :: List.replicate 6 ⟨0, callFlaky⟩ ++ List.replicate 5 ⟨0, fails⟩ ++
    [⟨0, .dispatchEnd 0 (.ok [])⟩, ⟨30_000_000_001, callFlaky⟩]

theorem failed_probe_trips_iff_late : ¬ ProbesTrip Settings.default (lateSuccess ++ [⟨0, fails⟩]) := by
  intro trips
  have enough := (failed_probe_trips_iff Settings.default (by decide)
    (lateSuccess ++ [⟨0, fails⟩])).1.mp trips lateSuccess ⟨0, fails⟩ [] flaky.id rfl
      (by decide) (by decide)
  exact absurd enough (by decide)

theorem late_success_disarms_probe :
    recorded (after Settings.default lateSuccess) fails = some (flaky.id, .failure) ∧
      breakerState (after Settings.default lateSuccess).entries flaky.id = some .halfOpen ∧
      breakerState (after Settings.default (lateSuccess ++ [⟨0, fails⟩])).entries flaky.id =
        some .halfOpen := by
  refine ⟨?_, ?_, ?_⟩ <;> decide

end ToolRegistry
