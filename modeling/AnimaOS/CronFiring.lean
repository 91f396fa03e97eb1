import AnimaOS.JobRunner

/-!
# Firings of a recurring job

A recurring job fires when its expression includes the minute and its last
firing is before the minute's start. A job that never ran counts as fired at
time zero, so the first minute of all is one it never fires in.
-/

namespace JobRunner

open CronSchedule FixedWidth Machine

def Poll.minute (p : Poll) : Nat := p.nowNs / minuteNs

/-- The stored time of the last run, and zero for a job that never ran. -/
def lastFiredNs (job : ScheduledJob) : Nat :=
  match job.lastRun with
  | none => 0
  | some last => last.firedAtNs

/-- Recording the result would retire the job for its failures. -/
def ExhaustsBudget (job : ScheduledJob) (result : RunResult) : Prop :=
  result.success = false ∧ job.consecutiveFailures + 1 ≥ job.retryPolicy.maxAttempts

def WithinBudget (registry : JobRegistry) (polls : List Poll) (jobId : String) : Prop :=
  ∀ earlier p later, polls = earlier ++ p :: later → Returned registry earlier p jobId →
    ∀ job, (after registry earlier).get jobId = some job → ¬ ExhaustsBudget job (p.outcome jobId)

structure FiresOncePerMinute (registry : JobRegistry) (polls : List Poll) (jobId : String)
    (expression : String) : Prop where
  once : (firings registry polls jobId).Pairwise fun p q => p.minute ≠ q.minute
  first : ∀ earlier p later, polls = earlier ++ p :: later →
    (∀ q ∈ earlier, q.minute ≠ p.minute) →
    ExpressionIncludes expression (calendarMinute p.minute) → Returned registry earlier p jobId
  quiet : ∀ p ∈ firings registry polls jobId,
    ExpressionIncludes expression (calendarMinute p.minute)

/-! ## One poll -/

structure Recurring (job : ScheduledJob) (expression : String) : Prop where
  cron : job.schedule = .cron expression
  active : job.status = .active

theorem Recurring.due_iff {job : ScheduledJob} {expression : String}
    (recurring : Recurring job expression) (p : Poll) :
    due job p.nowNs = true ↔ ExpressionIncludes expression (calendarMinute p.minute) ∧
      lastFiredNs job < p.minute * minuteNs := by
  obtain ⟨cron, active⟩ := recurring
  have schedule : jobIsDue job p.nowNs = isCronDue expression p.nowNs (lastFiredNs job) := by
    cases ran : job.lastRun with
    | none => simp [jobIsDue, lastFiredNs, ran, cron, JobSchedule.isDue]
    | some last => simp [jobIsDue, lastFiredNs, ran, cron, isOneShot, JobSchedule.isDue]
  simp only [due, ScheduledJob.isActive, active, beq_self_eq_true, Bool.true_and, schedule]
  exact isCronDue_iff expression p.nowNs (lastFiredNs job)

theorem Recurring.recorded {job : ScheduledJob} {expression : String}
    (recurring : Recurring job expression) {result : RunResult}
    (within : ¬ ExhaustsBudget job result) (nowNs : Nat) :
    Recurring (recorded job result nowNs) expression ∧
      lastFiredNs (JobRunner.recorded job result nowNs) = nowNs := by
  obtain ⟨cron, active⟩ := recurring
  simp only [JobRunner.recorded, cron, isOneShot]
  split
  · exact ⟨⟨rfl, active⟩, rfl⟩
  · rename_i failed
    split
    · rename_i spent
      exact absurd ⟨by simpa using failed, spent⟩ within
    · exact ⟨⟨rfl, active⟩, rfl⟩

/-! ## Runs -/

/-- What the stored last firing says about the firings of a run so far. -/
structure Tracked (job₀ job : ScheduledJob) (expression : String) (fired : List Poll) : Prop where
  recurring : Recurring job expression
  floor : lastFiredNs job₀ ≤ lastFiredNs job
  newest : ∀ p ∈ fired, p.nowNs ≤ lastFiredNs job
  source : lastFiredNs job = lastFiredNs job₀ ∨ ∃ p ∈ fired, p.nowNs = lastFiredNs job
  once : fired.Pairwise fun p q => p.minute ≠ q.minute
  quiet : ∀ p ∈ fired, ExpressionIncludes expression (calendarMinute p.minute)

theorem minute_start (p : Poll) : p.minute * minuteNs ≤ p.nowNs := Nat.div_mul_le_self _ _

theorem Tracked.fire {job₀ job : ScheduledJob} {expression : String} {fired : List Poll}
    (tracked : Tracked job₀ job expression fired) {p : Poll} (isDue : due job p.nowNs = true)
    {result : RunResult} (within : ¬ ExhaustsBudget job result) :
    Tracked job₀ (recorded job result p.nowNs) expression (fired ++ [p]) := by
  obtain ⟨includes, before⟩ := (tracked.recurring.due_iff p).mp isDue
  obtain ⟨recurring, last⟩ := tracked.recurring.recorded within p.nowNs
  have start := minute_start p
  have floor := tracked.floor
  constructor
  case recurring => exact recurring
  case floor => omega
  case newest =>
    intro q hq
    rcases List.mem_append.mp hq with old | new
    · have := tracked.newest q old
      omega
    · rw [List.mem_singleton.mp new]
      omega
  case source => exact Or.inr ⟨p, by simp, last.symm⟩
  case once =>
    refine List.pairwise_append.mpr ⟨tracked.once, List.pairwise_singleton _ _, ?_⟩
    intro q hq r hr
    rw [List.mem_singleton.mp hr]
    intro same
    have newest := tracked.newest q hq
    have started := minute_start q
    rw [same] at started
    omega
  case quiet =>
    intro q hq
    rcases List.mem_append.mp hq with old | new
    · exact tracked.quiet q old
    · rw [List.mem_singleton.mp new]
      exact includes

theorem WithinBudget.earlier {registry : JobRegistry} {polls more : List Poll} {jobId : String}
    (within : WithinBudget registry (polls ++ more) jobId) :
    WithinBudget registry polls jobId := by
  intro earlier p later split
  exact within earlier p (later ++ more) (by rw [split]; simp)

theorem run_tracked {registry : JobRegistry} {jobId : String} {job : ScheduledJob}
    {expression : String} (h : registry.get jobId = some job)
    (recurring : Recurring job expression) (polls : List Poll)
    (within : WithinBudget registry polls jobId) :
    Tracked job (final (pollJob jobId) job polls) expression (firings registry polls jobId) := by
  induction polls using List.reverseRecOn with
  | nil =>
    have none : ∀ p ∈ firings registry [] jobId, False := fun p hp => List.not_mem_nil hp
    exact ⟨recurring, Nat.le_refl _, fun p hp => (none p hp).elim, Or.inl rfl, List.Pairwise.nil,
      fun p hp => (none p hp).elim⟩
  | append_singleton polls p ih =>
    have tracked := ih within.earlier
    rw [firings_snoc, final_snoc]
    by_cases returned : Returned registry polls p jobId
    · have isDue := (returned_iff h polls p).mp returned
      have budget := within polls p [] rfl returned _ (after_get h polls)
      rw [if_pos returned, pollJob, if_pos isDue]
      exact tracked.fire isDue budget
    · have notDue := mt (returned_iff h polls p).mpr returned
      rw [if_neg returned, pollJob, if_neg notDue, List.append_nil]
      exact tracked

theorem mem_firings {registry : JobRegistry} {polls : List Poll} {jobId : String} {p : Poll}
    (fired : p ∈ firings registry polls jobId) : p ∈ polls := by
  obtain ⟨c, called, returned⟩ := List.mem_filterMap.mp fired
  obtain ⟨earlier, later, rfl, -⟩ := mem_trace called
  split at returned
  · cases returned
    simp
  · cases returned

theorem first_in_minute {polls : List Poll} {p : Poll} (hp : p ∈ polls) :
    ∃ earlier q later, polls = earlier ++ q :: later ∧ q.minute = p.minute ∧
      ∀ r ∈ earlier, r.minute ≠ p.minute := by
  cases found : polls.find? fun q => decide (q.minute = p.minute) with
  | none =>
    have absent := List.find?_eq_none.mp found p hp
    simp at absent
  | some q =>
    obtain ⟨same, earlier, later, split, apart⟩ := List.find?_eq_some_iff_append.mp found
    refine ⟨earlier, q, later, split, by simpa using same, ?_⟩
    intro r hr
    simpa using apart r hr

/-- A recurring job fires exactly once in each minute its expression includes, and
in no other, exactly when its stored last firing is before all those minutes. -/
theorem cron_fires_once_per_minute_iff (registry : JobRegistry) (polls : List Poll)
    (ordered : polls.Pairwise fun p q => p.nowNs ≤ q.nowNs) (jobId : String) (job : ScheduledJob)
    (expression : String) (h : registry.get jobId = some job)
    (recurring : Recurring job expression) (within : WithinBudget registry polls jobId) :
    FiresOncePerMinute registry polls jobId expression ↔
      ∀ p ∈ polls, ExpressionIncludes expression (calendarMinute p.minute) →
        lastFiredNs job < p.minute * minuteNs := by
  constructor
  · intro fires p hp includes
    obtain ⟨earlier, q, later, split, same, apart⟩ := first_in_minute hp
    have before := run_tracked h recurring earlier (WithinBudget.earlier (split ▸ within))
    have returned := fires.first earlier q later split (fun r hr => same ▸ apart r hr) (same ▸ includes)
    have started := ((before.recurring.due_iff q).mp ((returned_iff h earlier q).mp returned)).2
    rw [← same]
    exact Nat.lt_of_le_of_lt before.floor started
  · intro fresh
    have tracked := run_tracked h recurring polls within
    refine ⟨tracked.once, ?_, tracked.quiet⟩
    intro earlier p later split apart includes
    have before := run_tracked h recurring earlier (WithinBudget.earlier (split ▸ within))
    rw [returned_iff h, before.recurring.due_iff]
    refine ⟨includes, ?_⟩
    rcases before.source with initial | ⟨q, fired, last⟩
    · rw [initial]
      exact fresh p (by rw [split]; simp) includes
    · rw [← last]
      have polled := mem_firings fired
      rw [split] at ordered
      have notAfter := (List.pairwise_append.mp ordered).2.2 q polled p List.mem_cons_self
      have earlierMinute : q.minute < p.minute :=
        Nat.lt_of_le_of_ne (Nat.div_le_div_right notAfter) (apart q polled)
      exact (Nat.div_lt_iff_lt_mul (by decide)).mp earlierMinute

/-! ## The first minute -/

def everyMinute : String := "* * * * *"

def neverRun : JobRegistry := ⟨[("tick", .new (.cron everyMinute))], by decide⟩

def pollAt (nowNs : Nat) (fits : nowNs ≤ maxOf 64) : Poll :=
  ⟨nowNs, fits, fun _ => ⟨true, 0, none, 1⟩⟩

theorem everyMinute_includes (t : CalendarMinute) : ExpressionIncludes everyMinute t := by
  have star : ∀ value, FieldIncludes ['*'] value := fun value =>
    ⟨['*'], by decide, .any, .any, trivial⟩
  exact ⟨['*'], ['*'], ['*'], ['*'], ['*'], by decide, star _, star _, star _, star _, star _⟩

theorem neverRun_within (polls : List Poll)
    (succeed : ∀ p ∈ polls, (p.outcome "tick").success = true) :
    WithinBudget neverRun polls "tick" := by
  rintro earlier p later split - job - ⟨failed, -⟩
  rw [succeed p (by rw [split]; simp)] at failed
  cases failed

/-- At time zero a job that includes every minute is polled and not returned. -/
theorem never_run_job_misses_first_minute :
    WithinBudget neverRun [pollAt 0 (by decide)] "tick" ∧
      ¬ FiresOncePerMinute neverRun [pollAt 0 (by decide)] "tick" everyMinute := by
  constructor
  · apply neverRun_within
    simp [pollAt]
  · intro fires
    have returned := fires.first [] (pollAt 0 (by decide)) [] rfl (by simp) (everyMinute_includes _)
    have isDue := (returned_iff rfl [] _).mp returned
    exact absurd ((Recurring.due_iff ⟨rfl, rfl⟩ _).mp isDue).2 (by decide)

theorem cron_fires_once_per_minute_iff_second_minute :
    FiresOncePerMinute neverRun [pollAt 60_000_000_000 (by decide), pollAt 61_000_000_000 (by decide)]
      "tick" everyMinute := by
  refine (cron_fires_once_per_minute_iff neverRun _ ?_ "tick" (.new (.cron everyMinute)) everyMinute
    rfl ⟨rfl, rfl⟩ (neverRun_within _ ?_)).mpr ?_
  · simp [pollAt]
  · simp [pollAt]
  · simp [pollAt, Poll.minute, minuteNs, lastFiredNs, ScheduledJob.new]

end JobRunner
