import AnimaOS.JobRunner

/-!
# Retries and retired jobs

A one-shot job is pending until a run succeeds or its failures reach the budget.
Recording does not look at the status, so a late result can still move a retired
job from one terminal status to the other.
-/

namespace JobRunner

open CronSchedule FixedWidth Machine

/-! ## Late results -/

def Terminal (status : JobStatus) : Prop := status = .completed ∨ status = .failed

/-- Results of one job recorded one after another, each at its own time. -/
def recordAll (registry : JobRegistry) (jobId : String) (results : List (RunResult × Nat)) :
    JobRegistry :=
  results.foldl (fun registry r => recordRunResult registry jobId r.1 r.2) registry

structure TerminalAbsorbing (registry : JobRegistry) (jobId : String)
    (results : List (RunResult × Nat)) : Prop where
  status : ∀ earlier more later, results = earlier ++ more ++ later → ∀ job job',
    (recordAll registry jobId earlier).get jobId = some job → Terminal job.status →
    (recordAll registry jobId (earlier ++ more)).get jobId = some job' → job'.status = job.status
  retired : ∀ earlier more later, results = earlier ++ more ++ later → ∀ job,
    (recordAll registry jobId earlier).get jobId = some job → Terminal job.status →
    ∀ nowNs, jobId ∉ dueJobIds (recordAll registry jobId (earlier ++ more)) nowNs

/-- The late results that change a terminal status. -/
def Revives (job : ScheduledJob) (result : RunResult) : Prop :=
  (job.status = .failed ∧ result.success = true ∧ isOneShot job.schedule = true) ∨
    (job.status = .completed ∧ result.success = false ∧
      job.consecutiveFailures + 1 ≥ job.retryPolicy.maxAttempts)

theorem recorded_success {job : ScheduledJob} {result : RunResult} (success : result.success = true)
    (nowNs : Nat) : (recorded job result nowNs).status =
      if isOneShot job.schedule then .completed else job.status := by
  simp only [recorded, success, if_true]
  split
  · rfl
  · rfl

theorem recorded_failure {job : ScheduledJob} {result : RunResult}
    (failure : result.success = false) (nowNs : Nat) : (recorded job result nowNs).status =
      if job.consecutiveFailures + 1 ≥ job.retryPolicy.maxAttempts then .failed
      else job.status := by
  simp only [recorded, failure, Bool.false_eq_true, if_false]
  split
  · rfl
  · rfl

/-- A late result leaves a terminal job terminal, and with the status it had unless it revives it. -/
theorem recorded_terminal {job : ScheduledJob} (terminal : Terminal job.status)
    (result : RunResult) (nowNs : Nat) :
    Terminal (recorded job result nowNs).status ∧
      ((recorded job result nowNs).status = job.status ↔ ¬ Revives job result) := by
  cases outcome : result.success with
  | true =>
    rw [recorded_success outcome]
    split
    · rename_i oneShot
      refine ⟨Or.inl rfl, ?_⟩
      rcases terminal with status | status
      · simp [Revives, status, outcome]
      · simp [Revives, status, outcome, oneShot]
    · rename_i recurring
      exact ⟨terminal, by simp [Revives, outcome, recurring]⟩
  | false =>
    rw [recorded_failure outcome]
    split
    · rename_i spent
      refine ⟨Or.inr rfl, ?_⟩
      rcases terminal with status | status
      · simp [Revives, status, outcome, spent]
      · simp [Revives, status, outcome]
    · rename_i room
      exact ⟨terminal, by simp [Revives, outcome, room]⟩

theorem recordAll_snoc (registry : JobRegistry) (jobId : String) (results : List (RunResult × Nat))
    (r : RunResult × Nat) :
    (recordAll registry jobId (results ++ [r])).get jobId =
      ((recordAll registry jobId results).get jobId).map fun job => recorded job r.1 r.2 := by
  simp only [recordAll, List.foldl_append, List.foldl_cons, List.foldl_nil]
  exact record_get_self _ jobId r.1 r.2

theorem recordAll_terminal {registry : JobRegistry} {jobId : String}
    {earlier : List (RunResult × Nat)} {job : ScheduledJob}
    (h : (recordAll registry jobId earlier).get jobId = some job) (terminal : Terminal job.status)
    (more : List (RunResult × Nat)) :
    ∃ job', (recordAll registry jobId (earlier ++ more)).get jobId = some job' ∧
      Terminal job'.status := by
  induction more using List.reverseRecOn with
  | nil => exact ⟨job, by rw [List.append_nil]; exact h, terminal⟩
  | append_singleton more r ih =>
    obtain ⟨job', found, terminal'⟩ := ih
    refine ⟨recorded job' r.1 r.2, ?_, (recorded_terminal terminal' r.1 r.2).1⟩
    rw [← List.append_assoc, recordAll_snoc, found, Option.map_some]

theorem terminal_not_due {registry : JobRegistry} {jobId : String} {job : ScheduledJob}
    (h : registry.get jobId = some job) (terminal : Terminal job.status) (nowNs : Nat) :
    jobId ∉ dueJobIds registry nowNs := by
  rw [mem_dueJobIds]
  rintro ⟨job', found, isDue⟩
  rw [h] at found
  cases found
  simp only [due, ScheduledJob.isActive, Bool.and_eq_true, beq_iff_eq] at isDue
  rcases terminal with status | status
  · rw [status] at isDue
    cases isDue.1
  · rw [status] at isDue
    cases isDue.1

/-- Terminal statuses are absorbing exactly when no late result revives the job. -/
theorem terminal_absorbing_iff (registry : JobRegistry) (jobId : String)
    (results : List (RunResult × Nat)) :
    TerminalAbsorbing registry jobId results ↔
      ∀ earlier r later, results = earlier ++ r :: later → ∀ job,
        (recordAll registry jobId earlier).get jobId = some job → ¬ Revives job r.1 := by
  constructor
  · intro absorbing earlier r later split job found revives
    have terminal : Terminal job.status := by
      rcases revives with ⟨failed, -⟩ | ⟨completed, -⟩
      · exact Or.inr failed
      · exact Or.inl completed
    have next : (recordAll registry jobId (earlier ++ [r])).get jobId =
        some (recorded job r.1 r.2) := by
      rw [recordAll_snoc, found, Option.map_some]
    have same := absorbing.status earlier [r] later (by rw [split]; simp) job _ found terminal next
    exact (recorded_terminal terminal r.1 r.2).2.mp same revives
  · intro quiet
    constructor
    · intro earlier more later split job job' found terminal found'
      induction more using List.reverseRecOn generalizing job' later with
      | nil =>
        rw [List.append_nil, found] at found'
        cases found'
        rfl
      | append_singleton more r ih =>
        obtain ⟨before, foundBefore, terminalBefore⟩ := recordAll_terminal found terminal more
        have kept := ih (r :: later) (by rw [split]; simp) before foundBefore
        have calm := quiet (earlier ++ more) r later (by rw [split]; simp) before foundBefore
        rw [← List.append_assoc, recordAll_snoc, foundBefore, Option.map_some] at found'
        cases found'
        rw [(recorded_terminal terminalBefore r.1 r.2).2.mpr calm, kept]
    · intro earlier more later split job found terminal nowNs
      obtain ⟨job', found', terminal'⟩ := recordAll_terminal found terminal more
      exact terminal_not_due found' terminal' nowNs

def lastAttempt : ScheduledJob := { ScheduledJob.new .immediate with retryPolicy := ⟨1, 60⟩ }

def oneShotRegistry : JobRegistry := ⟨[("once", lastAttempt)], by decide⟩

/-- Two attempts are in flight: the one that fails retires the job, the other then succeeds. -/
theorem late_success_completes_failed_job :
    ¬ TerminalAbsorbing oneShotRegistry "once"
      [(⟨false, 1, some "boom", 1⟩, 1), (⟨true, 1, none, 1⟩, 2)] := by
  intro absorbing
  have same := absorbing.status [(⟨false, 1, some "boom", 1⟩, 1)] [(⟨true, 1, none, 1⟩, 2)] [] rfl
    _ _ rfl (Or.inr rfl) rfl
  exact absurd same (by decide)

/-! ## One-shot jobs -/

/-- A job that never ran and may run. -/
structure Fresh (job : ScheduledJob) : Prop where
  active : job.status = .active
  failures : job.consecutiveFailures = 0
  never : job.lastRun = none

def runAt : JobSchedule → Nat
  | .once atNs => atNs
  | _ => 0

def delayNs (job : ScheduledJob) : Nat := job.retryPolicy.retryDelaySecs * 1_000_000_000

def Failed (jobId : String) (p : Poll) : Prop := (p.outcome jobId).success = false

instance (jobId : String) (p : Poll) : Decidable (Failed jobId p) :=
  inferInstanceAs (Decidable (_ = _))

structure RunsToSuccessOrBudget (registry : JobRegistry) (polls : List Poll) (jobId : String)
    (job : ScheduledJob) : Prop where
  /-- A run that another follows has failed. -/
  lastSucceeds : (firings registry polls jobId).Pairwise fun p _ => Failed jobId p
  successes : ((firings registry polls jobId).filter fun p => ¬ Failed jobId p).length ≤ 1
  failures : ((firings registry polls jobId).filter fun p => Failed jobId p).length ≤
    job.retryPolicy.maxAttempts.toNat
  apart : (firings registry polls jobId).Pairwise fun p q =>
    p.nowNs + delayNs job ≤ q.nowNs ∨ q.nowNs = maxOf 64
  eager : ∀ earlier p later, polls = earlier ++ p :: later → runAt job.schedule ≤ p.nowNs →
    (firings registry earlier jobId).length < job.retryPolicy.maxAttempts.toNat →
    (∀ q ∈ firings registry earlier jobId,
      Failed jobId q ∧ q.nowNs + delayNs job ≤ p.nowNs) → Returned registry earlier p jobId

/-- A job with budget left, after the failed runs `fired`. -/
structure Pending (job : ScheduledJob) (jobId : String) (fired : List Poll) : Prop where
  active : job.status = .active
  failed : ∀ p ∈ fired, Failed jobId p
  count : job.consecutiveFailures.toNat = fired.length
  budget : fired.length < job.retryPolicy.maxAttempts.toNat
  never : fired = [] → job.lastRun = none
  last : ∀ earlier p, fired = earlier ++ [p] →
    ∃ last, job.lastRun = some last ∧ last.success = false ∧ last.firedAtNs = p.nowNs

/-- A job no longer active, and why. -/
structure Retired (job : ScheduledJob) (jobId : String) (fired : List Poll) : Prop where
  inactive : job.status ≠ .active
  reason : fired.length = job.retryPolicy.maxAttempts.toNat ∨ ∃ p ∈ fired, ¬ Failed jobId p

structure Progress (job₀ job : ScheduledJob) (jobId : String) (fired : List Poll) : Prop where
  schedule : job.schedule = job₀.schedule
  policy : job.retryPolicy = job₀.retryPolicy
  lastSucceeds : fired.Pairwise fun p _ => Failed jobId p
  failures : (fired.filter fun p => Failed jobId p).length ≤ job₀.retryPolicy.maxAttempts.toNat
  apart : fired.Pairwise fun p q => p.nowNs + delayNs job₀ ≤ q.nowNs ∨ q.nowNs = maxOf 64
  rising : fired.Pairwise fun p q => p.nowNs ≤ q.nowNs
  state : Pending job jobId fired ∨ Retired job jobId fired

theorem Pending.due_first {job : ScheduledJob} {jobId : String} (pending : Pending job jobId [])
    (oneShot : isOneShot job.schedule = true) (nowNs : Nat) :
    due job nowNs = true ↔ runAt job.schedule ≤ nowNs := by
  simp only [due, ScheduledJob.isActive, pending.active, jobIsDue, pending.never rfl]
  cases kind : job.schedule with
  | immediate => simp [JobSchedule.isDue, runAt]
  | once atNs => simp [JobSchedule.isDue, runAt]
  | cron expression =>
    rw [kind] at oneShot
    cases oneShot

theorem Pending.due_again {job : ScheduledJob} {jobId : String} {fired : List Poll} {p : Poll}
    (pending : Pending job jobId (fired ++ [p])) (oneShot : isOneShot job.schedule = true)
    (nowNs : Nat) :
    due job nowNs = true ↔
      satAdd 64 p.nowNs (satMul 64 job.retryPolicy.retryDelaySecs 1_000_000_000) ≤ nowNs := by
  obtain ⟨last, ran, failed, at'⟩ := pending.last fired p rfl
  simp [due, ScheduledJob.isActive, pending.active, jobIsDue, ran, failed, oneShot, at']

theorem saturated_delay {a d b : Nat} (fits : b ≤ maxOf 64)
    (h : satAdd 64 a (satMul 64 d 1_000_000_000) ≤ b) :
    (a + d * 1_000_000_000 ≤ b ∨ b = maxOf 64) ∧ (a ≤ maxOf 64 → a ≤ b) := by
  simp only [satAdd, satMul] at h
  omega

theorem delay_saturates {a d b : Nat} (h : a + d * 1_000_000_000 ≤ b) :
    satAdd 64 a (satMul 64 d 1_000_000_000) ≤ b := by
  simp only [satAdd, satMul]
  omega

theorem recorded_policy (job : ScheduledJob) (result : RunResult) (nowNs : Nat) :
    (recorded job result nowNs).schedule = job.schedule ∧
      (recorded job result nowNs).retryPolicy = job.retryPolicy := by
  simp only [recorded]
  split
  · split
    · exact ⟨rfl, rfl⟩
    · exact ⟨rfl, rfl⟩
  · split
    · exact ⟨rfl, rfl⟩
    · exact ⟨rfl, rfl⟩

theorem Pending.count_succ {job : ScheduledJob} {jobId : String} {fired : List Poll}
    (pending : Pending job jobId fired) :
    (job.consecutiveFailures + 1).toNat = fired.length + 1 := by
  have budget := pending.budget
  have word := UInt32.toNat_lt job.retryPolicy.maxAttempts
  have one : (1 : UInt32).toNat = 1 := rfl
  rw [UInt32.toNat_add, pending.count, one]
  exact Nat.mod_eq_of_lt (by omega)

/-- A run leaves a pending job pending, or retires it with a reason. -/
theorem Pending.recorded {job : ScheduledJob} {jobId : String} {fired : List Poll}
    (pending : Pending job jobId fired) (oneShot : isOneShot job.schedule = true) (p : Poll) :
    Pending (recorded job (p.outcome jobId) p.nowNs) jobId (fired ++ [p]) ∨
      Retired (JobRunner.recorded job (p.outcome jobId) p.nowNs) jobId (fired ++ [p]) := by
  have count := pending.count_succ
  have budget := pending.budget
  by_cases failed : Failed jobId p
  · have result : (p.outcome jobId).success = false := failed
    by_cases spent : job.consecutiveFailures + 1 ≥ job.retryPolicy.maxAttempts
    · right
      constructor
      · simp [JobRunner.recorded, result, spent]
      · left
        have reached := UInt32.le_iff_toNat_le.mp spent
        simp only [JobRunner.recorded, result, spent, if_true, List.length_append,
          List.length_singleton]
        simp
        omega
    · left
      have room : (job.consecutiveFailures + 1).toNat < job.retryPolicy.maxAttempts.toNat :=
        Nat.lt_of_not_le fun reached => spent (UInt32.le_iff_toNat_le.mpr reached)
      constructor
      case active => simp [JobRunner.recorded, result, spent, pending.active]
      case failed =>
        intro q hq
        rcases List.mem_append.mp hq with old | new
        · exact pending.failed q old
        · rw [List.mem_singleton.mp new]
          exact failed
      case count => simpa [JobRunner.recorded, result, spent] using count
      case budget =>
        rw [(recorded_policy job _ _).2, List.length_append, List.length_singleton]
        omega
      case never => simp
      case last =>
        intro earlier q split
        obtain ⟨-, same⟩ := List.append_inj' split rfl
        cases same
        refine ⟨⟨p.nowNs, false, (p.outcome jobId).durationMs, (p.outcome jobId).error,
          (p.outcome jobId).attempt⟩, ?_, rfl, rfl⟩
        simp [JobRunner.recorded, result, spent]
  · right
    have result : (p.outcome jobId).success = true := by simpa [Failed] using failed
    constructor
    · simp [JobRunner.recorded, result, oneShot]
    · exact Or.inr ⟨p, by simp, failed⟩

theorem Pending.after_last {job₀ job : ScheduledJob} {jobId : String} {fired : List Poll}
    (progress : Progress job₀ job jobId fired) (pending : Pending job jobId fired)
    (oneShot : isOneShot job.schedule = true) {p : Poll} (isDue : due job p.nowNs = true) :
    ∀ q ∈ fired, (q.nowNs + delayNs job₀ ≤ p.nowNs ∨ p.nowNs = maxOf 64) ∧ q.nowNs ≤ p.nowNs := by
  intro q hq
  induction fired using List.reverseRecOn with
  | nil => cases hq
  | append_singleton earlier l _ =>
    have waited := (pending.due_again oneShot p.nowNs).mp isDue
    rw [progress.policy] at waited
    obtain ⟨gap, later⟩ := saturated_delay p.fits waited
    have notBefore := later l.fits
    rcases List.mem_append.mp hq with old | new
    · have order := (List.pairwise_append.mp progress.rising).2.2 q old l (by simp)
      simp only [delayNs]
      omega
    · rw [List.mem_singleton.mp new]
      exact ⟨gap, notBefore⟩

theorem Progress.fire {job₀ job : ScheduledJob} {jobId : String} {fired : List Poll}
    (progress : Progress job₀ job jobId fired) (oneShot : isOneShot job₀.schedule = true)
    {p : Poll} (isDue : due job p.nowNs = true) :
    Progress job₀ (recorded job (p.outcome jobId) p.nowNs) jobId (fired ++ [p]) := by
  have oneShot' : isOneShot job.schedule = true := by rw [progress.schedule]; exact oneShot
  have pending : Pending job jobId fired := by
    rcases progress.state with pending | retired
    · exact pending
    · simp [due, ScheduledJob.isActive, retired.inactive] at isDue
  have waited := pending.after_last progress oneShot' isDue
  have policy := recorded_policy job (p.outcome jobId) p.nowNs
  constructor
  case schedule => exact policy.1.trans progress.schedule
  case policy => exact policy.2.trans progress.policy
  case lastSucceeds =>
    refine List.pairwise_append.mpr ⟨progress.lastSucceeds, List.pairwise_singleton _ _, ?_⟩
    intro q hq _ _
    exact pending.failed q hq
  case failures =>
    have budget := pending.budget
    have few := List.length_filter_le (fun p => decide (Failed jobId p)) (fired ++ [p])
    rw [progress.policy] at budget
    rw [List.length_append, List.length_singleton] at few
    omega
  case apart =>
    refine List.pairwise_append.mpr ⟨progress.apart, List.pairwise_singleton _ _, ?_⟩
    intro q hq r hr
    rw [List.mem_singleton.mp hr]
    exact (waited q hq).1
  case rising =>
    refine List.pairwise_append.mpr ⟨progress.rising, List.pairwise_singleton _ _, ?_⟩
    intro q hq r hr
    rw [List.mem_singleton.mp hr]
    exact (waited q hq).2
  case state => exact pending.recorded oneShot' p

theorem run_progress {registry : JobRegistry} {jobId : String} {job : ScheduledJob}
    (h : registry.get jobId = some job) (fresh : Fresh job)
    (oneShot : isOneShot job.schedule = true) (budget : 0 < job.retryPolicy.maxAttempts)
    (polls : List Poll) :
    Progress job (final (pollJob jobId) job polls) jobId (firings registry polls jobId) := by
  induction polls using List.reverseRecOn with
  | nil =>
    have pending : Pending job jobId [] := by
      constructor
      case active => exact fresh.active
      case failed => simp
      case count => rw [fresh.failures]; rfl
      case budget => exact UInt32.lt_iff_toNat_lt.mp budget
      case never => exact fun _ => fresh.never
      case last => simp
    exact ⟨rfl, rfl, List.Pairwise.nil, Nat.zero_le _, List.Pairwise.nil, List.Pairwise.nil,
      Or.inl pending⟩
  | append_singleton polls p ih =>
    rw [firings_snoc, final_snoc]
    by_cases returned : Returned registry polls p jobId
    · have isDue := (returned_iff h polls p).mp returned
      rw [if_pos returned, pollJob, if_pos isDue]
      exact ih.fire oneShot isDue
    · have notDue := mt (returned_iff h polls p).mpr returned
      rw [if_neg returned, pollJob, if_neg notDue, List.append_nil]
      exact ih

theorem at_most_one_unless {α : Type} {P : α → Prop} [DecidablePred P] {l : List α}
    (h : l.Pairwise fun a _ => P a) : (l.filter fun a => ¬ P a).length ≤ 1 := by
  induction l with
  | nil => exact Nat.zero_le 1
  | cons a rest ih =>
    obtain ⟨head, tail⟩ := List.pairwise_cons.mp h
    by_cases ha : P a
    · simpa [ha] using ih tail
    · have none : rest = [] := List.eq_nil_iff_forall_not_mem.mpr fun b hb => ha (head b hb)
      simp [none, ha]

/-- A one-shot job runs until it succeeds or its failures reach the budget, at each
poll it may, with the delay between its runs except at the largest time. -/
theorem one_shot_runs_to_success_or_budget (registry : JobRegistry) (polls : List Poll)
    (jobId : String) (job : ScheduledJob) (h : registry.get jobId = some job) (fresh : Fresh job)
    (oneShot : isOneShot job.schedule = true) (budget : 0 < job.retryPolicy.maxAttempts) :
    RunsToSuccessOrBudget registry polls jobId job := by
  have progress := run_progress h fresh oneShot budget polls
  refine ⟨progress.lastSucceeds, at_most_one_unless progress.lastSucceeds, progress.failures,
    progress.apart, ?_⟩
  intro earlier p later split reached room waited
  have before := run_progress h fresh oneShot budget earlier
  rw [returned_iff h]
  have oneShot' : isOneShot (final (pollJob jobId) job earlier).schedule = true := by
    rw [before.schedule]
    exact oneShot
  rcases before.state with pending | ⟨-, spent | ⟨q, ran, succeeded⟩⟩
  · rcases List.eq_nil_or_concat (firings registry earlier jobId) with none | ⟨fired, q, some⟩
    · rw [none] at pending
      rw [pending.due_first oneShot', before.schedule]
      exact reached
    · rw [List.concat_eq_append] at some
      rw [some] at pending waited
      rw [pending.due_again oneShot', before.policy]
      exact delay_saturates (waited q (by simp)).2
  · rw [before.policy] at spent
    omega
  · exact absurd (waited q ran).1 succeeded

def retryOnce : ScheduledJob :=
  { ScheduledJob.new .immediate with retryPolicy := ⟨3, maxOf 64⟩ }

def patientRegistry : JobRegistry := ⟨[("once", retryOnce)], by decide⟩

def failAt (nowNs : Nat) (fits : nowNs ≤ maxOf 64) : Poll :=
  ⟨nowNs, fits, fun _ => ⟨false, 1, some "boom", 1⟩⟩

def saturatedPolls : List Poll :=
  [failAt 0 (by decide), failAt (maxOf 64) (Nat.le_refl _)]

/-- A delay of more seconds than the clock has nanoseconds ends when the clock does. -/
theorem saturated_delay_ends_early :
    ¬ (firings patientRegistry saturatedPolls "once").Pairwise fun p q =>
      p.nowNs + delayNs retryOnce ≤ q.nowNs := by
  have first : Returned patientRegistry [] (failAt 0 (by decide)) "once" :=
    (returned_iff rfl [] _).mpr (by decide)
  have second : Returned patientRegistry [failAt 0 (by decide)]
      (failAt (maxOf 64) (Nat.le_refl _)) "once" :=
    (returned_iff rfl [failAt 0 (by decide)] _).mpr (by decide)
  have runs : firings patientRegistry saturatedPolls "once" = saturatedPolls := by
    rw [saturatedPolls, ← List.singleton_append, firings_snoc, if_pos second,
      ← List.nil_append [failAt 0 (by decide)], firings_snoc, if_pos first]
    rfl
  rw [runs, saturatedPolls, List.pairwise_pair]
  decide

theorem one_shot_runs_to_success_or_budget_saturated :
    RunsToSuccessOrBudget patientRegistry saturatedPolls "once" retryOnce :=
  one_shot_runs_to_success_or_budget patientRegistry saturatedPolls "once" retryOnce rfl
    ⟨rfl, rfl, rfl⟩ rfl (by decide)

end JobRunner
