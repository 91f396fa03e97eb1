import AnimaOS.CronSchedule
import AnimaOS.KeyedList
import AnimaOS.Machine

/-!
# The job runner

`due_job_ids` and `record_run_result` over the job registry. A poll returns the
due jobs and records a run of each at its own time; what the runs give is up to
the environment. Jobs do not read one another, so a poll acts on each by itself.
-/

namespace JobRunner

open CronSchedule FixedWidth KeyedList Machine

inductive JobStatus where
  | active
  | paused
  | completed
  | failed
  deriving DecidableEq, Repr

structure RetryPolicy where
  maxAttempts : UInt32
  retryDelaySecs : Nat
  deriving DecidableEq, Repr

def RetryPolicy.default : RetryPolicy := ⟨3, 60⟩

structure LastRun where
  firedAtNs : Nat
  success : Bool
  durationMs : Nat
  error : Option String
  attempt : UInt32
  deriving DecidableEq, Repr

structure ScheduledJob where
  schedule : JobSchedule
  status : JobStatus
  retryPolicy : RetryPolicy
  consecutiveFailures : UInt32
  lastRun : Option LastRun
  deriving DecidableEq, Repr

structure RunResult where
  success : Bool
  durationMs : Nat
  error : Option String
  attempt : UInt32
  deriving DecidableEq, Repr

namespace ScheduledJob

def new (schedule : JobSchedule) : ScheduledJob := ⟨schedule, .active, .default, 0, none⟩

def isActive (job : ScheduledJob) : Bool := job.status == .active

end ScheduledJob

def isOneShot (schedule : JobSchedule) : Bool :=
  match schedule with
  | .immediate => true
  | .once _ => true
  | .cron _ => false

def jobIsDue (job : ScheduledJob) (nowNs : Nat) : Bool :=
  match job.lastRun with
  | none => job.schedule.isDue nowNs 0
  | some last =>
    if last.success && isOneShot job.schedule then false
    else if !last.success && isOneShot job.schedule then
      let delayNs := satMul 64 job.retryPolicy.retryDelaySecs 1_000_000_000
      decide (nowNs ≥ satAdd 64 last.firedAtNs delayNs)
    else job.schedule.isDue nowNs last.firedAtNs

/-- The update of `record_run_result` on the job it finds. The counter wraps. -/
def recorded (job : ScheduledJob) (result : RunResult) (nowNs : Nat) : ScheduledJob :=
  let job := { job with
    lastRun := some ⟨nowNs, result.success, result.durationMs, result.error, result.attempt⟩ }
  if result.success then
    let job := { job with consecutiveFailures := 0 }
    if isOneShot job.schedule then { job with status := .completed } else job
  else
    let job := { job with consecutiveFailures := job.consecutiveFailures + 1 }
    if job.consecutiveFailures ≥ job.retryPolicy.maxAttempts then { job with status := .failed }
    else job

/-- The registry: one job to an identifier. -/
structure JobRegistry where
  jobs : List (String × ScheduledJob)
  distinct : (keys jobs).Nodup

namespace JobRegistry

def get (registry : JobRegistry) (jobId : String) : Option ScheduledJob :=
  lookup jobId registry.jobs

def update (registry : JobRegistry) (jobId : String) (f : ScheduledJob → ScheduledJob) :
    JobRegistry :=
  ⟨modify jobId f registry.jobs, by rw [keys_modify]; exact registry.distinct⟩

end JobRegistry

/-- Every listed order of the registry gives the same sorted identifiers. -/
def dueJobIds (registry : JobRegistry) (nowNs : Nat) : List String :=
  let due := (registry.jobs.filter fun e => e.2.isActive).filter fun e => jobIsDue e.2 nowNs
  (due.map Prod.fst).mergeSort fun a b => decide (a ≤ b)

/-- A result for an unknown job changes nothing. -/
def recordRunResult (registry : JobRegistry) (jobId : String) (result : RunResult)
    (nowNs : Nat) : JobRegistry :=
  registry.update jobId fun job => recorded job result nowNs

structure Poll where
  nowNs : Nat
  fits : nowNs ≤ maxOf 64
  outcome : String → RunResult

def poll (registry : JobRegistry) (p : Poll) : JobRegistry × List String :=
  let ids := dueJobIds registry p.nowNs
  (ids.foldl (fun registry id => recordRunResult registry id (p.outcome id) p.nowNs) registry, ids)

/-! ## One job of a registry -/

def due (job : ScheduledJob) (nowNs : Nat) : Bool := job.isActive && jobIsDue job nowNs

/-- What a poll does to the job filed under `jobId`, and whether it returns it. -/
def pollJob (jobId : String) (job : ScheduledJob) (p : Poll) : ScheduledJob × Bool :=
  if due job p.nowNs then (recorded job (p.outcome jobId) p.nowNs, true) else (job, false)

theorem mem_dueJobIds {registry : JobRegistry} {nowNs : Nat} {jobId : String} :
    jobId ∈ dueJobIds registry nowNs ↔
      ∃ job, registry.get jobId = some job ∧ due job nowNs = true := by
  simp only [dueJobIds, List.mem_mergeSort, List.mem_map, List.mem_filter, JobRegistry.get,
    lookup_iff_mem registry.distinct, due, Bool.and_eq_true]
  constructor
  · rintro ⟨⟨id, job⟩, ⟨⟨member, active⟩, isDue⟩, rfl⟩
    exact ⟨job, member, active, isDue⟩
  · rintro ⟨job, member, active, isDue⟩
    exact ⟨(jobId, job), ⟨⟨member, active⟩, isDue⟩, rfl⟩

theorem dueJobIds_nodup (registry : JobRegistry) (nowNs : Nat) :
    (dueJobIds registry nowNs).Nodup := by
  simp only [dueJobIds]
  apply (List.mergeSort_perm _ _).nodup_iff.mpr
  apply List.Nodup.sublist _ registry.distinct
  apply List.Sublist.map
  exact List.filter_sublist.trans List.filter_sublist

theorem record_get_self (registry : JobRegistry) (jobId : String) (result : RunResult)
    (nowNs : Nat) : (recordRunResult registry jobId result nowNs).get jobId =
      (registry.get jobId).map fun job => recorded job result nowNs :=
  lookup_modify_self jobId (fun job => recorded job result nowNs) registry.jobs

theorem record_get_other {jobId other : String} (apart : other ≠ jobId) (registry : JobRegistry)
    (result : RunResult) (nowNs : Nat) :
    (recordRunResult registry jobId result nowNs).get other = registry.get other :=
  lookup_modify_other apart (fun job => recorded job result nowNs) registry.jobs

theorem recordAll_get (p : Poll) (jobId : String) (ids : List String) (distinct : ids.Nodup)
    (registry : JobRegistry) :
    (ids.foldl (fun registry id => recordRunResult registry id (p.outcome id) p.nowNs)
      registry).get jobId =
      (registry.get jobId).map fun job =>
        if jobId ∈ ids then recorded job (p.outcome jobId) p.nowNs else job := by
  induction ids generalizing registry with
  | nil => simp
  | cons id ids ih =>
    obtain ⟨fresh, distinct⟩ := List.nodup_cons.mp distinct
    rw [List.foldl_cons, ih distinct]
    by_cases same : jobId = id
    · subst same
      rw [record_get_self]
      simp [fresh, Function.comp_def]
    · rw [record_get_other same]
      simp [same]

theorem poll_get {registry : JobRegistry} {jobId : String} {job : ScheduledJob}
    (h : registry.get jobId = some job) (p : Poll) :
    (poll registry p).1.get jobId = some (pollJob jobId job p).1 ∧
      (jobId ∈ (poll registry p).2 ↔ (pollJob jobId job p).2 = true) := by
  have returned : jobId ∈ dueJobIds registry p.nowNs ↔ due job p.nowNs = true := by
    rw [mem_dueJobIds, h]
    simp
  simp only [poll, recordAll_get p jobId _ (dueJobIds_nodup registry p.nowNs), h, pollJob]
  by_cases isDue : due job p.nowNs = true
  · simp [returned, isDue]
  · simp [returned, isDue]

/-! ## Runs -/

def after (registry : JobRegistry) (polls : List Poll) : JobRegistry := final poll registry polls

/-- The poll `p` that follows `polls` returns the job. -/
def Returned (registry : JobRegistry) (polls : List Poll) (p : Poll) (jobId : String) : Prop :=
  jobId ∈ (poll (after registry polls) p).2

instance (registry : JobRegistry) (polls : List Poll) (p : Poll) (jobId : String) :
    Decidable (Returned registry polls p jobId) :=
  inferInstanceAs (Decidable (jobId ∈ (poll (after registry polls) p).2))

/-- The polls of a run that return the job. -/
def firings (registry : JobRegistry) (polls : List Poll) (jobId : String) : List Poll :=
  (trace poll registry polls).filterMap fun c =>
    if jobId ∈ c.response then some c.request else none

theorem after_snoc (registry : JobRegistry) (polls : List Poll) (p : Poll) :
    after registry (polls ++ [p]) = (poll (after registry polls) p).1 :=
  final_snoc poll registry polls p

theorem firings_snoc (registry : JobRegistry) (polls : List Poll) (p : Poll) (jobId : String) :
    firings registry (polls ++ [p]) jobId = firings registry polls jobId ++
      if Returned registry polls p jobId then [p] else [] := by
  simp only [firings, trace_append, trace, List.filterMap_append, Returned, after]
  congr 1
  by_cases returned : jobId ∈ (poll (final poll registry polls) p).2
  · simp [returned]
  · simp [returned]

/-- A run of the registry is, for each of its jobs, a run of that job. -/
theorem after_get {registry : JobRegistry} {jobId : String} {job : ScheduledJob}
    (h : registry.get jobId = some job) (polls : List Poll) :
    (after registry polls).get jobId = some (final (pollJob jobId) job polls) := by
  induction polls using List.reverseRecOn with
  | nil => exact h
  | append_singleton polls p ih =>
    rw [after_snoc, (poll_get ih p).1, final_snoc]

theorem returned_iff {registry : JobRegistry} {jobId : String} {job : ScheduledJob}
    (h : registry.get jobId = some job) (polls : List Poll) (p : Poll) :
    Returned registry polls p jobId ↔
      due (final (pollJob jobId) job polls) p.nowNs = true := by
  rw [Returned, (poll_get (after_get h polls) p).2]
  simp only [pollJob]
  split
  · rename_i isDue
    simp [isDue]
  · rename_i notDue
    simp [notDue]

end JobRunner
