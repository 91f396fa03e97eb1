import AnimaOS.TraceCompilation

/-!
# Which completions are paired with which starts

`compile_traces_to_pairs` keeps the started tasks by id and passes over failures.
Its pairs are compared with those of the completions whose last event of the same
id, failures included, is a start.
-/

namespace TraceCompilation

def AuditTraceEntry.subject : AuditTraceEntry → Option Nat
  | .taskStarted taskId _ _ _ => some taskId
  | .taskCompleted taskId _ _ _ => some taskId
  | .taskFailed taskId _ => some taskId
  | .other => none

def AuditTraceEntry.isFailure : AuditTraceEntry → Bool
  | .taskFailed _ _ => true
  | _ => false

/-- The most recent event of a task. -/
def latest (taskId : Nat) (before : List AuditTraceEntry) : Option AuditTraceEntry :=
  before.reverse.find? fun e => e.subject = some taskId

/-- The most recent start or completion of a task. -/
def latestRun (taskId : Nat) (before : List AuditTraceEntry) : Option AuditTraceEntry :=
  before.reverse.find? fun e => e.subject = some taskId && !e.isFailure

/-- The pair of a completion, if the event that it is matched with is a start. -/
def pairWith (last : Nat → Option AuditTraceEntry) : AuditTraceEntry → Option TrainingPair
  | .taskCompleted taskId _ response execution =>
    match last taskId with
    | some (.taskStarted _ tier prompt _) => some ⟨prompt, response, tier, taskId, execution⟩
    | _ => none
  | _ => none

/-- One pair for each completion of a trace that continues `before`, in order. -/
def pairsFrom (look : Nat → List AuditTraceEntry → Option AuditTraceEntry)
    (before : List AuditTraceEntry) : List AuditTraceEntry → List TrainingPair
  | [] => []
  | e :: rest =>
    (pairWith (fun id => look id before) e).toList ++ pairsFrom look (before ++ [e]) rest

def exactPairs (entries : List AuditTraceEntry) : List TrainingPair := pairsFrom latest [] entries

/-- The task failed after its last start, and has neither started nor completed since. -/
def FailedSinceStart (before : List AuditTraceEntry) (taskId : Nat) : Prop :=
  (∃ id tier prompt execution,
      latestRun taskId before = some (.taskStarted id tier prompt execution)) ∧
    ∃ id error, latest taskId before = some (.taskFailed id error)

def NoFailedPairing (entries : List AuditTraceEntry) : Prop :=
  ∀ before taskId tokensEmitted response execution after,
    entries = before ++ .taskCompleted taskId tokensEmitted response execution :: after →
      ¬ FailedSinceStart before taskId

/-! ## The index of started tasks -/

theorem latestRun_snoc (taskId : Nat) (before : List AuditTraceEntry) (e : AuditTraceEntry) :
    latestRun taskId (before ++ [e]) =
      if e.subject = some taskId ∧ e.isFailure = false then some e
      else latestRun taskId before := by
  rw [latestRun, List.reverse_append, List.reverse_singleton, List.singleton_append,
    List.find?_cons]
  by_cases own : e.subject = some taskId ∧ e.isFailure = false
  · simp [own]
  · rw [if_neg own]
    have other : (decide (e.subject = some taskId) && !e.isFailure) = false := by
      simpa using own
    rw [other]
    rfl

def startedBy (before : List AuditTraceEntry) (taskId : Nat) : Option (Nat × String) :=
  match latestRun taskId before with
  | some (.taskStarted _ tier prompt _) => some (tier, prompt)
  | _ => none

/-- A start or a completion replaces what its own task was started with. -/
theorem startedBy_run {e : AuditTraceEntry} {taskId : Nat} (subject : e.subject = some taskId)
    (run : e.isFailure = false) (before : List AuditTraceEntry) :
    startedBy (before ++ [e]) = Function.update (startedBy before) taskId
      (match e with
      | .taskStarted _ tier prompt _ => some (tier, prompt)
      | _ => none) := by
  funext id
  by_cases own : taskId = id
  · subst own
    have last : latestRun taskId (before ++ [e]) = some e := by
      rw [latestRun_snoc, if_pos ⟨subject, run⟩]
    rw [startedBy, last, Function.update_self]
    cases e <;> rfl
  · have kept : latestRun id (before ++ [e]) = latestRun id before := by
      rw [latestRun_snoc, if_neg fun same => own (Option.some.inj (subject.symm.trans same.1))]
    rw [startedBy, kept, Function.update_of_ne fun same => own same.symm]
    rfl

theorem startedBy_start (before : List AuditTraceEntry) (taskId tier : Nat) (prompt : String)
    (execution : Nat) :
    startedBy (before ++ [.taskStarted taskId tier prompt execution]) =
      Function.update (startedBy before) taskId (some (tier, prompt)) :=
  startedBy_run rfl rfl before

theorem startedBy_completion (before : List AuditTraceEntry) (taskId tokensEmitted : Nat)
    (response : String) (execution : Nat) :
    startedBy (before ++ [.taskCompleted taskId tokensEmitted response execution]) =
      Function.update (startedBy before) taskId none :=
  startedBy_run rfl rfl before

theorem startedBy_failure (before : List AuditTraceEntry) (taskId : Nat) (error : String) :
    startedBy (before ++ [.taskFailed taskId error]) = startedBy before := by
  funext id
  simp [startedBy, latestRun_snoc, AuditTraceEntry.isFailure]

theorem startedBy_other (before : List AuditTraceEntry) :
    startedBy (before ++ [.other]) = startedBy before := by
  funext id
  simp [startedBy, latestRun_snoc, AuditTraceEntry.subject]

theorem pairWith_completion (before : List AuditTraceEntry) (taskId tokensEmitted : Nat)
    (response : String) (execution : Nat) :
    pairWith (fun id => latestRun id before)
        (.taskCompleted taskId tokensEmitted response execution) =
      (startedBy before taskId).map fun start =>
        ⟨start.2, response, start.1, taskId, execution⟩ := by
  simp only [pairWith, startedBy]
  cases latestRun taskId before with
  | none => rfl
  | some e => cases e <;> rfl

/-- The map of the scan holds the starts that no completion has taken, failed or not. -/
theorem extractPairs_eq (before entries : List AuditTraceEntry) :
    extractPairs (startedBy before) entries = pairsFrom latestRun before entries := by
  induction entries generalizing before with
  | nil => rfl
  | cons e rest ih =>
    have next := ih (before ++ [e])
    cases e with
    | taskStarted taskId tier prompt execution =>
      rw [startedBy_start] at next
      simpa [extractPairs, pairsFrom, pairWith] using next
    | taskCompleted taskId tokensEmitted response execution =>
      rw [startedBy_completion] at next
      cases found : startedBy before taskId with
      | none =>
        have same : Function.update (startedBy before) taskId none = startedBy before := by
          rw [← found, Function.update_eq_self]
        rw [same] at next
        simpa [extractPairs, pairsFrom, pairWith_completion, found] using next
      | some start => simpa [extractPairs, pairsFrom, pairWith_completion, found] using next
    | taskFailed taskId error =>
      rw [startedBy_failure] at next
      simpa [extractPairs, pairsFrom, pairWith] using next
    | other =>
      rw [startedBy_other] at next
      simpa [extractPairs, pairsFrom, pairWith] using next

/-! ## Failures in between -/

/-- Passing over failures changes the last event only where it is a failure. -/
theorem latestRun_eq {taskId : Nat} {before : List AuditTraceEntry}
    (unfailed : ¬ ∃ id error, latest taskId before = some (.taskFailed id error)) :
    latestRun taskId before = latest taskId before := by
  induction before using List.reverseRecOn with
  | nil => rfl
  | append_singleton before e ih =>
    have last : latest taskId (before ++ [e]) =
        if e.subject = some taskId then some e else latest taskId before := by
      rw [latest, List.reverse_append, List.reverse_singleton, List.singleton_append,
        List.find?_cons]
      by_cases own : e.subject = some taskId <;> simp [own, latest]
    rw [last] at unfailed ⊢
    rw [latestRun_snoc]
    by_cases own : e.subject = some taskId
    · have run : e.isFailure = false := by
        cases e with
        | taskFailed id error =>
          rw [if_pos own] at unfailed
          exact absurd ⟨id, error, rfl⟩ unfailed
        | _ => rfl
      rw [if_pos ⟨own, run⟩, if_pos own]
    · rw [if_neg own] at unfailed ⊢
      rw [if_neg fun both => own both.1]
      exact ih unfailed

/-- For a completion the two matches agree, or only the scan has a pair and the start failed. -/
theorem pairWith_agree (before : List AuditTraceEntry) (taskId tokensEmitted : Nat)
    (response : String) (execution : Nat) :
    (¬ FailedSinceStart before taskId ∧
        pairWith (fun id => latestRun id before)
            (.taskCompleted taskId tokensEmitted response execution) =
          pairWith (fun id => latest id before)
            (.taskCompleted taskId tokensEmitted response execution)) ∨
      (FailedSinceStart before taskId ∧
        (∃ pair, pairWith (fun id => latestRun id before)
            (.taskCompleted taskId tokensEmitted response execution) = some pair) ∧
        pairWith (fun id => latest id before)
            (.taskCompleted taskId tokensEmitted response execution) = none) := by
  by_cases failed : ∃ id error, latest taskId before = some (.taskFailed id error)
  · obtain ⟨id, error, last⟩ := failed
    cases found : startedBy before taskId with
    | none =>
      left
      refine ⟨?_, ?_⟩
      · rintro ⟨⟨id, tier, prompt, execution, start⟩, -⟩
        simp [startedBy, start] at found
      · rw [pairWith_completion, found]
        simp [pairWith, last]
    | some start =>
      right
      refine ⟨⟨?_, id, error, last⟩, ?_, ?_⟩
      · simp only [startedBy] at found
        split at found
        · rename_i id tier prompt execution run
          exact ⟨id, tier, prompt, execution, run⟩
        · cases found
      · rw [pairWith_completion, found]
        exact ⟨_, rfl⟩
      · simp [pairWith, last]
  · refine Or.inl ⟨fun since => failed since.2, ?_⟩
    simp only [pairWith, latestRun_eq failed]

/-- `NoFailedPairing` for a trace that continues `before`. -/
def NoFailedPairingFrom (before entries : List AuditTraceEntry) : Prop :=
  ∀ mid taskId tokensEmitted response execution after,
    entries = mid ++ .taskCompleted taskId tokensEmitted response execution :: after →
      ¬ FailedSinceStart (before ++ mid) taskId

theorem noFailedPairingFrom_cons (before rest : List AuditTraceEntry) (e : AuditTraceEntry) :
    NoFailedPairingFrom before (e :: rest) ↔
      (∀ taskId tokensEmitted response execution,
        e = .taskCompleted taskId tokensEmitted response execution →
          ¬ FailedSinceStart before taskId) ∧ NoFailedPairingFrom (before ++ [e]) rest := by
  constructor
  · intro none
    refine ⟨?_, ?_⟩
    · rintro taskId tokensEmitted response execution rfl
      have here := none [] taskId tokensEmitted response execution rest rfl
      rwa [List.append_nil] at here
    · rintro mid taskId tokensEmitted response execution after rfl
      have later := none (e :: mid) taskId tokensEmitted response execution after rfl
      rwa [List.append_assoc, List.singleton_append]
  · rintro ⟨here, later⟩ mid taskId tokensEmitted response execution after split
    cases mid with
    | nil =>
      obtain ⟨rfl, rfl⟩ := List.cons.inj split
      rw [List.append_nil]
      exact here taskId tokensEmitted response execution rfl
    | cons first mid =>
      obtain ⟨rfl, rfl⟩ := List.cons.inj split
      have deep := later mid taskId tokensEmitted response execution after rfl
      rwa [List.append_assoc, List.singleton_append] at deep

theorem exact_sublist (before entries : List AuditTraceEntry) :
    (pairsFrom latest before entries).Sublist (pairsFrom latestRun before entries) := by
  induction entries generalizing before with
  | nil => exact .slnil
  | cons e rest ih =>
    refine List.Sublist.append ?_ (ih (before ++ [e]))
    cases e with
    | taskCompleted taskId tokensEmitted response execution =>
      rcases pairWith_agree before taskId tokensEmitted response execution with
        ⟨-, same⟩ | ⟨-, -, unpaired⟩
      · rw [same]
      · rw [unpaired]
        exact List.nil_sublist _
    | _ => exact .slnil

theorem pairsFrom_eq_iff (before entries : List AuditTraceEntry) :
    pairsFrom latestRun before entries = pairsFrom latest before entries ↔
      NoFailedPairingFrom before entries := by
  induction entries generalizing before with
  | nil => simp [pairsFrom, NoFailedPairingFrom]
  | cons e rest ih =>
    rw [noFailedPairingFrom_cons, ← ih]
    simp only [pairsFrom]
    cases e with
    | taskCompleted taskId tokensEmitted response execution =>
      rcases pairWith_agree before taskId tokensEmitted response execution with
        ⟨unfailed, same⟩ | ⟨failed, ⟨pair, paired⟩, unpaired⟩
      · rw [same, List.append_cancel_left_eq]
        refine ⟨fun later => ⟨?_, later⟩, fun both => both.2⟩
        rintro _ _ _ _ ⟨⟩
        exact unfailed
      · -- One pair too many here cannot be made up for later.
        have longer := (exact_sublist (before ++
          [.taskCompleted taskId tokensEmitted response execution]) rest).length_le
        constructor
        · intro same
          have lengths := congrArg List.length same
          simp only [paired, unpaired, Option.toList_some, Option.toList_none,
            List.length_append, List.length_singleton, List.length_nil] at lengths
          omega
        · rintro ⟨unfailed, -⟩
          exact absurd failed (unfailed taskId tokensEmitted response execution rfl)
    | _ => simp [pairWith]

/-- The compiled pairs are those of the exact pairing unless a completion is matched with a start
that failed in between. -/
theorem compiled_exact_iff (corpus : Corpus) (files : Files) (entries : List AuditTraceEntry)
    (config : CompilationConfig) :
    (compileTracesToPairs corpus files entries config).2.2 = exactPairs entries ↔
      NoFailedPairing entries := by
  have scan : (compileTracesToPairs corpus files entries config).2.2 =
      pairsFrom latestRun [] entries := extractPairs_eq [] entries
  rw [scan]
  exact pairsFrom_eq_iff [] entries

/-- A failed prompt is paired with the response of a later completion. -/
theorem failed_prompt_paired :
    (compileTracesToPairs (fun _ => none) ⟨true, fun _ => true⟩
        [.taskStarted 7 1 "failed prompt" 0, .taskFailed 7 "timeout",
          .taskCompleted 7 3 "response" 1] ⟨[], false⟩).2.2 ≠
      exactPairs [.taskStarted 7 1 "failed prompt" 0, .taskFailed 7 "timeout",
        .taskCompleted 7 3 "response" 1] := by decide

end TraceCompilation
