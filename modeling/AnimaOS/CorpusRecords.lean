import AnimaOS.TraceCompilation
import Mathlib.Data.List.Nodup

/-!
# Records in the training corpus

The audit log in memory is an end of the history, in which every completion
follows its own start. A cycle therefore compiles exactly the completed
dispatches whose start is still held, whatever earlier cycles wrote.
-/

namespace TraceCompilation

open Machine

/-! ## Ends of a history -/

def completionOf : AuditTraceEntry → Option Nat
  | .taskCompleted _ _ _ execution => some execution
  | _ => none

def completedIn (entries : List AuditTraceEntry) : List Nat := entries.filterMap completionOf

/-- One dispatch at a time; `running` is the task and number of the one under way. -/
inductive Sequential : Option (Nat × Nat) → List AuditTraceEntry → Prop where
  | nil {running} : Sequential running []
  | started {running taskId tier prompt execution rest} :
    Sequential (some (taskId, execution)) rest →
      Sequential running (.taskStarted taskId tier prompt execution :: rest)
  | completed {taskId tokens response execution rest} : Sequential none rest →
    Sequential (some (taskId, execution)) (.taskCompleted taskId tokens response execution :: rest)
  | failed {running taskId error rest} : Sequential none rest →
    Sequential running (.taskFailed taskId error :: rest)
  | other {running rest} : Sequential running rest → Sequential running (.other :: rest)

def pending (running : Option (Nat × Nat)) : List Nat := running.toList.map Prod.snd

theorem Sequential.sublist {running : Option (Nat × Nat)} {entries : List AuditTraceEntry}
    (h : Sequential running entries) :
    (completedIn entries).Sublist (pending running ++ startedIn entries) := by
  induction h with
  | nil => exact List.nil_sublist _
  | started _ ih => exact ih.trans (List.sublist_append_right _ _)
  | completed _ ih => exact ih.cons_cons _
  | failed _ ih => exact ih.trans (List.sublist_append_right _ _)
  | other _ ih => exact ih

/-- What an end of a sequence of dispatches continues. -/
theorem Sequential.suffix {running : Option (Nat × Nat)} {dropped entries : List AuditTraceEntry}
    (h : Sequential running (dropped ++ entries)) :
    ∃ other, Sequential other entries ∧
      ∀ e ∈ pending other, e ∈ pending running ++ startedIn dropped := by
  induction dropped generalizing running with
  | nil => exact ⟨running, h, fun e he => List.mem_append_left _ he⟩
  | cons d rest ih =>
    cases h with
    | started h =>
      obtain ⟨other, sequential, known⟩ := ih h
      refine ⟨other, sequential, fun e he => List.mem_append_right _ ?_⟩
      exact known e he
    | completed h =>
      obtain ⟨other, sequential, known⟩ := ih h
      exact ⟨other, sequential, fun e he => List.mem_append_right _ (known e he)⟩
    | failed h =>
      obtain ⟨other, sequential, known⟩ := ih h
      exact ⟨other, sequential, fun e he => List.mem_append_right _ (known e he)⟩
    | other h => exact ih h

def executions (pairs : List TrainingPair) : List Nat := pairs.map TrainingPair.execution

/-- Where the start of the running dispatch is indexed, every completion finds its start. -/
theorem extractPairs_known {running : Option (Nat × Nat)} {entries : List AuditTraceEntry}
    (h : Sequential running entries) {started : Nat → Option (Nat × String)}
    (known : ∀ task ∈ running, started task.1 ≠ none) :
    executions (extractPairs started entries) = completedIn entries := by
  induction h generalizing started with
  | nil => rfl
  | started _ ih =>
    refine ih ?_
    intro task running
    cases running
    simp
  | @completed taskId _ _ _ _ _ ih =>
    cases found : started taskId with
    | none => exact absurd found (known _ rfl)
    | some start =>
      simp only [extractPairs, found]
      exact congrArg (_ :: ·) (ih nofun)
  | failed _ ih => exact ih nofun
  | other _ ih => exact ih known

theorem Sequential.front {running : Option (Nat × Nat)} {entries later : List AuditTraceEntry}
    (h : Sequential running (entries ++ later)) : Sequential running entries := by
  induction entries generalizing running with
  | nil => exact .nil
  | cons d rest ih =>
    cases h with
    | started h => exact .started (ih h)
    | completed h => exact .completed (ih h)
    | failed h => exact .failed (ih h)
    | other h => exact .other (ih h)

/-- Where it is not, the running dispatch is left out and nothing else. -/
theorem extractPairs_unknown {running : Option (Nat × Nat)} {entries : List AuditTraceEntry}
    (h : Sequential running entries) {started : Nat → Option (Nat × String)}
    (unknown : ∀ task ∈ running, started task.1 = none)
    (gone : ∀ e ∈ pending running, e ∉ startedIn entries) :
    executions (extractPairs started entries) =
      (completedIn entries).filter fun e => e ∉ pending running := by
  have whole : ∀ {running : Option (Nat × Nat)} {done : List Nat},
      (∀ e ∈ pending running, e ∉ startedIn entries) → (∀ e ∈ done, e ∈ startedIn entries) →
      done = done.filter fun e => e ∉ pending running := by
    intro running done gone part
    refine (List.filter_eq_self.mpr ?_).symm
    intro e he
    have other : e ∉ pending running := fun own => gone e own (part e he)
    simpa using other
  induction h generalizing started with
  | nil => rfl
  | @started running taskId tier prompt execution rest h =>
    have known := @extractPairs_known _ _ h
      (Function.update started taskId (some (tier, prompt))) (by
        intro task running
        cases running
        simp)
    exact known.trans (whole gone fun e he => h.sublist.subset he)
  | @completed taskId tokens response execution rest h =>
    have missing : started taskId = none := unknown _ rfl
    have known := @extractPairs_known _ _ h started nofun
    have others := whole gone fun e he => h.sublist.subset he
    simp only [extractPairs, missing, known]
    have own : execution ∈ pending (some (taskId, execution)) := List.mem_singleton_self _
    refine others.trans ?_
    simp [completedIn, completionOf, pending]
  | @failed running taskId error rest h =>
    have known := @extractPairs_known _ _ h started nofun
    exact known.trans (whole gone fun e he => h.sublist.subset he)
  | other _ ih => exact ih unknown gone whole

/-- A completed dispatch is compiled once from the ends that hold its start, else not at all. -/
theorem count_executions {dropped entries : List AuditTraceEntry}
    (h : Sequential none (dropped ++ entries)) (distinct : (startedIn (dropped ++ entries)).Nodup)
    {e : Nat} (completed : e ∈ startedIn entries → e ∈ completedIn (dropped ++ entries)) :
    (executions (extractPairs (fun _ => none) entries)).count e =
      if e ∈ startedIn entries then 1 else 0 := by
  have once : (completedIn (dropped ++ entries)).Nodup := distinct.sublist h.sublist
  simp only [startedIn, completedIn, List.filterMap_append] at distinct completed once
  have apart := (List.nodup_append.mp distinct).2.2
  obtain ⟨running, sequential, known⟩ := h.suffix
  have gone : ∀ a ∈ pending running, a ∉ startedIn entries := by
    intro a own found
    exact apart a (known a own) a found rfl
  rw [extractPairs_unknown sequential (fun _ _ => rfl) gone]
  split
  · rename_i held
    have inside : e ∈ completedIn entries := by
      rcases List.mem_append.mp (completed held) with early | inside
      · exact absurd rfl (apart e (h.front.sublist.subset early) e held)
      · exact inside
    have other : e ∉ pending running := fun own => gone e own held
    have listed : e ∈ (completedIn entries).filter fun a => a ∉ pending running := by
      simpa using ⟨inside, other⟩
    have distinct := (List.nodup_append.mp once).2.1.filter fun a => a ∉ pending running
    exact List.nodup_iff_count_eq_one.mp distinct e listed
  · rename_i missing
    refine List.count_eq_zero.mpr fun listed => ?_
    obtain ⟨inside, other⟩ := List.mem_filter.mp listed
    rcases List.mem_append.mp (sequential.sublist.subset inside) with own | held
    · simp [own] at other
    · exact missing held

/-! ## The log and its history -/

/-- Entries that leave no dispatch under way. -/
def Whole (entries : List AuditTraceEntry) : Prop :=
  ∀ later, Sequential none later → Sequential none (entries ++ later)

theorem Whole.append {xs ys : List AuditTraceEntry} (hx : Whole xs) (hy : Whole ys) :
    Whole (xs ++ ys) := by
  intro later sequential
  rw [List.append_assoc]
  exact hx _ (hy later sequential)

theorem Whole.sequential {entries : List AuditTraceEntry} (h : Whole entries) :
    Sequential none entries := by
  simpa using h [] .nil

theorem Sequential.others {running : Option (Nat × Nat)} {later : List AuditTraceEntry}
    (h : Sequential running later) (n : Nat) :
    Sequential running (List.replicate n .other ++ later) := by
  induction n with
  | zero => exact h
  | succ n ih => exact .other ih

theorem startedIn_append (xs ys : List AuditTraceEntry) :
    startedIn (xs ++ ys) = startedIn xs ++ startedIn ys :=
  List.filterMap_append

theorem startedIn_others (n : Nat) : startedIn (List.replicate n .other) = [] := by
  simp [startedIn, startOf, List.filterMap_replicate]

theorem completedIn_append (xs ys : List AuditTraceEntry) :
    completedIn (xs ++ ys) = completedIn xs ++ completedIn ys :=
  List.filterMap_append

theorem pushOthers_history (w : World) (n : Nat) :
    (pushOthers w n).history = w.history ++ List.replicate n .other := by
  induction n generalizing w with
  | zero => simp [pushOthers]
  | succ n ih => simp [pushOthers, ih, pushEntry, List.replicate_succ]

theorem pushOthers_corpus (w : World) (n : Nat) : (pushOthers w n).corpus = w.corpus := by
  induction n generalizing w with
  | zero => rfl
  | succ n ih => exact ih _

theorem waking_history (w : World) : ∃ n,
    (transitionToWakingState w).history = w.history ++ List.replicate n .other := by
  simp only [transitionToWakingState]
  split
  · exact ⟨0, by simp⟩
  · exact ⟨1, rfl⟩

/-- The entries of a dispatch: its start, its outcome, and others around them. -/
def dispatchEntries (d : Dispatch) (execution n : Nat) : List AuditTraceEntry :=
  List.replicate n .other ++ .taskStarted d.taskId d.tier d.prompt execution ::
    (List.replicate d.between .other ++ outcomeEntry d execution ::
      List.replicate d.after .other)

theorem dispatch_history (w : World) (d : Dispatch) : ∃ n, (dispatch w d).history =
    w.history ++ dispatchEntries d (startedIn w.history).length n := by
  obtain ⟨n, woken⟩ := waking_history w
  refine ⟨n, ?_⟩
  simp [dispatch, pushOthers_history, pushEntry, woken, dispatchEntries]

theorem outcome_started (d : Dispatch) (execution : Nat) :
    startOf (outcomeEntry d execution) = none := by
  simp only [outcomeEntry]
  split <;> rfl

theorem dispatch_whole (d : Dispatch) (execution n : Nat) :
    Whole (dispatchEntries d execution n) := by
  intro later sequential
  have after := sequential.others d.after
  simp only [dispatchEntries, List.append_assoc, List.cons_append]
  refine Sequential.others (.started (Sequential.others ?_ d.between)) n
  simp only [outcomeEntry]
  split
  · exact .completed after
  · exact .failed after

theorem dispatch_started (d : Dispatch) (execution n : Nat) :
    startedIn (dispatchEntries d execution n) = [execution] := by
  have rest : startedIn (List.replicate d.between .other ++ outcomeEntry d execution ::
      List.replicate d.after .other) = [] := by
    rw [startedIn_append, startedIn_others, List.nil_append]
    exact (List.filterMap_cons_none (outcome_started d execution)).trans (startedIn_others d.after)
  rw [dispatchEntries, startedIn_append, startedIn_others, List.nil_append]
  exact congrArg (execution :: ·) rest

theorem others_whole (n : Nat) : Whole (List.replicate n .other) :=
  fun _ sequential => sequential.others n

/-- What a step appends: one dispatch, or other entries only. -/
theorem step_history (config : CompilationConfig) (w : World) (op : Op) :
    ∃ entries, (step config w op).1.history = w.history ++ entries ∧ Whole entries ∧
      (startedIn entries = [] ∨ startedIn entries = [(startedIn w.history).length]) := by
  have others : ∀ (v : World) (n : Nat), v.history = w.history →
      ∃ entries, (pushOthers v n).history = w.history ++ entries ∧ Whole entries ∧
        (startedIn entries = [] ∨ startedIn entries = [(startedIn w.history).length]) := by
    intro v n same
    refine ⟨_, ?_, others_whole n, .inl (startedIn_others n)⟩
    rw [pushOthers_history, same]
  cases op with
  | dispatch d =>
    obtain ⟨n, appended⟩ := dispatch_history w d
    exact ⟨_, appended, dispatch_whole d _ n, .inr (dispatch_started d _ n)⟩
  | entries n => exact others w n rfl
  | runSleepCycle c => exact others _ c.entries rfl
  | transitionToSleepState c =>
    simp only [step, transitionToSleepState]
    split
    · exact others w 0 rfl
    · refine ⟨_, ?_, others_whole (c.entries + 1), .inl (startedIn_others _)⟩
      simp [runMaintenance, pushOthers_history, pushEntry, List.replicate_succ]

def Held (w : World) : Prop := w.audit.entries <:+ w.history

theorem pushEntry_held {w : World} (h : Held w) (entry : AuditTraceEntry) :
    Held (pushEntry w entry) := by
  obtain ⟨dropped, split⟩ := h
  have whole : w.audit.entries ++ [entry] <:+ w.history ++ [entry] := by
    rw [← split, List.append_assoc]
    exact List.suffix_append dropped _
  simp only [Held, pushEntry, AuditLog.push]
  split
  · exact (List.drop_suffix _ _).trans whole
  · exact whole

theorem pushOthers_held {w : World} (h : Held w) (n : Nat) : Held (pushOthers w n) := by
  induction n generalizing w with
  | zero => exact h
  | succ n ih => exact ih (pushEntry_held h .other)

theorem step_held {config : CompilationConfig} {w : World} (h : Held w) (op : Op) :
    Held (step config w op).1 := by
  have written : ∀ {v : World} (corpus : Corpus), Held v → Held { v with corpus := corpus } :=
    fun _ h => h
  cases op with
  | dispatch d =>
    have awake : Held (transitionToWakingState w) := by
      simp only [transitionToWakingState]
      split
      · exact h
      · exact pushEntry_held (w := { w with state := .awake }) h .other
    have started := pushOthers_held (pushEntry_held awake
      (.taskStarted d.taskId d.tier d.prompt (startedIn w.history).length)) d.between
    exact pushOthers_held (pushEntry_held started _) d.after
  | entries n => exact pushOthers_held h n
  | runSleepCycle c => exact pushOthers_held (written _ h) c.entries
  | transitionToSleepState c =>
    simp only [step, transitionToSleepState]
    split
    · exact h
    · have asleep := pushEntry_held (w := { w with state := .sleep }) h .other
      exact pushOthers_held (written _ asleep) c.entries

/-- The log is an end of the history, no dispatch is under way, and they are numbered in order. -/
structure Kept (w : World) : Prop where
  held : Held w
  whole : Whole w.history
  numbered : startedIn w.history = List.range (startedIn w.history).length

theorem Kept.distinct {w : World} (h : Kept w) : (startedIn w.history).Nodup := by
  rw [h.numbered]
  exact List.nodup_range

theorem step_kept {config : CompilationConfig} {w : World} (h : Kept w) (op : Op) :
    Kept (step config w op).1 := by
  obtain ⟨entries, appended, whole, started⟩ := step_history config w op
  refine ⟨step_held h.held op, ?_, ?_⟩
  · rw [appended]
    exact h.whole.append whole
  · have numbered := h.numbered
    rw [appended, startedIn_append]
    rcases started with none | one
    · simpa [none] using numbered
    · rw [one, List.length_append, List.length_singleton, List.range_succ, ← numbered]

theorem start_kept (maxEntries : Nat) (older : TrainingFormat → Option (List Record)) :
    Kept (start maxEntries older) :=
  ⟨List.suffix_rfl, fun _ sequential => sequential, rfl⟩

/-! ## What a cycle writes -/

/-- The lines of a file that a dispatch of the run contributed. -/
def contributed (corpus : Corpus) (fmt : TrainingFormat) (execution : Nat) : Nat :=
  ((corpus fmt).getD []).countP fun line => line.execution = some execution

theorem contributed_writeFormat (corpus : Corpus) (fmt other : TrainingFormat)
    (pairs : List TrainingPair) (execution : Nat) :
    contributed (writeFormat corpus other pairs true) fmt execution =
      contributed corpus fmt execution +
        (if other = fmt then 1 else 0) * (executions pairs).count execution := by
  have counted : (pairs.map fun pair =>
      (⟨record pair other, some pair.execution⟩ : Line)).countP
        (fun line => line.execution = some execution) = (executions pairs).count execution := by
    simp only [List.countP_map, executions, List.count, Function.comp_def]
    congr 1
    funext pair
    by_cases own : pair.execution = execution <;> simp [own]
  by_cases same : other = fmt
  · subst same
    cases existing : corpus other <;>
      simp [contributed, writeFormat, existing, List.countP_append, counted]
  · have apart : fmt ≠ other := fun h => same h.symm
    cases existing : corpus other <;>
      simp [contributed, writeFormat, existing, Function.update_of_ne apart, same]

theorem contributed_writeFormats (corpus : Corpus) (writes : TrainingFormat → Bool)
    (pairs : List TrainingPair) (formats : List TrainingFormat) (fmt : TrainingFormat)
    (execution : Nat) :
    contributed (writeFormats corpus writes pairs true formats).1 fmt execution =
      contributed corpus fmt execution +
        (if writes fmt then formats.count fmt else 0) * (executions pairs).count execution := by
  induction formats generalizing corpus with
  | nil => simp [writeFormats]
  | cons first rest ih =>
    by_cases written : writes first = true
    · simp only [writeFormats, if_pos written, ih, contributed_writeFormat]
      by_cases same : first = fmt
      · subst same
        simp only [if_true, if_pos written, List.count_cons_self, Nat.add_mul, Nat.one_mul]
        omega
      · simp [same]
    · simp only [writeFormats, if_neg written, ih]
      by_cases same : first = fmt
      · subst same
        simp [written]
      · simp [same]

theorem contributed_compile (corpus : Corpus) (files : Files) (entries : List AuditTraceEntry)
    {config : CompilationConfig} (append : config.append = true) (fmt : TrainingFormat)
    (execution : Nat) :
    contributed (compileTracesToPairs corpus files entries config).1 fmt execution =
      contributed corpus fmt execution +
        (if files.directory && files.writes fmt then config.formats.count fmt else 0) *
          (executions (extractPairs (fun _ => none) entries)).count execution := by
  simp only [compileTracesToPairs]
  split
  · rename_i goes
    simp only [append, contributed_writeFormats, goes.2.2, Bool.true_and]
  · rename_i stays
    simp only [not_and_or, not_not] at stays
    rcases stays with none | none | closed
    · simp [none]
    · simp [none, executions]
    · simp [closed]

/-! ## Runs -/

/-- The trace a step compiles, if it is a sleep cycle. -/
def cycleOf (w : World) : Op → Option (List AuditTraceEntry × Cycle)
  | .dispatch _ => none
  | .entries _ => none
  | .runSleepCycle c => some (w.audit.entries, c)
  | .transitionToSleepState c =>
    match w.state with
    | .sleep => none
    | .awake => some ((w.audit.push .other).entries, c)

theorem step_corpus (config : CompilationConfig) (w : World) (op : Op) :
    (step config w op).1.corpus =
      match cycleOf w op with
      | some (entries, c) => (compileTracesToPairs w.corpus c.files entries config).1
      | none => w.corpus := by
  cases op with
  | dispatch d =>
    have awake : (transitionToWakingState w).corpus = w.corpus := by
      simp only [transitionToWakingState]
      split <;> rfl
    simp only [step, dispatch, pushOthers_corpus, pushEntry, awake, cycleOf]
  | entries n => exact pushOthers_corpus w n
  | runSleepCycle c => exact pushOthers_corpus _ c.entries
  | transitionToSleepState c =>
    cases state : w.state with
    | sleep => simp only [step, transitionToSleepState, cycleOf, state]
    | awake =>
      simp only [step, transitionToSleepState, cycleOf, state]
      exact pushOthers_corpus _ c.entries

/-- The trace of a cycle is an end of the history, up to the entry for falling asleep. -/
theorem cycle_entries {w : World} (h : Kept w) {op : Op} {entries : List AuditTraceEntry}
    {c : Cycle} (cycle : cycleOf w op = some (entries, c)) :
    ∃ dropped, Sequential none (dropped ++ entries) ∧
      startedIn (dropped ++ entries) = startedIn w.history ∧
      completedIn (dropped ++ entries) = completedIn w.history := by
  cases op with
  | dispatch d => cases cycle
  | entries n => cases cycle
  | runSleepCycle c =>
    cases cycle
    obtain ⟨dropped, split⟩ := h.held
    refine ⟨dropped, ?_, congrArg startedIn split, congrArg completedIn split⟩
    rw [split]
    exact h.whole.sequential
  | transitionToSleepState c =>
    simp only [cycleOf] at cycle
    split at cycle
    · cases cycle
    · cases cycle
      obtain ⟨dropped, split⟩ := pushEntry_held h.held .other
      have split : dropped ++ (w.audit.push .other).entries = w.history ++ [.other] := split
      refine ⟨dropped, ?_, ?_, ?_⟩
      · rw [split]
        exact (h.whole.append (others_whole 1)).sequential
      · rw [split, startedIn_append]
        exact List.append_nil _
      · rw [split, completedIn_append]
        exact List.append_nil _

/-- A cycle that writes a format while the start of a dispatch is still in the audit log. -/
def compilesHeld (fmt : TrainingFormat) (execution : Nat) (w : World) (op : Op) : Bool :=
  match cycleOf w op with
  | some (entries, cycle) =>
    cycle.files.directory && cycle.files.writes fmt && decide (execution ∈ startedIn entries)
  | none => false

theorem step_contributed {config : CompilationConfig} (append : config.append = true) {w : World}
    (h : Kept w) (op : Op) (fmt : TrainingFormat) {execution : Nat}
    (completed : execution ∈ startedIn w.history → execution ∈ completedIn w.history) :
    contributed (step config w op).1.corpus fmt execution =
      contributed w.corpus fmt execution +
        config.formats.count fmt * if compilesHeld fmt execution w op then 1 else 0 := by
  rw [step_corpus]
  cases cycle : cycleOf w op with
  | none => simp [compilesHeld, cycle]
  | some found =>
    obtain ⟨entries, c⟩ := found
    obtain ⟨dropped, sequential, started, finished⟩ := cycle_entries h cycle
    have distinct : (startedIn (dropped ++ entries)).Nodup := started ▸ h.distinct
    have later : execution ∈ startedIn entries → execution ∈ completedIn (dropped ++ entries) := by
      intro held
      rw [finished]
      refine completed ?_
      rw [← started, startedIn_append]
      exact List.mem_append_right _ held
    simp only [contributed_compile _ _ _ append, count_executions sequential distinct later,
      compilesHeld, cycle]
    by_cases held : execution ∈ startedIn entries <;>
      by_cases written : (c.files.directory && c.files.writes fmt) = true <;>
        simp [held, written]

theorem final_history (config : CompilationConfig) (w : World) (ops : List Op) :
    ∃ entries, (final (step config) w ops).history = w.history ++ entries ∧ Whole entries := by
  induction ops generalizing w with
  | nil => exact ⟨[], (List.append_nil _).symm, fun _ sequential => sequential⟩
  | cons op rest ih =>
    obtain ⟨entries, appended, whole, -⟩ := step_history config w op
    obtain ⟨others, later, rest⟩ := ih (step config w op).1
    refine ⟨entries ++ others, ?_, whole.append rest⟩
    rw [final, later, appended, List.append_assoc]

theorem final_kept {config : CompilationConfig} {w : World} (h : Kept w) (ops : List Op) :
    Kept (final (step config) w ops) :=
  @final_invariant _ _ _ _ Kept (fun _ op kept => step_kept kept op) w h ops

/-- A dispatch that completes in a run and has started already has completed already. -/
theorem completed_early {config : CompilationConfig} {w : World} (h : Kept w) {ops : List Op}
    {execution : Nat} (completed : execution ∈ completedIn (final (step config) w ops).history)
    (started : execution ∈ startedIn w.history) : execution ∈ completedIn w.history := by
  obtain ⟨entries, appended, whole⟩ := final_history config w ops
  have distinct := (@final_kept config w h ops).distinct
  rw [appended, startedIn_append] at distinct
  rw [appended, completedIn_append] at completed
  rcases List.mem_append.mp completed with early | late
  · exact early
  · have again := whole.sequential.sublist.subset late
    exact absurd rfl ((List.nodup_append.mp distinct).2.2 _ started _ again)

theorem run_contributed {config : CompilationConfig} (append : config.append = true) {w : World}
    (h : Kept w) {ops : List Op} (fmt : TrainingFormat) {execution : Nat}
    (completed : execution ∈ completedIn (final (step config) w ops).history) :
    contributed (final (step config) w ops).corpus fmt execution =
      contributed w.corpus fmt execution + config.formats.count fmt *
        (trace (step config) w ops).countP
          (fun c => compilesHeld fmt execution c.before c.request) := by
  induction ops generalizing w with
  | nil => simp [final, trace]
  | cons op rest ih =>
    have first := step_contributed append h op fmt (completed_early h completed)
    have later := ih (step_kept h op) completed
    simp only [final, trace, List.countP_cons, Nat.mul_add, later, first]
    omega

theorem start_contributed (maxEntries : Nat) (older : TrainingFormat → Option (List Record))
    (fmt : TrainingFormat) (execution : Nat) :
    contributed (start maxEntries older).corpus fmt execution = 0 := by
  cases file : older fmt with
  | none => simp [contributed, start, file]
  | some records => simp [contributed, start, file]

/-- A completed dispatch has one record in a corpus file for every mention of the format and
every cycle that writes it while the audit log still holds the start. -/
theorem records_of_completed (formats : List TrainingFormat) (maxEntries : Nat)
    (older : TrainingFormat → Option (List Record)) (ops : List Op) :
    ∀ execution ∈ completedIn (final (step ⟨formats, true⟩) (start maxEntries older) ops).history,
      ∀ fmt, contributed (final (step ⟨formats, true⟩) (start maxEntries older) ops).corpus fmt
          execution =
        formats.count fmt * (trace (step ⟨formats, true⟩) (start maxEntries older) ops).countP
          (fun c => compilesHeld fmt execution c.before c.request) := by
  intro execution completed fmt
  have counted := @run_contributed ⟨formats, true⟩ rfl _ (start_kept maxEntries older) ops fmt
    execution completed
  rwa [start_contributed, Nat.zero_add] at counted

def answer (taskId : Nat) (prompt response : String) : Op :=
  .dispatch ⟨taskId, 1, prompt, 0, .ok (1, response), 0⟩

def nap : Op := .transitionToSleepState ⟨⟨true, fun _ => true⟩, 8⟩

theorem records_of_completed_once :
    contributed (final (step ⟨[.alpaca], true⟩) (start 10_000 fun _ => none)
      [answer 1 "2+2?" "4", nap]).corpus .alpaca 0 = 1 := by
  have counted := records_of_completed [.alpaca] 10_000 (fun _ => none)
    [answer 1 "2+2?" "4", nap] 0 (by decide +kernel) .alpaca
  exact counted.trans (by decide +kernel)

/-- Two dispatches with a sleep after each: the second cycle writes the first dispatch again. -/
theorem first_answer_written_twice :
    ¬ ∀ execution ∈ completedIn (final (step ⟨[.alpaca], true⟩) (start 10_000 fun _ => none)
        [answer 1 "2+2?" "4", nap, answer 2 "3+3?" "6", nap]).history,
      contributed (final (step ⟨[.alpaca], true⟩) (start 10_000 fun _ => none)
        [answer 1 "2+2?" "4", nap, answer 2 "3+3?" "6", nap]).corpus .alpaca execution = 1 := by
  decide +kernel

end TraceCompilation
