import AnimaOS.CorpusWrites
import AnimaOS.DreamWalk
import AnimaOS.ReaderProvenance
import AnimaOS.SomaticSleep

/-!
# The phases of a sleep cycle

The four routines in their order, each with the context it was given, and what
the audit log and the report say of them. Float arithmetic, the order of the
pruned map and the answers of the file system are parameters.
-/

namespace SleepPhases

open ArchiveReaders DreamWalk L3Archive SomaticSleep TraceCompilation

inductive SleepRoutine where
  | memoryPruning
  | generativeReplay
  | dreamExploration
  | policyCompilation
  deriving DecidableEq, Repr

def SleepRoutine.asStr : SleepRoutine → String
  | .memoryPruning => "MemoryPruning"
  | .generativeReplay => "GenerativeReplay"
  | .dreamExploration => "DreamExploration"
  | .policyCompilation => "PolicyCompilation"

def PHASES : List SleepRoutine :=
  [.memoryPruning, .generativeReplay, .dreamExploration, .policyCompilation]

/-! ## Contexts -/

structure PruningContext where
  l1 : L1PruningStore
  elapsed : F32
  floor : Option F32

structure ReplayContext where
  l3 : Archive
  config : ReplayConfig

structure DreamContext where
  l3 : Archive
  config : DreamConfig

structure CompilationContext where
  entries : List AuditTraceEntry
  config : CompilationConfig

structure Contexts where
  pruning : Option PruningContext
  replay : Option ReplayContext
  dream : Option DreamContext
  compilation : Option CompilationContext

/-! ## Outcomes -/

structure PruningReport where
  nodesBefore : Nat
  nodesRemoved : Nat
  floorEnforced : F32
  deriving DecidableEq, Repr

structure SleepRoutineOutcome where
  routine : SleepRoutine
  completed : Bool
  notes : String
  pruning : Option PruningReport
  evictedL1Nodes : List (String × MemoryNode)
  replay : Option ReplayReport
  replayRollbackNodes : List (String × MemoryNode)
  dream : Option DreamReport
  dreamCandidates : List AssociativeEdge
  compilation : Option CompilationReport
  compiledPairs : List TrainingPair
  deriving DecidableEq, Repr

structure SleepMaintenanceReport where
  outcomes : List SleepRoutineOutcome
  deriving DecidableEq, Repr

def SleepMaintenanceReport.allCompleted (report : SleepMaintenanceReport) : Bool :=
  !report.outcomes.isEmpty && report.outcomes.all SleepRoutineOutcome.completed

/-- Every outcome starts from this one, which is completed. -/
def stubOutcome (routine : SleepRoutine) (notes : String) : SleepRoutineOutcome where
  routine := routine
  completed := true
  notes := notes
  pruning := none
  evictedL1Nodes := []
  replay := none
  replayRollbackNodes := []
  dream := none
  dreamCandidates := []
  compilation := none
  compiledPairs := []

def runRoutineStub (routine : SleepRoutine) : SleepRoutineOutcome :=
  let notes :=
    match routine with
    | .memoryPruning => "decay applied, floor enforced"
    | .generativeReplay => "replay verified, no rollback required"
    | .dreamExploration => "associative edges proposed"
    | .policyCompilation => "training pairs emitted"
  stubOutcome routine notes

inductive AuditEntry where
  | sleepPhaseStarted (agentId phase : String)
  | sleepPhaseCompleted (agentId phase : String) (success : Bool)
  deriving DecidableEq, Repr

/-! ## Phases -/

/-- What pruning takes from outside: decayed activations, `f32::max` and the order of the map. -/
structure PruningOps where
  activationAt : MemoryNode → F32 → F32
  max : F32 → F32 → F32
  order : List (String × MemoryNode) → List (String × MemoryNode)

/-- `0.3`. -/
def SEMANTIC_FLOOR : F32 := 0x3e99999a#32

section Phases

variable (fl : FloatOps) (ops : PruningOps) (faults : Faults)

def survives (elapsed floorEnforced : F32) (node : MemoryNode) : Bool :=
  fl.compare (ops.activationAt node elapsed) floorEnforced = some .gt

def drainPrunedWith (l1 : L1PruningStore) (elapsed floor : F32) :
    L1PruningStore × PruningReport × List (String × MemoryNode) :=
  let floorEnforced := ops.max floor SEMANTIC_FLOOR
  let kept : L1PruningStore := ⟨l1.nodes.filter fun e => survives fl ops elapsed floorEnforced e.2,
    l1.distinct.sublist (List.filter_sublist.map Prod.fst)⟩
  (kept, ⟨l1.nodes.length, l1.nodes.length - kept.nodes.length, floorEnforced⟩,
    ops.order (l1.nodes.filter fun e => !survives fl ops elapsed floorEnforced e.2))

/-- The store is `none` where no context was given. -/
def runPruningPhase (ctx : Option PruningContext) :
    Option L1PruningStore × SleepRoutineOutcome :=
  match ctx with
  | some c =>
    let floor := c.floor.getD SEMANTIC_FLOOR
    let drained := drainPrunedWith fl ops c.l1 c.elapsed floor
    (some drained.1, { stubOutcome .memoryPruning "decay applied, floor enforced" with
      pruning := some drained.2.1
      evictedL1Nodes := drained.2.2 })
  | none =>
    (none, stubOutcome .memoryPruning "decay applied, floor enforced (no store supplied)")

def runReplayPhase (ctx : Option ReplayContext) : SleepRoutineOutcome :=
  match ctx with
  | some c =>
    let validated := runReplayValidation fl c.l3 c.config
    let notes :=
      if validated.1.triggeredRollback then "replay validated, rollback triggered"
      else "replay verified, no rollback required"
    { stubOutcome .generativeReplay notes with
      replay := some validated.1
      replayRollbackNodes := validated.2.map fun r => (r.key, r.node) }
  | none => runRoutineStub .generativeReplay

theorem runDreamWalk_isSome (cosineSimilarity : List F32 → List F32 → F32) (l3 : Archive)
    (config : DreamConfig) : (runDreamWalk cosineSimilarity l3 config).isSome = true := by
  rw [runDreamWalk, dreamOver_eq]
  rfl

def runDreamPhase (ctx : Option DreamContext) : SleepRoutineOutcome :=
  match ctx with
  | some c =>
    let walked := (runDreamWalk fl.cosineSimilarity c.l3 c.config).get
      (runDreamWalk_isSome fl.cosineSimilarity c.l3 c.config)
    let notes :=
      if walked.1.candidatesFound > 0 then "associative edges discovered"
      else "dream walk complete, no edges above threshold"
    { stubOutcome .dreamExploration notes with
      dream := some walked.1
      dreamCandidates := walked.2 }
  | none => runRoutineStub .dreamExploration

/-- The errors of the compiler are dropped. -/
def runCompilationPhase (corpus : Corpus) (ctx : Option CompilationContext) :
    Corpus × SleepRoutineOutcome :=
  match ctx with
  | some c =>
    let compiled := compileChecked corpus faults c.entries c.config
    let notes :=
      if compiled.report.pairsCompiled > 0 then "training pairs compiled and persisted"
      else "compilation complete, no task pairs found"
    (compiled.corpus, { stubOutcome .policyCompilation notes with
      compilation := some compiled.report
      compiledPairs := compiled.pairs })
  | none => (corpus, runRoutineStub .policyCompilation)

/-! ## The maintenance pass -/

/-- What the loop over the phases carries; a context is gone once it is taken. -/
structure Pass where
  contexts : Contexts
  l1 : Option L1PruningStore
  corpus : Corpus
  audit : List AuditEntry
  outcomes : List SleepRoutineOutcome

def runRoutine (pass : Pass) : SleepRoutine → Pass × SleepRoutineOutcome
  | .memoryPruning =>
    let r := runPruningPhase fl ops pass.contexts.pruning
    ({ pass with contexts := { pass.contexts with pruning := none }, l1 := r.1 }, r.2)
  | .generativeReplay =>
    ({ pass with contexts := { pass.contexts with replay := none } },
      runReplayPhase fl pass.contexts.replay)
  | .dreamExploration =>
    ({ pass with contexts := { pass.contexts with dream := none } },
      runDreamPhase fl pass.contexts.dream)
  | .policyCompilation =>
    let r := runCompilationPhase faults pass.corpus pass.contexts.compilation
    ({ pass with contexts := { pass.contexts with compilation := none }, corpus := r.1 }, r.2)

def runPhase (agentId : String) (pass : Pass) (routine : SleepRoutine) : Pass :=
  let phase := routine.asStr
  let r := runRoutine fl ops faults
    { pass with audit := pass.audit ++ [.sleepPhaseStarted agentId phase] } routine
  let success := r.2.completed
  { r.1 with
    audit := r.1.audit ++ [.sleepPhaseCompleted agentId phase success]
    outcomes := r.1.outcomes ++ [r.2] }

def runMaintenanceAudited (agentId : String) (audit : List AuditEntry) (contexts : Contexts)
    (corpus : Corpus) : Pass :=
  PHASES.foldl (runPhase fl ops faults agentId) ⟨contexts, none, corpus, audit, []⟩

def Pass.report (pass : Pass) : SleepMaintenanceReport := ⟨pass.outcomes⟩

/-! ## What every pass reports -/

/-- The two entries of a phase. -/
def phaseEntries (agentId : String) (routine : SleepRoutine) : List AuditEntry :=
  [.sleepPhaseStarted agentId routine.asStr, .sleepPhaseCompleted agentId routine.asStr true]

theorem runRoutine_completed (pass : Pass) (routine : SleepRoutine) :
    (runRoutine fl ops faults pass routine).2.routine = routine ∧
      (runRoutine fl ops faults pass routine).2.completed = true ∧
      (runRoutine fl ops faults pass routine).1.audit = pass.audit ∧
      (runRoutine fl ops faults pass routine).1.outcomes = pass.outcomes := by
  cases routine with
  | memoryPruning =>
    cases given : pass.contexts.pruning <;>
      simp [runRoutine, runPruningPhase, stubOutcome, given]
  | generativeReplay =>
    cases given : pass.contexts.replay <;>
      simp [runRoutine, runReplayPhase, runRoutineStub, stubOutcome, given]
  | dreamExploration =>
    cases given : pass.contexts.dream <;>
      simp [runRoutine, runDreamPhase, runRoutineStub, stubOutcome, given]
  | policyCompilation =>
    cases given : pass.contexts.compilation <;>
      simp [runRoutine, runCompilationPhase, runRoutineStub, stubOutcome, given]

theorem runPhase_completed (agentId : String) (pass : Pass) (routine : SleepRoutine) :
    (runPhase fl ops faults agentId pass routine).audit =
        pass.audit ++ phaseEntries agentId routine ∧
      ∃ outcome, (runPhase fl ops faults agentId pass routine).outcomes =
          pass.outcomes ++ [outcome] ∧
        outcome.routine = routine ∧ outcome.completed = true := by
  obtain ⟨named, completed, audit, outcomes⟩ := runRoutine_completed fl ops faults
    { pass with audit := pass.audit ++ [.sleepPhaseStarted agentId routine.asStr] } routine
  refine ⟨?_, _, congrArg (· ++ [_]) outcomes, named, completed⟩
  simp [runPhase, audit, completed, phaseEntries]

/-- Whatever its contexts, a pass over some routines reports each of them as completed. -/
theorem phases_completed (agentId : String) (routines : List SleepRoutine) (pass : Pass) :
    (routines.foldl (runPhase fl ops faults agentId) pass).audit =
        pass.audit ++ routines.flatMap (phaseEntries agentId) ∧
      ∃ outcomes, (routines.foldl (runPhase fl ops faults agentId) pass).outcomes =
          pass.outcomes ++ outcomes ∧
        outcomes.map SleepRoutineOutcome.routine = routines ∧
        ∀ o ∈ outcomes, o.completed = true := by
  induction routines generalizing pass with
  | nil => exact ⟨(List.append_nil _).symm, [], (List.append_nil _).symm, rfl, by simp⟩
  | cons routine rest ih =>
    obtain ⟨entries, outcome, grown, named, completed⟩ :=
      runPhase_completed fl ops faults agentId pass routine
    obtain ⟨logged, others, reported, names, all⟩ :=
      ih (runPhase fl ops faults agentId pass routine)
    rw [List.foldl_cons, List.flatMap_cons, logged, reported, entries, grown]
    refine ⟨List.append_assoc _ _ _, outcome :: others, by simp, ?_, ?_⟩
    · rw [List.map_cons, named, names]
    · intro o listed
      rcases List.mem_cons.mp listed with rfl | later
      · exact completed
      · exact all o later

/-! ## Truthful reports -/

/-- The phase did its work without an error and without a rollback. -/
def Clean (contexts : Contexts) (corpus : Corpus) : SleepRoutine → Prop
  | .memoryPruning => True
  | .generativeReplay => ∀ c ∈ contexts.replay,
    (runReplayValidation fl c.l3 c.config).1.triggeredRollback = false
  | .dreamExploration => True
  | .policyCompilation => ∀ c ∈ contexts.compilation,
    (compileChecked corpus faults c.entries c.config).errors = []

/-- One start and one completion for each phase, in order, and one outcome. -/
structure Logged (agentId : String) (audit : List AuditEntry) (pass : Pass) : Prop where
  entries : pass.audit = audit ++ pass.outcomes.flatMap fun o =>
    [.sleepPhaseStarted agentId o.routine.asStr,
      .sleepPhaseCompleted agentId o.routine.asStr o.completed]
  phases : pass.outcomes.map SleepRoutineOutcome.routine = PHASES

/-- Only clean phases are audited as successful and reported as completed. -/
structure Truthful (agentId : String) (audit : List AuditEntry) (contexts : Contexts)
    (corpus : Corpus) (pass : Pass) : Prop where
  audited : ∀ routine, .sleepPhaseCompleted agentId routine.asStr true ∈
    pass.audit.drop audit.length → Clean fl faults contexts corpus routine
  outcomes : ∀ o ∈ pass.outcomes, o.completed = true →
    Clean fl faults contexts corpus o.routine
  all : pass.report.allCompleted = true → ∀ routine, Clean fl faults contexts corpus routine

/-- Replay samples nothing or does not fall below its threshold with the rollback enabled, and the
compilation writes nothing or gets everything written. -/
structure Untroubled (contexts : Contexts) (corpus : Corpus) : Prop where
  replay : ∀ c ∈ contexts.replay,
    sampled c.l3 c.config = [] ∨ triggersRollback fl c.l3 c.config = false
  compilation : ∀ c ∈ contexts.compilation, Persists corpus faults c.entries c.config

theorem triggeredRollback_iff (l3 : Archive) (config : ReplayConfig) :
    (runReplayValidation fl l3 config).1.triggeredRollback = false ↔
      sampled l3 config = [] ∨ triggersRollback fl l3 config = false := by
  simp only [runReplayValidation, List.length_eq_zero_iff]
  split
  · rename_i nothing
    simp [nothing]
  · rename_i something
    simp [something]

theorem clean_iff (contexts : Contexts) (corpus : Corpus) :
    (∀ routine, Clean fl faults contexts corpus routine) ↔
      Untroubled fl faults contexts corpus := by
  constructor
  · intro clean
    constructor
    · intro c given
      exact (triggeredRollback_iff fl c.l3 c.config).mp (clean .generativeReplay c given)
    · intro c given
      exact (compileChecked_errors corpus faults c.entries c.config).mp
        (clean .policyCompilation c given)
  · rintro ⟨replay, compilation⟩ routine
    cases routine with
    | memoryPruning => trivial
    | generativeReplay =>
      exact fun c given => (triggeredRollback_iff fl c.l3 c.config).mpr (replay c given)
    | dreamExploration => trivial
    | policyCompilation =>
      exact fun c given =>
        (compileChecked_errors corpus faults c.entries c.config).mpr (compilation c given)

/-- Every phase is logged once; the reports are true of it exactly where no phase can fail. -/
theorem maintenance_truthful_iff (agentId : String) (audit : List AuditEntry)
    (contexts : Contexts) (corpus : Corpus) :
    Logged agentId audit (runMaintenanceAudited fl ops faults agentId audit contexts corpus) ∧
      (Truthful fl faults agentId audit contexts corpus
          (runMaintenanceAudited fl ops faults agentId audit contexts corpus) ↔
        Untroubled fl faults contexts corpus) := by
  obtain ⟨logged, outcomes, reported, names, all⟩ := phases_completed fl ops faults agentId PHASES
    ⟨contexts, none, corpus, audit, []⟩
  rw [← runMaintenanceAudited] at logged reported
  generalize runMaintenanceAudited fl ops faults agentId audit contexts corpus = pass at *
  rw [List.nil_append] at reported
  have entries : PHASES.flatMap (phaseEntries agentId) = outcomes.flatMap fun o =>
      [.sleepPhaseStarted agentId o.routine.asStr,
        .sleepPhaseCompleted agentId o.routine.asStr o.completed] := by
    rw [← names, List.flatMap_map]
    refine List.flatMap_congr fun o listed => ?_
    rw [all o listed]
    rfl
  refine ⟨⟨by rw [logged, entries, reported], by rw [reported, names]⟩, ?_⟩
  rw [← clean_iff]
  constructor
  · intro truthful
    refine truthful.all ?_
    have nonempty : outcomes ≠ [] := by
      rintro rfl
      cases names
    simpa [Pass.report, SleepMaintenanceReport.allCompleted, reported, nonempty] using all
  · intro clean
    exact ⟨fun routine _ => clean routine, fun o _ _ => clean o.routine, fun _ => clean⟩

end Phases

def samplePruning : PruningOps := ⟨fun node _ => node.initialActivation, fun x _ => x, id⟩

/-- No directory can be made, and nothing can be written. -/
def brokenDisk : Faults :=
  ⟨false, fun _ => false, fun _ => false, fun _ => false, fun _ => false⟩

/-- An archive whose replay rolls back, and a trace with one pair to write. -/
def troubled : Contexts where
  pruning := none
  replay := some ⟨sampleArchive.archive, defaultReplay⟩
  dream := none
  compilation := some ⟨[.taskStarted 1 0 "q" 0, .taskCompleted 1 1 "a" 0],
    ⟨[.alpaca], false⟩⟩

/-- A replay that rolled back and a compilation that wrote nothing are audited as successful. -/
theorem troubled_phases_succeed :
    let pass := runMaintenanceAudited sampleOps samplePruning brokenDisk "agent" [] troubled
      fun _ => none
    pass.audit = PHASES.flatMap (phaseEntries "agent") ∧
      pass.report.allCompleted = true ∧
      ¬Clean sampleOps brokenDisk troubled (fun _ => none) .generativeReplay ∧
      ¬Clean sampleOps brokenDisk troubled (fun _ => none) .policyCompilation := by
  refine ⟨by decide +kernel, by decide +kernel, ?_, ?_⟩
  · intro clean
    have untriggered := clean ⟨sampleArchive.archive, defaultReplay⟩ rfl
    rw [triggeredRollback_iff, sample_sampled, sample_triggers] at untriggered
    simp at untriggered
  · intro clean
    have errors : (compileChecked (fun _ => none) brokenDisk
        [.taskStarted 1 0 "q" 0, .taskCompleted 1 1 "a" 0] ⟨[.alpaca], false⟩).errors ≠ [] := by
      decide +kernel
    exact errors (clean _ rfl)

end SleepPhases
