import AnimaOS.AdapterLibrary
import AnimaOS.TraceCompilation

/-!
# The consolidation hook

One run of the fine-tuner over the pairs of a sleep cycle: what is returned,
what the audit log receives, and what becomes of the shared library. The tuner
is any function, and so is the debug text of its errors.
-/

namespace Consolidation

open AdapterLibrary

/-! ## Jobs -/

structure FtPair where
  prompt : String
  response : String
  deriving DecidableEq, Repr

inductive FineTuneError where
  | backendUnavailable (backend reason : String)
  | emptyDataset
  | invalidConfig (message : String)
  | unsupportedMethod (method : String)
  | externalBackend (backend message : String)
  deriving DecidableEq, Repr

/-- The configuration of a job is handed to the tuner unread. -/
structure FineTuneJob (Config : Type) where
  jobId : String
  config : Config

abbrev Tuner (Config : Type) :=
  FineTuneJob Config → List FtPair → Except FineTuneError AdapterArtifact

/-- `Arc<Mutex<AdapterLibrary>>`. -/
structure SharedLibrary where
  poisoned : Bool
  library : Library
  deriving DecidableEq, Repr

structure ConsolidationConfig (Config : Type) where
  tuner : Tuner Config
  finetuneConfig : Config
  minPairs : Nat
  library : Option SharedLibrary

/-! ## A run -/

inductive ConsolidationOutcome where
  | skipped (pairsAvailable minRequired : Nat)
  | completed (adapterId : String) (pairsTrained : Nat) (registered : Bool)
  | failed (error : String)
  deriving DecidableEq, Repr

namespace ConsolidationOutcome

def isCompleted : ConsolidationOutcome → Bool
  | .completed _ _ _ => true
  | _ => false

def isSkipped : ConsolidationOutcome → Bool
  | .skipped _ _ => true
  | _ => false

end ConsolidationOutcome

inductive AuditEntry where
  | consolidationSkipped (agentId : String) (pairsAvailable minRequired : Nat)
  | consolidationStarted (agentId : String) (pairsTrained : Nat)
  | consolidationCompleted (agentId adapterId : String) (pairsTrained : Nat) (registered : Bool)
  | consolidationFailed (agentId error : String)
  deriving DecidableEq, Repr

/-- A run's outcome, every entry the audit log has received and the library it leaves. -/
structure Ran where
  outcome : ConsolidationOutcome
  audit : List AuditEntry
  library : Option SharedLibrary

/-- What the library's answer is does not matter to `registered`. -/
def tryRegister (library : Option SharedLibrary) (artifact : AdapterArtifact) :
    Option SharedLibrary × Bool :=
  match library with
  | none => (none, false)
  | some shared =>
    if shared.poisoned then (some shared, false)
    else (some { shared with library := (register shared.library artifact).1 }, true)

section Running

variable {Config : Type} (debug : FineTuneError → String)

def trainingSet (pairs : List TraceCompilation.TrainingPair) : List FtPair :=
  pairs.map fun p => ⟨p.prompt, p.response⟩

def runConsolidation (pairs : List TraceCompilation.TrainingPair) (agentId : String)
    (config : ConsolidationConfig Config) (audit : List AuditEntry) : Ran :=
  if pairs.length < config.minPairs then
    ⟨.skipped pairs.length config.minPairs,
      audit ++ [.consolidationSkipped agentId pairs.length config.minPairs], config.library⟩
  else
    let set := trainingSet pairs
    let started := audit ++ [.consolidationStarted agentId set.length]
    let job : FineTuneJob Config := ⟨"consolidation-" ++ agentId, config.finetuneConfig⟩
    match config.tuner job set with
    | .ok artifact =>
      let r := tryRegister config.library artifact
      ⟨.completed artifact.adapterId pairs.length r.2,
        started ++ [.consolidationCompleted agentId artifact.adapterId pairs.length r.2], r.1⟩
    | .error e =>
      ⟨.failed (debug e), started ++ [.consolidationFailed agentId (debug e)], config.library⟩

/-- The artifact of a run, when it comes to one. -/
def produced (pairs : List TraceCompilation.TrainingPair) (agentId : String)
    (config : ConsolidationConfig Config) : Option AdapterArtifact :=
  if pairs.length < config.minPairs then none
  else (config.tuner ⟨"consolidation-" ++ agentId, config.finetuneConfig⟩
    (trainingSet pairs)).toOption

end Running

/-! ## Refused registrations -/

/-- A new id finds the library full, with nothing that may be evicted. -/
structure Refuses (lib : Library) (artifact : AdapterArtifact) : Prop where
  fresh : lib.adapters.get artifact.adapterId = none
  full : lib.capacity ≤ lib.adapters.size
  pinned : lib.policy = .rejectWhenFull ∨ unpinned (withdraw lib artifact.adapterId) = []

theorem oldest_eq_none {l : List AdapterArtifact} : oldest l = none ↔ l = [] := by
  cases l with
  | nil => simp [oldest]
  | cons a rest =>
    simp only [oldest, reduceCtorEq, iff_false]
    split
    · exact Option.some_ne_none a
    · split <;> exact Option.some_ne_none _

theorem evictOne_ok_iff (lib : Library) :
    (evictOne lib).2 = .ok () ↔ lib.policy = .oldestFirst ∧ unpinned lib ≠ [] := by
  simp only [evictOne]
  cases policy : lib.policy with
  | rejectWhenFull => simp
  | oldestFirst =>
    cases picked : oldest (unpinned lib) with
    | none =>
      have nobody := oldest_eq_none.mp picked
      simp [nobody]
    | some victim =>
      have somebody : unpinned lib ≠ [] := by
        intro nobody
        rw [nobody] at picked
        cases picked
      simp [somebody]

theorem register_ok_iff (lib : Library) (artifact : AdapterArtifact) :
    (register lib artifact).2 = .ok () ↔ ¬Refuses lib artifact := by
  have same : (withdraw lib artifact.adapterId).adapters = lib.adapters := rfl
  have size : (withdraw lib artifact.adapterId).capacity = lib.capacity := rfl
  have rule : (withdraw lib artifact.adapterId).policy = lib.policy := rfl
  simp only [register, same, size]
  cases known : lib.adapters.get artifact.adapterId with
  | some old =>
    have accepted : ¬Refuses lib artifact := by
      intro refuses
      rw [refuses.fresh] at known
      cases known
    simp [accepted]
  | none =>
    by_cases full : lib.capacity ≤ lib.adapters.size
    · have evicts := evictOne_ok_iff (withdraw lib artifact.adapterId)
      have refuses : Refuses lib artifact ↔
          ¬(lib.policy = .oldestFirst ∧ unpinned (withdraw lib artifact.adapterId) ≠ []) := by
        constructor
        · rintro ⟨-, -, rejecting | pinned⟩ ⟨oldestFirst, free⟩
          · rw [rejecting] at oldestFirst
            cases oldestFirst
          · exact free pinned
        · intro stuck
          refine ⟨known, full, ?_⟩
          cases policy : lib.policy with
          | rejectWhenFull => exact Or.inl rfl
          | oldestFirst =>
            refine Or.inr ?_
            by_contra free
            exact stuck ⟨policy, free⟩
      rw [rule] at evicts
      rw [refuses, not_not, ← evicts]
      simp only [ge_iff_le, full, if_true]
      rcases evicted : evictOne (withdraw lib artifact.adapterId) with ⟨left, answer⟩
      cases answer with
      | error e => simp
      | ok u => simp
    · have accepted : ¬Refuses lib artifact := fun refuses => full refuses.full
      simp [full, accepted]

/-- An accepted artifact is held, whatever was there under its id. -/
theorem register_held {lib : Library} {artifact : AdapterArtifact}
    (accepted : ¬Refuses lib artifact) :
    (register lib artifact).1.adapters.get artifact.adapterId = some artifact := by
  have ok := (register_ok_iff lib artifact).mpr accepted
  have cases := register_cases lib artifact
  rcases answered : register lib artifact with ⟨left, answer⟩
  rw [answered] at cases ok
  cases cases with
  | replaced => exact KeyedMap.get_insert_self _ _ _
  | refused => cases ok
  | added => exact KeyedMap.get_insert_self _ _ _
  | evicted => exact KeyedMap.get_insert_self _ _ _

theorem register_refused {lib : Library} {artifact : AdapterArtifact}
    (refuses : Refuses lib artifact) :
    (register lib artifact).1 = withdraw lib artifact.adapterId := by
  have failed : ¬(register lib artifact).2 = .ok () :=
    fun ok => (register_ok_iff lib artifact).mp ok refuses
  have cases := register_cases lib artifact
  rcases answered : register lib artifact with ⟨left, answer⟩
  rw [answered] at cases failed
  cases cases with
  | replaced => exact absurd rfl failed
  | refused => rfl
  | added => exact absurd rfl failed
  | evicted => exact absurd rfl failed

/-- Two libraries that differ in nothing but what belongs to one id. -/
structure OthersKept (adapterId : String) (lib lib' : Library) : Prop where
  capacity : lib'.capacity = lib.capacity
  policy : lib'.policy = lib.policy
  adapters : ∀ other ≠ adapterId, lib'.adapters.get other = lib.adapters.get other
  adopted : ∀ other ≠ adapterId, lib'.adopted.get other = lib.adopted.get other
  operatorApproved : ∀ other ≠ adapterId,
    lib'.operatorApproved.get other = lib.operatorApproved.get other
  mounts : ∀ mountId, ∀ other ≠ adapterId,
    (lib'.mounts.get mountId = some other ↔ lib.mounts.get mountId = some other)

theorem withdraw_others (lib : Library) (adapterId : String) :
    OthersKept adapterId lib (withdraw lib adapterId) := by
  refine ⟨rfl, rfl, fun _ _ => rfl, ?_, ?_, ?_⟩
  · intro other apart
    exact KeyedMap.get_remove_other apart _
  · intro other apart
    exact KeyedMap.get_remove_other apart _
  · intro mountId other apart
    rw [← KeyedMap.mem_entries, ← KeyedMap.mem_entries]
    simp only [withdraw, KeyedMap.mem_retain, decide_eq_true_eq]
    exact and_iff_left apart

/-! ## Truthful reports -/

/-- The library has exactly this artifact under its id. -/
def Held (library : Option SharedLibrary) (artifact : AdapterArtifact) : Prop :=
  ∃ shared ∈ library, shared.library.adapters.get artifact.adapterId = some artifact

/-- A free lock leads to a library that accepts the artifact; behind a poisoned one it is not
already registered. -/
def Registrable (library : Option SharedLibrary) (artifact : AdapterArtifact) : Prop :=
  ∀ shared ∈ library,
    (shared.poisoned = false → ¬Refuses shared.library artifact) ∧
    (shared.poisoned = true →
      shared.library.adapters.get artifact.adapterId ≠ some artifact)

theorem tryRegister_iff (library : Option SharedLibrary) (artifact : AdapterArtifact) :
    ((tryRegister library artifact).2 = true ↔ Held (tryRegister library artifact).1 artifact) ↔
      Registrable library artifact := by
  cases library with
  | none => simp [tryRegister, Held, Registrable]
  | some shared =>
    cases locked : shared.poisoned with
    | true => simp [tryRegister, Held, Registrable, locked]
    | false =>
      have held : Held (tryRegister (some shared) artifact).1 artifact ↔
          (register shared.library artifact).1.adapters.get artifact.adapterId =
            some artifact := by
        simp [tryRegister, Held, locked]
      have claimed : (tryRegister (some shared) artifact).2 = true := by
        simp [tryRegister, locked]
      have registrable : Registrable (some shared) artifact ↔
          ¬Refuses shared.library artifact := by
        simp [Registrable, locked]
      rw [held, registrable, iff_true_left claimed]
      constructor
      · intro found refuses
        rw [register_refused refuses] at found
        exact Option.some_ne_none artifact (found.symm.trans refuses.fresh)
      · exact register_held

/-- The terminal entry that goes with an outcome. -/
def ConsolidationOutcome.entry (agentId : String) : ConsolidationOutcome → AuditEntry
  | .skipped available required => .consolidationSkipped agentId available required
  | .completed adapterId trained registered =>
    .consolidationCompleted agentId adapterId trained registered
  | .failed error => .consolidationFailed agentId error

section Runs

variable {Config : Type} (debug : FineTuneError → String)
  (pairs : List TraceCompilation.TrainingPair) (agentId : String)
  (config : ConsolidationConfig Config) (audit : List AuditEntry)

/-- What a run can come to. -/
inductive Run : Ran → Prop where
  | skipped (few : pairs.length < config.minPairs) (nothing : produced pairs agentId config = none) :
    Run ⟨.skipped pairs.length config.minPairs,
      audit ++ [.consolidationSkipped agentId pairs.length config.minPairs], config.library⟩
  | completed (artifact : AdapterArtifact) (made : produced pairs agentId config = some artifact) :
    Run ⟨.completed artifact.adapterId pairs.length (tryRegister config.library artifact).2,
      audit ++ [.consolidationStarted agentId pairs.length] ++
        [.consolidationCompleted agentId artifact.adapterId pairs.length
          (tryRegister config.library artifact).2],
      (tryRegister config.library artifact).1⟩
  | failed (e : FineTuneError) (nothing : produced pairs agentId config = none) :
    Run ⟨.failed (debug e), audit ++ [.consolidationStarted agentId pairs.length] ++
      [.consolidationFailed agentId (debug e)], config.library⟩

theorem runConsolidation_cases :
    Run debug pairs agentId config audit (runConsolidation debug pairs agentId config audit) := by
  by_cases few : pairs.length < config.minPairs
  · rw [runConsolidation, if_pos few]
    exact .skipped few (if_pos few)
  · have made : produced pairs agentId config =
        (config.tuner ⟨"consolidation-" ++ agentId, config.finetuneConfig⟩
          (trainingSet pairs)).toOption := if_neg few
    have size : (trainingSet pairs).length = pairs.length := List.length_map _
    rw [runConsolidation, if_neg few]
    dsimp only
    rw [size]
    cases tuned : config.tuner ⟨"consolidation-" ++ agentId, config.finetuneConfig⟩
        (trainingSet pairs) with
    | ok artifact =>
      rw [tuned] at made
      exact .completed artifact made
    | error e =>
      rw [tuned] at made
      exact .failed e made

/-- One terminal entry, that of the outcome, with a start before it unless the run is skipped. -/
theorem runConsolidation_audit :
    (runConsolidation debug pairs agentId config audit).audit = audit ++
      (if (runConsolidation debug pairs agentId config audit).outcome.isSkipped then []
        else [.consolidationStarted agentId pairs.length]) ++
      [(runConsolidation debug pairs agentId config audit).outcome.entry agentId] := by
  have cases := runConsolidation_cases debug pairs agentId config audit
  generalize runConsolidation debug pairs agentId config audit = ran at cases ⊢
  cases cases with
  | skipped => simp [ConsolidationOutcome.isSkipped, ConsolidationOutcome.entry]
  | completed => simp [ConsolidationOutcome.isSkipped, ConsolidationOutcome.entry]
  | failed => simp [ConsolidationOutcome.isSkipped, ConsolidationOutcome.entry]

/-- The answer and the entries of the run say of the produced artifact what the library shows. -/
structure Truthful (ran : Ran) : Prop where
  returned : (∃ adapterId trained, ran.outcome = .completed adapterId trained true) ↔
    ∃ artifact ∈ produced pairs agentId config, Held ran.library artifact
  audited : (∃ adapterId trained, .consolidationCompleted agentId adapterId trained true ∈
      ran.audit.drop audit.length) ↔
    ∃ artifact ∈ produced pairs agentId config, Held ran.library artifact

/-- The run's entries claim a registration exactly when its outcome does. -/
theorem runConsolidation_agree :
    (∃ adapterId trained, .consolidationCompleted agentId adapterId trained true ∈
        (runConsolidation debug pairs agentId config audit).audit.drop audit.length) ↔
      ∃ adapterId trained, (runConsolidation debug pairs agentId config audit).outcome =
        .completed adapterId trained true := by
  have cases := runConsolidation_cases debug pairs agentId config audit
  generalize runConsolidation debug pairs agentId config audit = ran at cases ⊢
  cases cases with
  | skipped => simp
  | completed => simp [List.append_assoc]
  | failed => simp [List.append_assoc]

theorem runConsolidation_truthful :
    Truthful pairs agentId config audit (runConsolidation debug pairs agentId config audit) ↔
      ∀ artifact ∈ produced pairs agentId config, Registrable config.library artifact := by
  have returned : Truthful pairs agentId config audit
        (runConsolidation debug pairs agentId config audit) ↔
      ((∃ adapterId trained, (runConsolidation debug pairs agentId config audit).outcome =
          .completed adapterId trained true) ↔
        ∃ artifact ∈ produced pairs agentId config,
          Held (runConsolidation debug pairs agentId config audit).library artifact) := by
    constructor
    · exact Truthful.returned
    · intro same
      exact ⟨same, (runConsolidation_agree debug pairs agentId config audit).trans same⟩
  rw [returned]
  have cases := runConsolidation_cases debug pairs agentId config audit
  generalize runConsolidation debug pairs agentId config audit = ran at cases ⊢
  cases cases with
  | skipped few nothing => simp [nothing]
  | completed artifact made => simpa [made] using tryRegister_iff config.library artifact
  | failed e nothing => simp [nothing]

/-- What every run does, refused registrations included. -/
structure Recorded (ran : Ran) : Prop where
  entries : ran.audit = audit ++
    (if ran.outcome.isSkipped then [] else [.consolidationStarted agentId pairs.length]) ++
      [ran.outcome.entry agentId]
  others : ∀ artifact ∈ produced pairs agentId config, ∀ shared ∈ config.library,
    shared.poisoned = false → (register shared.library artifact).2 ≠ .ok () →
      ∃ left ∈ ran.library, OthersKept artifact.adapterId shared.library left.library

theorem runConsolidation_recorded :
    Recorded pairs agentId config audit (runConsolidation debug pairs agentId config audit) := by
  refine ⟨runConsolidation_audit debug pairs agentId config audit, ?_⟩
  intro artifact made shared configured free refused
  have refuses : Refuses shared.library artifact := by
    by_contra accepts
    exact refused ((register_ok_iff shared.library artifact).mpr accepts)
  have cases := runConsolidation_cases debug pairs agentId config audit
  generalize runConsolidation debug pairs agentId config audit = ran at cases ⊢
  cases cases with
  | skipped few nothing => simp [nothing] at made
  | failed e nothing => simp [nothing] at made
  | completed other made' =>
    obtain rfl : other = artifact := by simpa [made'] using made
    have locked : config.library = some shared := configured
    refine ⟨{ shared with library := (register shared.library other).1 }, ?_, ?_⟩
    · simp [tryRegister, locked, free]
    · rw [register_refused refuses]
      exact withdraw_others shared.library other.adapterId

/-- Registrations are reported truthfully exactly where none is refused. -/
theorem consolidation_truthful_iff :
    Recorded pairs agentId config audit (runConsolidation debug pairs agentId config audit) ∧
      (Truthful pairs agentId config audit
          (runConsolidation debug pairs agentId config audit) ↔
        ∀ artifact ∈ produced pairs agentId config, Registrable config.library artifact) :=
  ⟨runConsolidation_recorded debug pairs agentId config audit,
    runConsolidation_truthful debug pairs agentId config audit⟩

end Runs

/-- A mountable adapter of the base model. -/
def adapter (adapterId : String) : AdapterArtifact :=
  ⟨adapterId, .mountableAdapter, "digest", ⟨"base-q4", .fullFineTune, "job", 0⟩⟩

/-- A library of one place that rejects when full, with another adapter in it. -/
def fullLibrary : Option SharedLibrary :=
  some ⟨false, after 1 .rejectWhenFull [.register (adapter "other")]⟩

/-- The library refuses the artifact, and it is reported as registered. -/
theorem refused_reported_registered :
    let config : ConsolidationConfig Unit := ⟨fun _ _ => .ok (adapter "new"), (), 1, fullLibrary⟩
    let pairs : List TraceCompilation.TrainingPair := [⟨"q", "a", 0, 1, 1⟩]
    let ran := runConsolidation (fun _ => "") pairs "agent" config []
    ran.outcome = .completed "new" 1 true ∧
      ran.audit = [.consolidationStarted "agent" 1, .consolidationCompleted "agent" "new" 1 true] ∧
      ran.library.map (fun shared => shared.library.adapters.get "new") = some none ∧
      ¬Truthful pairs "agent" config [] ran := by
  refine ⟨by decide +kernel, by decide +kernel, by decide +kernel, ?_⟩
  intro truthful
  obtain ⟨artifact, made, shared, held, found⟩ :=
    truthful.returned.mp ⟨"new", 1, by decide +kernel⟩
  have same : artifact = adapter "new" := (Option.some.inj made).symm
  have absent : ∀ shared ∈ (runConsolidation (fun _ => "") [⟨"q", "a", 0, 1, 1⟩] "agent"
      (⟨fun _ _ => .ok (adapter "new"), (), 1, fullLibrary⟩ : ConsolidationConfig Unit)
      []).library, shared.library.adapters.get "new" = none := by decide +kernel
  rw [same] at found
  exact Option.some_ne_none _ (found.symm.trans (absent shared held))

end Consolidation
