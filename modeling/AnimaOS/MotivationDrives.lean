import Mathlib.Algebra.Order.Field.Rat
import Mathlib.Data.Fin.VecNotation

/-!
# The drives

Six tiers of drives, their urgencies from the interoceptive signals and the
internal drive state, and what a candidate action offers to each of them.
Numbers are exact rationals.
-/

namespace MotivationDrives

/-- `f32::clamp`. -/
def clamp (x low high : ℚ) : ℚ := max low (min x high)

theorem clamp_mono {x y : ℚ} (low high : ℚ) (le : x ≤ y) : clamp x low high ≤ clamp y low high :=
  max_le_max le_rfl (min_le_min le le_rfl)

theorem low_le_clamp (x low high : ℚ) : low ≤ clamp x low high := le_max_left low _

theorem clamp_le_high {low high : ℚ} (le : low ≤ high) (x : ℚ) : clamp x low high ≤ high :=
  max_le le (min_le_right x high)

theorem clamp_eq_self {x low high : ℚ} (above : low ≤ x) (below : x ≤ high) :
    clamp x low high = x := by
  rw [clamp, min_eq_left below, max_eq_right above]

/-! ## Tiers -/

abbrev TIER_COUNT : Nat := 6

instance : NeZero TIER_COUNT := ⟨by decide⟩

/-- From the most overriding tier to the highest. -/
inductive DriveTier where
  | viability
  | integrity
  | service
  | epistemic
  | achievement
  | selfActualisation
  deriving DecidableEq, Repr

namespace DriveTier

def name : DriveTier → String
  | .viability => "Viability"
  | .integrity => "Integrity"
  | .service => "Service"
  | .epistemic => "Epistemic"
  | .achievement => "Achievement"
  | .selfActualisation => "SelfActualisation"

def index : DriveTier → Fin TIER_COUNT
  | .viability => 0
  | .integrity => 1
  | .service => 2
  | .epistemic => 3
  | .achievement => 4
  | .selfActualisation => 5

end DriveTier

/-- `[f32; TIER_COUNT]`. -/
abbrev PerTier := Fin TIER_COUNT → ℚ

structure DriveStateSnapshot where
  urgencies : PerTier

def DriveStateSnapshot.urgency (snapshot : DriveStateSnapshot) (tier : DriveTier) : ℚ :=
  snapshot.urgencies tier.index

/-! ## Internal drive state -/

structure CuriosityState where
  recentNovelty : ℚ
  decay : ℚ
  satiationFloor : ℚ
  deriving DecidableEq, Repr

def CuriosityState.new (decay satiationFloor : ℚ) : CuriosityState :=
  ⟨0, decay, clamp satiationFloor 0 (9 / 10)⟩

def CuriosityState.default : CuriosityState := .new (85 / 100) (1 / 10)

def CuriosityState.urgency (curiosity : CuriosityState) : ℚ :=
  max (1 - curiosity.recentNovelty - curiosity.satiationFloor) 0

structure MasteryState where
  competence : ℚ
  aspiration : ℚ
  deriving DecidableEq, Repr

def MasteryState.new (aspiration : ℚ) : MasteryState := ⟨0, clamp aspiration 0 1⟩

def MasteryState.default : MasteryState := .new (8 / 10)

def MasteryState.urgency (mastery : MasteryState) : ℚ :=
  max (mastery.aspiration - mastery.competence) 0

/-! ## The registry -/

structure InteroceptiveSignals where
  thermalLoad : ℚ
  computePressure : ℚ
  memoryPressure : ℚ
  powerBudget : ℚ
  financialBudget : ℚ
  attentionDemand : ℚ
  deriving DecidableEq, Repr

structure DriveRegistryConfig where
  viabilityStressThreshold : ℚ
  integrityStressThreshold : ℚ
  serviceAttentionWeight : ℚ
  serviceObjectiveWeight : ℚ
  deriving DecidableEq, Repr

def DriveRegistryConfig.default : DriveRegistryConfig := ⟨6 / 10, 7 / 10, 6 / 10, 4 / 10⟩

structure DriveRegistry where
  signals : InteroceptiveSignals
  curiosity : CuriosityState
  mastery : MasteryState
  pendingObjectives : Nat
  activeGoalCount : Nat
  config : DriveRegistryConfig
  deriving DecidableEq, Repr

def DriveRegistry.new (signals : InteroceptiveSignals) : DriveRegistry :=
  ⟨signals, .default, .default, 0, 0, .default⟩

def DriveRegistry.updateSignals (registry : DriveRegistry) (signals : InteroceptiveSignals) :
    DriveRegistry :=
  { registry with signals := signals }

/-- The mean of the four deficits, before it is clamped. -/
def viabilityUrgency (signals : InteroceptiveSignals) : ℚ :=
  let thermalDeficit := signals.thermalLoad
  let memoryDeficit := signals.memoryPressure
  let powerDeficit := max (1 - signals.powerBudget) 0
  let financialDeficit := max (1 - signals.financialBudget) 0
  (thermalDeficit + memoryDeficit + powerDeficit + financialDeficit) / 4

def integrityUrgency (signals : InteroceptiveSignals) : ℚ :=
  clamp (signals.computePressure * (1 / 2) + viabilityUrgency signals * (1 / 2)) 0 1

def serviceUrgency (registry : DriveRegistry) : ℚ :=
  let attentionComponent :=
    registry.signals.attentionDemand * registry.config.serviceAttentionWeight
  let objectiveComponent :=
    if registry.pendingObjectives > 0 then
      min ((registry.pendingObjectives : ℚ) / 5) 1 * registry.config.serviceObjectiveWeight
    else 0
  clamp (attentionComponent + objectiveComponent) 0 1

def epistemicUrgency (registry : DriveRegistry) : ℚ :=
  clamp (registry.curiosity.urgency * (6 / 10) + registry.mastery.urgency * (4 / 10)) 0 1

def achievementUrgency (registry : DriveRegistry) : ℚ :=
  if registry.activeGoalCount > 0 then min ((registry.activeGoalCount : ℚ) / 10) (8 / 10) else 0

def DriveRegistry.snapshot (registry : DriveRegistry) : DriveStateSnapshot where
  urgencies := ![clamp (viabilityUrgency registry.signals) 0 1,
    integrityUrgency registry.signals * (6 / 10), serviceUrgency registry,
    epistemicUrgency registry, achievementUrgency registry, 1 / 10]

/-! ## Candidate actions -/

structure DriveActionCandidate where
  userFacing : Bool
  isOperatorObjective : Bool
  isExploratory : Bool
  isCompletion : Bool
  novelty : ℚ
  urgency : ℚ
  deriving DecidableEq, Repr

/-- The method takes the registry, of which it reads nothing. -/
def DriveRegistry.valueContributions (_registry : DriveRegistry)
    (candidate : DriveActionCandidate) : PerTier :=
  let service := (if candidate.userFacing then 5 / 10 else 0) +
    (if candidate.isOperatorObjective then 3 / 10 else 0)
  let epistemic := (if candidate.isExploratory then 4 / 10 else 0) +
    candidate.novelty * (3 / 10)
  ![if candidate.urgency > 1 / 2 then 3 / 10 else 1 / 10, 1 / 10, min service 1, min epistemic 1,
    if candidate.isCompletion then 7 / 10 else 0,
    if candidate.userFacing && candidate.isCompletion then 3 / 10 else 0]

end MotivationDrives
