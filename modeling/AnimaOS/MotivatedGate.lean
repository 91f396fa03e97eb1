import AnimaOS.PriorityLattice
import Mathlib.Algebra.BigOperators.Fin

/-!
# The motivated gate

The threshold gate, the affect and the drive integrator around it, and the
decision that composes them. Numbers are exact rationals; the text of a number
with three decimals is the parameter `fixed3`.
-/

namespace MotivatedGate

open MotivationDrives

/-! ## Affect -/

structure AffectState where
  valence : ℚ
  arousal : ℚ
  deriving DecidableEq, Repr

namespace AffectState

/-- Distress counts double. -/
def fromDrives (snapshot : DriveStateSnapshot) : AffectState :=
  let u := snapshot.urgencies
  let distress := (u 0 + u 1) / 2
  let satisfaction := ((1 - u 2) + (1 - u 3) + (1 - u 4) + (1 - u 5)) / 4
  ⟨clamp (satisfaction - 2 * distress) (-1) 1, (∑ i, u i) / 6⟩

def gateThresholdNudge (affect : AffectState) : ℚ :=
  clamp (1 + -affect.valence * (1 / 10)) (9 / 10) (11 / 10)

end AffectState

/-! ## The integrator -/

structure DriveContribution where
  tier : DriveTier
  tierName : String
  urgency : ℚ
  rawContribution : ℚ
  effectiveWeight : ℚ
  finalContribution : ℚ
  deriving DecidableEq, Repr

structure DriveAugmentedValue where
  baseValue : ℚ
  driveDelta : ℚ
  totalValue : ℚ
  decomposition : List DriveContribution
  latticeSuppressionActive : Bool
  deriving DecidableEq, Repr

structure DriveIntegratorConfig where
  enabled : Bool
  maxDriveDelta : ℚ
  tierWeightCap : ℚ
  driveScale : ℚ
  deriving DecidableEq, Repr

def DriveIntegratorConfig.default : DriveIntegratorConfig := ⟨true, 25 / 100, 1, 4 / 10⟩

/-- From the lowest to the highest. -/
def tiers : List DriveTier :=
  [.viability, .integrity, .service, .epistemic, .achievement, .selfActualisation]

def contribution (config : DriveIntegratorConfig) (snapshot : DriveStateSnapshot)
    (weights : DriveWeights) (rawContributions : PerTier) (tier : DriveTier) :
    DriveContribution :=
  let urgency := snapshot.urgency tier
  let raw := rawContributions tier.index
  let effWeight := min (weights.weight tier) config.tierWeightCap
  ⟨tier, tier.name, urgency, raw, effWeight, raw * urgency * effWeight * config.driveScale⟩

def augment (config : DriveIntegratorConfig) (baseValue : ℚ) (snapshot : DriveStateSnapshot)
    (weights : DriveWeights) (rawContributions : PerTier) : DriveAugmentedValue :=
  if config.enabled then
    let decomposition := tiers.map (contribution config snapshot weights rawContributions)
    let rawDelta := (decomposition.map DriveContribution.finalContribution).sum
    let driveDelta := min rawDelta config.maxDriveDelta
    ⟨baseValue, driveDelta, clamp (baseValue + driveDelta) 0 1, decomposition,
      decomposition.any fun c => c.effectiveWeight < 9 / 10⟩
  else ⟨baseValue, 0, clamp baseValue 0 1, [], false⟩

/-! ## The threshold gate -/

inductive SemanticClass where
  | userQuery
  | systemEvent
  | backgroundTask
  | operatorCommand
  deriving DecidableEq, Repr

structure EventFeatures where
  urgency : ℚ
  novelty : ℚ
  semanticClass : SemanticClass
  userFacing : Bool
  deriving DecidableEq, Repr

structure HomeostaticSignals where
  thermalLoad : ℚ
  computePressure : ℚ
  memoryPressure : ℚ
  powerBudget : ℚ
  financialBudget : ℚ
  attentionDemand : ℚ
  deriving DecidableEq, Repr

inductive CostClass where
  | cheapLocal
  | midTier
  | frontier
  deriving DecidableEq, Repr

def CostClass.asStr : CostClass → String
  | .cheapLocal => "CheapLocal"
  | .midTier => "MidTier"
  | .frontier => "Frontier"

inductive GateOverride where
  | none
  | userForced (reason : String)
  | operatorForced (reason : String)
  deriving DecidableEq, Repr

structure GateDecision where
  eventId : String
  invoke : Bool
  costClass : Option CostClass
  valueScore : ℚ
  thresholdApplied : ℚ
  overrideActive : Bool
  reasoning : String
  deriving DecidableEq, Repr

structure GateConfig where
  urgencyWeight : ℚ
  noveltyWeight : ℚ
  userFacingBonus : ℚ
  operatorCommandBonus : ℚ
  baseThreshold : ℚ
  thermalPenalty : ℚ
  memoryPenalty : ℚ
  financialPenalty : ℚ
  attentionBoost : ℚ
  cheapLocalCeiling : ℚ
  frontierFloor : ℚ
  deriving DecidableEq, Repr

def GateConfig.default : GateConfig where
  urgencyWeight := 65 / 100
  noveltyWeight := 35 / 100
  userFacingBonus := 15 / 100
  operatorCommandBonus := 20 / 100
  baseThreshold := 40 / 100
  thermalPenalty := 30 / 100
  memoryPenalty := 20 / 100
  financialPenalty := 15 / 100
  attentionBoost := 20 / 100
  cheapLocalCeiling := 60 / 100
  frontierFloor := 85 / 100

namespace GateConfig

variable (config : GateConfig)

def valueScore (event : EventFeatures) : ℚ :=
  let base := config.urgencyWeight * clamp event.urgency 0 1 +
    config.noveltyWeight * clamp event.novelty 0 1
  let userBonus := if event.userFacing then config.userFacingBonus else 0
  let classBonus :=
    match event.semanticClass with
    | .operatorCommand => config.operatorCommandBonus
    | _ => 0
  clamp (base + userBonus + classBonus) 0 1

/-- The threshold before it is clamped. -/
def rawThreshold (h : HomeostaticSignals) : ℚ :=
  let financialUsed := clamp (1 - h.financialBudget) 0 1
  config.baseThreshold + config.thermalPenalty * clamp h.thermalLoad 0 1 +
    config.memoryPenalty * clamp h.memoryPressure 0 1 + config.financialPenalty * financialUsed -
    config.attentionBoost * clamp h.attentionDemand 0 1

def adaptiveThreshold (h : HomeostaticSignals) : ℚ :=
  clamp (config.rawThreshold h) (5 / 100) (99 / 100)

def costClassFor (score : ℚ) : CostClass :=
  if score ≥ config.frontierFloor then .frontier
  else if score < config.cheapLocalCeiling then .cheapLocal
  else .midTier

end GateConfig

section Deciding

variable (fixed3 : ℚ → String)

def classLabel (costClass : Option CostClass) : String :=
  match costClass with
  | some c => c.asStr
  | none => "none"

/-- `ThresholdGate::decide`; the gate is its configuration. -/
def GateConfig.decide (config : GateConfig) (eventId : String) (event : EventFeatures)
    (homeostatic : HomeostaticSignals) (overrideHint : GateOverride) : GateDecision :=
  let valueScore := config.valueScore event
  let threshold := config.adaptiveThreshold homeostatic
  match overrideHint with
  | .none =>
    let invoke : Bool := valueScore ≥ threshold
    let costClass := if invoke then some (config.costClassFor valueScore) else none
    let reasoning :=
      if invoke then
        "value_score=" ++ fixed3 valueScore ++ " >= threshold=" ++ fixed3 threshold ++
          " → invoke at " ++ classLabel costClass
      else
        "value_score=" ++ fixed3 valueScore ++ " < threshold=" ++ fixed3 threshold ++
          " → blocked"
    ⟨eventId, invoke, costClass, valueScore, threshold, false, reasoning⟩
  | .userForced reason =>
    ⟨eventId, true, some (config.costClassFor valueScore), valueScore, threshold, true,
      "user-forced override (reason: " ++ reason ++ "); value_score=" ++ fixed3 valueScore ++
        ", threshold=" ++ fixed3 threshold⟩
  | .operatorForced reason =>
    ⟨eventId, true, some .frontier, valueScore, threshold, true,
      "operator-forced override (reason: " ++ reason ++ "); value_score=" ++
        fixed3 valueScore ++ ", threshold=" ++ fixed3 threshold ++ ", cost_class=Frontier"⟩

/-! ## The motivated gate -/

def signalsForRegistry (h : HomeostaticSignals) : InteroceptiveSignals where
  thermalLoad := h.thermalLoad
  computePressure := h.computePressure
  memoryPressure := h.memoryPressure
  powerBudget := h.powerBudget
  financialBudget := h.financialBudget
  attentionDemand := h.attentionDemand

def candidateFromEvent (event : EventFeatures) : DriveActionCandidate where
  userFacing := event.userFacing
  isOperatorObjective := event.semanticClass = .operatorCommand
  isExploratory := event.semanticClass = .backgroundTask || event.novelty ≥ 6 / 10
  isCompletion := event.semanticClass = .userQuery
  novelty := clamp event.novelty 0 1
  urgency := clamp event.urgency 0 1

structure Gate where
  gate : GateConfig
  registry : DriveRegistry
  lattice : LatticeConfig
  integrator : DriveIntegratorConfig
  deriving DecidableEq, Repr

namespace Gate

def updateSignals (g : Gate) (h : HomeostaticSignals) : Gate :=
  { g with registry := g.registry.updateSignals (signalsForRegistry h) }

/-- The value that the decision tests, with its decomposition. -/
def augmented (g : Gate) (event : EventFeatures) : DriveAugmentedValue :=
  let snapshot := g.registry.snapshot
  augment g.integrator (g.gate.valueScore event) snapshot (computeWeights g.lattice snapshot)
    (g.registry.valueContributions (candidateFromEvent event))

def affect (g : Gate) : AffectState := .fromDrives g.registry.snapshot

/-- The adaptive threshold times the affect nudge, before the product is clamped. -/
def nudgedThreshold (g : Gate) (homeostatic : HomeostaticSignals) : ℚ :=
  g.gate.adaptiveThreshold homeostatic * g.affect.gateThresholdNudge

def threshold (g : Gate) (homeostatic : HomeostaticSignals) : ℚ :=
  clamp (g.nudgedThreshold homeostatic) (5 / 100) (99 / 100)

/-- What the reasoning of an unforced decision says before its outcome. -/
def account (g : Gate) (event : EventFeatures) : String :=
  let a := g.augmented event
  "motivated: base=" ++ fixed3 a.baseValue ++ " +drive Δ=" ++ fixed3 a.driveDelta ++
    " → total=" ++ fixed3 a.totalValue

def decideMotivated (g : Gate) (eventId : String) (event : EventFeatures)
    (homeostatic : HomeostaticSignals) (overrideHint : GateOverride) :
    GateDecision × DriveAugmentedValue × AffectState :=
  let a := g.augmented event
  let totalValue := a.totalValue
  let threshold := g.threshold homeostatic
  let nudge := g.affect.gateThresholdNudge
  let decision : GateDecision :=
    match overrideHint with
    | .none =>
      let invoke : Bool := totalValue ≥ threshold
      let costClass := if invoke then some (g.gate.costClassFor totalValue) else none
      let reasoning :=
        if invoke then
          g.account fixed3 event ++ " >= threshold=" ++ fixed3 threshold ++ " (nudge×" ++
            fixed3 nudge ++ ") → invoke at " ++ classLabel costClass
        else
          g.account fixed3 event ++ " < threshold=" ++ fixed3 threshold ++ " (nudge×" ++
            fixed3 nudge ++ ") → blocked"
      ⟨eventId, invoke, costClass, totalValue, threshold, false, reasoning⟩
    | .userForced reason =>
      ⟨eventId, true, some (g.gate.costClassFor totalValue), totalValue, threshold, true,
        "user-forced override (reason: " ++ reason ++ "); motivated total=" ++
          fixed3 totalValue ++ " (base=" ++ fixed3 a.baseValue ++ ", drive Δ=" ++
          fixed3 a.driveDelta ++ "), threshold=" ++ fixed3 threshold⟩
    | .operatorForced reason =>
      ⟨eventId, true, some .frontier, totalValue, threshold, true,
        "operator-forced override (reason: " ++ reason ++ "); motivated total=" ++
          fixed3 totalValue ++ " (base=" ++ fixed3 a.baseValue ++ ", drive Δ=" ++
          fixed3 a.driveDelta ++ "), threshold=" ++ fixed3 threshold ++
          ", cost_class=Frontier"⟩
  (decision, a, g.affect)

end Gate

end Deciding

/-- The gate with the default lattice, integrator and registry configuration, in a given internal
drive state. -/
def withState (curiosity : CuriosityState) (mastery : MasteryState)
    (pendingObjectives activeGoalCount : Nat) (signals : HomeostaticSignals) : Gate where
  gate := .default
  registry :=
    { DriveRegistry.new (signalsForRegistry signals) with
      curiosity := curiosity
      mastery := mastery
      pendingObjectives := pendingObjectives
      activeGoalCount := activeGoalCount }
  lattice := .default
  integrator := .default

end MotivatedGate
