import AnimaOS.MotivatedGate
import Mathlib.Tactic.MkIffOfInductiveProp

/-!
# Stress and the motivated gate

The threshold rises with stress, but so do the urgencies of the two lowest
drives, and what an action offers them is added to its value. How far the one
outweighs the other.
-/

namespace MotivatedGate

open MotivationDrives CarriedProduct

@[mk_iff]
structure InUnit (h : HomeostaticSignals) : Prop where
  thermal : 0 ≤ h.thermalLoad ∧ h.thermalLoad ≤ 1
  compute : 0 ≤ h.computePressure ∧ h.computePressure ≤ 1
  memory : 0 ≤ h.memoryPressure ∧ h.memoryPressure ≤ 1
  power : 0 ≤ h.powerBudget ∧ h.powerBudget ≤ 1
  financial : 0 ≤ h.financialBudget ∧ h.financialBudget ≤ 1
  attention : 0 ≤ h.attentionDemand ∧ h.attentionDemand ≤ 1

/-- The second snapshot is at least as stressed as the first, with the same attention. -/
@[mk_iff]
structure Stressed (h h' : HomeostaticSignals) : Prop where
  unit : InUnit h
  unit' : InUnit h'
  thermal : h.thermalLoad ≤ h'.thermalLoad
  compute : h.computePressure ≤ h'.computePressure
  memory : h.memoryPressure ≤ h'.memoryPressure
  power : h'.powerBudget ≤ h.powerBudget
  financial : h'.financialBudget ≤ h.financialBudget
  attention : h'.attentionDemand = h.attentionDemand

instance (h : HomeostaticSignals) : Decidable (InUnit h) := decidable_of_iff' _ (inUnit_iff h)

instance (h h' : HomeostaticSignals) : Decidable (Stressed h h') :=
  decidable_of_iff' _ (stressed_iff h h')

section

variable (fixed3 : ℚ → String)

/-- The signals are read first, then the event is decided without an override. -/
def blocks (g : Gate) (eventId : String) (event : EventFeatures) (h : HomeostaticSignals) : Prop :=
  ((g.updateSignals h).decideMotivated fixed3 eventId event h .none).1.invoke = false

def thresholdBlocks (config : GateConfig) (eventId : String) (event : EventFeatures)
    (h : HomeostaticSignals) : Prop :=
  (config.decide fixed3 eventId event h .none).invoke = false

theorem blocks_iff (g : Gate) (eventId : String) (event : EventFeatures) (h : HomeostaticSignals) :
    blocks fixed3 g eventId event h ↔
      ((g.updateSignals h).augmented event).totalValue < (g.updateSignals h).threshold h := by
  simp [blocks, Gate.decideMotivated]

theorem thresholdBlocks_iff (config : GateConfig) (eventId : String) (event : EventFeatures)
    (h : HomeostaticSignals) :
    thresholdBlocks fixed3 config eventId event h ↔
      config.valueScore event < config.adaptiveThreshold h := by
  simp [thresholdBlocks, GateConfig.decide]

end

/-! ## Urgencies under stress -/

section Urgencies

variable {h h' : HomeostaticSignals}

/-- The viability urgency of snapshots inside the unit interval. -/
def viability (h : HomeostaticSignals) : ℚ :=
  (h.thermalLoad + h.memoryPressure + (1 - h.powerBudget) + (1 - h.financialBudget)) / 4

/-- The integrity urgency before it is scaled. -/
def integrity (h : HomeostaticSignals) : ℚ := h.computePressure / 2 + viability h / 2

theorem viabilityUrgency_eq (unit : InUnit h) :
    viabilityUrgency (signalsForRegistry h) = viability h := by
  have power : 0 ≤ 1 - h.powerBudget := sub_nonneg.mpr unit.power.2
  have financial : 0 ≤ 1 - h.financialBudget := sub_nonneg.mpr unit.financial.2
  simp only [viabilityUrgency, signalsForRegistry, viability, max_eq_left power,
    max_eq_left financial]

theorem viability_bounds (unit : InUnit h) : 0 ≤ viability h ∧ viability h ≤ 1 := by
  have := unit.thermal
  have := unit.memory
  have := unit.power
  have := unit.financial
  constructor <;> rw [viability] <;> linarith

theorem integrityUrgency_eq (unit : InUnit h) :
    integrityUrgency (signalsForRegistry h) = integrity h := by
  have bounds := viability_bounds unit
  have := unit.compute
  have same : (signalsForRegistry h).computePressure = h.computePressure := rfl
  rw [integrityUrgency, viabilityUrgency_eq unit, same, clamp_eq_self]
  · rw [integrity]
    ring
  · linarith
  · linarith

theorem viability_rises (stressed : Stressed h h') : viability h ≤ viability h' := by
  have := stressed.thermal
  have := stressed.memory
  have := stressed.power
  have := stressed.financial
  rw [viability, viability]
  linarith

theorem integrity_rises (stressed : Stressed h h') : integrity h ≤ integrity h' := by
  have := viability_rises stressed
  have := stressed.compute
  rw [integrity, integrity]
  linarith

theorem integrity_apart (h h' : HomeostaticSignals) : integrity h' - integrity h =
    (h'.computePressure - h.computePressure) / 2 + (viability h' - viability h) / 2 := by
  rw [integrity, integrity]
  ring

end Urgencies

/-! ## The drive value under stress -/

section Drives

variable {curiosity : CuriosityState} {mastery : MasteryState} {pending goals : Nat}
  {seed h h' : HomeostaticSignals} {event : EventFeatures}

/-- The urgencies that a gate with the default configurations decides by. -/
def urgencies (curiosity : CuriosityState) (mastery : MasteryState) (pending goals : Nat)
    (seed h : HomeostaticSignals) : DriveStateSnapshot :=
  ((withState curiosity mastery pending goals seed).updateSignals h).registry.snapshot

theorem urgencies_low (unit : InUnit h) :
    (urgencies curiosity mastery pending goals seed h).urgencies 0 = viability h ∧
      (urgencies curiosity mastery pending goals seed h).urgencies 1 = integrity h * (6 / 10) := by
  have bounds := viability_bounds unit
  constructor
  · change clamp (viabilityUrgency (signalsForRegistry h)) 0 1 = viability h
    rw [viabilityUrgency_eq unit, clamp_eq_self bounds.1 bounds.2]
  · change integrityUrgency (signalsForRegistry h) * (6 / 10) = integrity h * (6 / 10)
    rw [integrityUrgency_eq unit]

/-- The higher drives see no signal but the attention. -/
theorem urgencies_high (stressed : Stressed h h') {i : Fin TIER_COUNT} (high : 2 ≤ i) :
    (urgencies curiosity mastery pending goals seed h').urgencies i =
      (urgencies curiosity mastery pending goals seed h).urgencies i := by
  have service : ∀ h₁ h₂ : HomeostaticSignals, h₁.attentionDemand = h₂.attentionDemand →
      (urgencies curiosity mastery pending goals seed h₁).urgencies 2 =
        (urgencies curiosity mastery pending goals seed h₂).urgencies 2 := by
    intro h₁ h₂ same
    change serviceUrgency _ = serviceUrgency _
    simp only [serviceUrgency, Gate.updateSignals, DriveRegistry.updateSignals,
      signalsForRegistry, same]
    rfl
  match i with
  | 0 => exact absurd high (by decide)
  | 1 => exact absurd high (by decide)
  | 2 => exact service h' h stressed.attention
  | 3 => rfl
  | 4 => rfl
  | 5 => rfl

theorem urgencies_nonneg (unit : InUnit h) (i : Fin TIER_COUNT) :
    0 ≤ (urgencies curiosity mastery pending goals seed h).urgencies i := by
  have bounds := viability_bounds unit
  have low := @urgencies_low curiosity mastery pending goals seed h unit
  match i with
  | 0 =>
    rw [low.1]
    exact bounds.1
  | 1 =>
    rw [low.2, integrity]
    have := unit.compute
    linarith
  | 2 => exact low_le_clamp _ 0 1
  | 3 => exact low_le_clamp _ 0 1
  | 4 =>
    change 0 ≤ achievementUrgency _
    rw [achievementUrgency]
    split
    · exact le_min (div_nonneg (Nat.cast_nonneg _) (by norm_num)) (by norm_num)
    · exact le_rfl
  | 5 =>
    change (0 : ℚ) ≤ 1 / 10
    norm_num

theorem urgencies_rise (stressed : Stressed h h') (i : Fin TIER_COUNT) :
    (urgencies curiosity mastery pending goals seed h).urgencies i ≤
      (urgencies curiosity mastery pending goals seed h').urgencies i := by
  have low := @urgencies_low curiosity mastery pending goals seed h stressed.unit
  have low' := @urgencies_low curiosity mastery pending goals seed h' stressed.unit'
  by_cases high : 2 ≤ i
  · exact (urgencies_high stressed high).ge
  · have lowest : i = 0 ∨ i = 1 := by
      revert i
      decide
    rcases lowest with rfl | rfl
    · rw [low.1, low'.1]
      exact viability_rises stressed
    · rw [low.2, low'.2]
      exact mul_le_mul_of_nonneg_right (integrity_rises stressed) (by norm_num)

/-! ## What the drives add to the value -/

/-- The sum of the six contributions before it is cut at the maximal delta. -/
def offer (snapshot : DriveStateSnapshot) (raw : PerTier) : ℚ :=
  ((tiers.map (contribution .default snapshot (computeWeights .default snapshot) raw)).map
    DriveContribution.finalContribution).sum

theorem default_suppressing : Suppressing LatticeConfig.default :=
  ⟨by norm_num [LatticeConfig.default], by norm_num [LatticeConfig.default],
    by norm_num [LatticeConfig.default]⟩

theorem weights_bounds (snapshot : DriveStateSnapshot) (i : Fin TIER_COUNT) :
    0 ≤ (computeWeights .default snapshot).weights i ∧
      (computeWeights .default snapshot).weights i ≤ 1 := by
  rw [computeWeights_eq]
  have floor : LatticeConfig.default.minWeight ≤ floored LatticeConfig.default.minWeight
      (fun j => suppressionOf .default (snapshot.urgencies j)) i := floored_ge _ _ i
  exact ⟨default_suppressing.low.trans floor,
    floored_le_one (shrinking default_suppressing snapshot) default_suppressing.high i⟩

theorem weights_fall {u v : DriveStateSnapshot} (le : ∀ i, u.urgencies i ≤ v.urgencies i)
    (i : Fin TIER_COUNT) :
    (computeWeights .default v).weights i ≤ (computeWeights .default u).weights i := by
  rw [computeWeights_eq, computeWeights_eq]
  have nonneg : ∀ j, 0 ≤ suppressionOf .default (v.urgencies j) :=
    fun j => (shrinking default_suppressing v j).1
  exact floored_mono nonneg (fun j => suppressionOf_falls default_suppressing (le j)) _ i

theorem offer_eq (snapshot : DriveStateSnapshot) (raw : PerTier) :
    offer snapshot raw = ∑ i, raw i * snapshot.urgencies i *
      (computeWeights .default snapshot).weights i * (4 / 10) := by
  have uncut : ∀ i, min ((computeWeights .default snapshot).weights i) 1 =
      (computeWeights .default snapshot).weights i :=
    fun i => min_eq_left (weights_bounds snapshot i).2
  simp only [offer, tiers, contribution, List.map_cons, List.map_nil, List.sum_cons, List.sum_nil,
    DriveIntegratorConfig.default, DriveWeights.weight, DriveStateSnapshot.urgency,
    DriveTier.index, uncut, Fin.sum_univ_six]
  ring

/-- A tier whose urgency rises adds at most its raw offer times the rise. -/
theorem tier_rises {u v : DriveStateSnapshot} {raw : PerTier} (nonneg : ∀ i, 0 ≤ raw i)
    (low : ∀ i, 0 ≤ u.urgencies i) (le : ∀ i, u.urgencies i ≤ v.urgencies i)
    (i : Fin TIER_COUNT) :
    raw i * v.urgencies i * (computeWeights .default v).weights i * (4 / 10) ≤
      raw i * u.urgencies i * (computeWeights .default u).weights i * (4 / 10) +
        raw i * (v.urgencies i - u.urgencies i) * (4 / 10) := by
  obtain ⟨-, whole⟩ := weights_bounds u i
  have fallen := weights_fall le i
  have weighed : v.urgencies i * (computeWeights .default v).weights i ≤
      v.urgencies i * (computeWeights .default u).weights i :=
    mul_le_mul_of_nonneg_left fallen ((low i).trans (le i))
  have rise : (v.urgencies i - u.urgencies i) * (computeWeights .default u).weights i ≤
      v.urgencies i - u.urgencies i :=
    mul_le_of_le_one_right (sub_nonneg.mpr (le i)) whole
  have tier : v.urgencies i * (computeWeights .default v).weights i ≤
      u.urgencies i * (computeWeights .default u).weights i +
        (v.urgencies i - u.urgencies i) := by linarith
  have scaled := mul_le_mul_of_nonneg_left tier (nonneg i)
  linarith

/-- The second tier has the factor of the first as its weight. -/
theorem second_weight (snapshot : DriveStateSnapshot) :
    (computeWeights .default snapshot).weights 1 =
      suppressionOf .default (snapshot.urgencies 0) := by
  have below : Finset.Iio (1 : Fin TIER_COUNT) = {0} := by decide
  have kept : LatticeConfig.default.minWeight ≤
      suppressionOf .default (snapshot.urgencies 0) := by
    rw [suppressionOf]
    split
    · exact le_max_right _ _
    · exact default_suppressing.high
  rw [computeWeights_eq, floored, carried, below, Finset.prod_singleton, max_eq_left kept]

theorem suppressionOf_hot {urgency : ℚ} (hot : 1 / 2 < urgency) (whole : urgency ≤ 1) :
    suppressionOf .default urgency = 1 - 16 / 10 * (urgency - 1 / 2) := by
  have range : headroom .default = 1 / 2 := by norm_num [headroom, LatticeConfig.default]
  have share : LatticeConfig.default.suppressionFactor *
      (urgency - LatticeConfig.default.suppressionThreshold) / headroom .default =
        16 / 10 * (urgency - 1 / 2) := by
    rw [range]
    simp only [LatticeConfig.default]
    ring
  have above : urgency > LatticeConfig.default.suppressionThreshold := hot
  have kept : LatticeConfig.default.minWeight ≤ 1 - 16 / 10 * (urgency - 1 / 2) := by
    simp only [LatticeConfig.default]
    linarith
  rw [suppressionOf, if_pos above, share, max_eq_left kept]

/-- What an event offers to every tier. -/
def offered (event : EventFeatures) : PerTier :=
  (DriveRegistry.new (signalsForRegistry ⟨0, 0, 0, 1, 1, 0⟩)).valueContributions
    (candidateFromEvent event)

theorem offered_bounds (event : EventFeatures) :
    (∀ i, 0 ≤ offered event i) ∧ offered event 0 ≤ 3 / 10 ∧ offered event 1 = 1 / 10 := by
  have novelty : 0 ≤ (candidateFromEvent event).novelty := low_le_clamp _ 0 1
  refine ⟨fun i => ?_, ?_, rfl⟩
  · match i with
    | 0 =>
      change (0 : ℚ) ≤ if (candidateFromEvent event).urgency > 1 / 2 then 3 / 10 else 1 / 10
      split <;> norm_num
    | 1 =>
      change (0 : ℚ) ≤ 1 / 10
      norm_num
    | 2 =>
      change (0 : ℚ) ≤ min ((if (candidateFromEvent event).userFacing then 5 / 10 else 0) +
        (if (candidateFromEvent event).isOperatorObjective then 3 / 10 else 0)) 1
      refine le_min ?_ zero_le_one
      split <;> split <;> norm_num
    | 3 =>
      change (0 : ℚ) ≤ min ((if (candidateFromEvent event).isExploratory then 4 / 10 else 0) +
        (candidateFromEvent event).novelty * (3 / 10)) 1
      refine le_min ?_ zero_le_one
      split <;> linarith
    | 4 =>
      change (0 : ℚ) ≤ if (candidateFromEvent event).isCompletion then 7 / 10 else 0
      split <;> norm_num
    | 5 =>
      change (0 : ℚ) ≤ if (candidateFromEvent event).userFacing &&
        (candidateFromEvent event).isCompletion then 3 / 10 else 0
      split <;> norm_num
  · change (if (candidateFromEvent event).urgency > 1 / 2 then (3 : ℚ) / 10 else 1 / 10) ≤ 3 / 10
    split <;> norm_num

/-- The most that the rise in stress adds to the value. -/
def added (h h' : HomeostaticSignals) : ℚ :=
  33 / 1000 * ((h'.thermalLoad - h.thermalLoad) + (h'.memoryPressure - h.memoryPressure) +
    (h.powerBudget - h'.powerBudget) + (h.financialBudget - h'.financialBudget)) +
  12 / 1000 * (h'.computePressure - h.computePressure)

theorem added_nonneg (stressed : Stressed h h') : 0 ≤ added h h' := by
  have := stressed.thermal
  have := stressed.compute
  have := stressed.memory
  have := stressed.power
  have := stressed.financial
  rw [added]
  linarith

/-- The offer rises with the viability and with what the second tier keeps of its urgency. -/
theorem offer_low (stressed : Stressed h h') :
    offer (urgencies curiosity mastery pending goals seed h') (offered event) ≤
      offer (urgencies curiosity mastery pending goals seed h) (offered event) +
        12 / 100 * (viability h' - viability h) +
        4 / 100 * (integrity h' * (6 / 10) * (computeWeights .default
            (urgencies curiosity mastery pending goals seed h')).weights 1 -
          integrity h * (6 / 10) * (computeWeights .default
            (urgencies curiosity mastery pending goals seed h)).weights 1) := by
  obtain ⟨nonneg, first, second⟩ := offered_bounds event
  have tier := tier_rises nonneg
    (@urgencies_nonneg curiosity mastery pending goals seed h stressed.unit)
    (urgencies_rise stressed)
  have low := @urgencies_low curiosity mastery pending goals seed h stressed.unit
  have low' := @urgencies_low curiosity mastery pending goals seed h' stressed.unit'
  have weighed : offered event 0 * (viability h' - viability h) ≤
      3 / 10 * (viability h' - viability h) :=
    mul_le_mul_of_nonneg_right first (sub_nonneg.mpr (viability_rises stressed))
  have zeroth := tier 0
  rw [low.1, low'.1] at zeroth
  have high : ∀ i : Fin TIER_COUNT, 2 ≤ i →
      offered event i * (urgencies curiosity mastery pending goals seed h').urgencies i *
          (computeWeights .default (urgencies curiosity mastery pending goals seed h')).weights i *
          (4 / 10) ≤
        offered event i * (urgencies curiosity mastery pending goals seed h).urgencies i *
          (computeWeights .default (urgencies curiosity mastery pending goals seed h)).weights i *
          (4 / 10) := by
    intro i above
    have same := tier i
    rw [urgencies_high stressed above, sub_self, mul_zero, zero_mul, add_zero] at same
    rw [urgencies_high stressed above]
    exact same
  have service := high 2 (by decide)
  have epistemic := high 3 (by decide)
  have achievement := high 4 (by decide)
  have actualisation := high 5 (by decide)
  rw [offer_eq, offer_eq, Fin.sum_univ_six, Fin.sum_univ_six, low.1, low.2, low'.1, low'.2, second]
  linarith

/-- What the second tier keeps of its urgency rises by at most the rise of the urgency. -/
theorem second_rises (stressed : Stressed h h') :
    integrity h' * (6 / 10) * (computeWeights .default
        (urgencies curiosity mastery pending goals seed h')).weights 1 ≤
      integrity h * (6 / 10) * (computeWeights .default
        (urgencies curiosity mastery pending goals seed h)).weights 1 +
        (integrity h' - integrity h) * (6 / 10) := by
  have tier := @tier_rises _ _ (fun _ => 1) (fun _ => zero_le_one)
    (@urgencies_nonneg curiosity mastery pending goals seed h stressed.unit)
    (urgencies_rise stressed) 1
  have low := @urgencies_low curiosity mastery pending goals seed h stressed.unit
  have low' := @urgencies_low curiosity mastery pending goals seed h' stressed.unit'
  rw [low.2, low'.2] at tier
  linarith

theorem offer_added (stressed : Stressed h h') :
    offer (urgencies curiosity mastery pending goals seed h') (offered event) ≤
      offer (urgencies curiosity mastery pending goals seed h) (offered event) + added h h' := by
  have low := @offer_low curiosity mastery pending goals seed h h' event stressed
  have second := @second_rises curiosity mastery pending goals seed h h' stressed
  have first' : viability h' - viability h = ((h'.thermalLoad - h.thermalLoad) +
      (h'.memoryPressure - h.memoryPressure) + (h.powerBudget - h'.powerBudget) +
      (h.financialBudget - h'.financialBudget)) / 4 := by
    rw [viability, viability]
    ring
  have second' := integrity_apart h h'
  rw [added]
  linarith

/-- What the rise in stress adds to the value once the first tier suppresses the second. -/
def addedHot (h h' : HomeostaticSignals) : ℚ :=
  12 / 100 * (viability h' - viability h) +
    12 / 1000 * (h'.computePressure - h.computePressure)

/-- The second tier loses more of its weight than its urgency gains on the viability. -/
theorem second_hot (stressed : Stressed h h') (hot : 63 / 100 ≤ viability h) :
    integrity h' * (6 / 10) * (1 - 16 / 10 * (viability h' - 1 / 2)) ≤
      integrity h * (6 / 10) * (1 - 16 / 10 * (viability h - 1 / 2)) +
        3 / 10 * (h'.computePressure - h.computePressure) := by
  have risen := sub_nonneg.mpr (viability_rises stressed)
  have busier := sub_nonneg.mpr stressed.compute
  have idle := stressed.unit.compute.1
  have weight : 1 - 16 / 10 * (viability h' - 1 / 2) ≤ 792 / 1000 := by linarith
  have gained : (viability h' - viability h) * (1 - 16 / 10 * (viability h' - 1 / 2)) ≤
      (viability h' - viability h) * (792 / 1000) := mul_le_mul_of_nonneg_left weight risen
  have busy : (h'.computePressure - h.computePressure) *
      (1 - 16 / 10 * (viability h' - 1 / 2)) ≤
        (h'.computePressure - h.computePressure) * (792 / 1000) :=
    mul_le_mul_of_nonneg_left weight busier
  have lost : (viability h' - viability h) * (63 / 200) ≤
      (viability h' - viability h) * integrity h := by
    refine mul_le_mul_of_nonneg_left ?_ risen
    rw [integrity]
    linarith
  rw [integrity] at lost ⊢
  rw [integrity]
  linarith

theorem offer_addedHot (stressed : Stressed h h') (hot : 63 / 100 ≤ viability h) :
    offer (urgencies curiosity mastery pending goals seed h') (offered event) ≤
      offer (urgencies curiosity mastery pending goals seed h) (offered event) +
        addedHot h h' := by
  have low := @offer_low curiosity mastery pending goals seed h h' event stressed
  have second := second_hot stressed hot
  have risen := viability_rises stressed
  rw [second_weight, second_weight, (urgencies_low stressed.unit).1,
    (urgencies_low stressed.unit').1,
    suppressionOf_hot (by linarith) (viability_bounds stressed.unit).2,
    suppressionOf_hot (by linarith) (viability_bounds stressed.unit').2] at low
  rw [addedHot]
  linarith

theorem totalValue_eq :
    (((withState curiosity mastery pending goals seed).updateSignals h).augmented
        event).totalValue =
      clamp (GateConfig.default.valueScore event +
        min (offer (urgencies curiosity mastery pending goals seed h) (offered event))
          (25 / 100)) 0 1 := rfl

/-- The cuts of the delta and of the value let no more through than is added to the offer. -/
theorem totalValue_rises {d : ℚ} (nonneg : 0 ≤ d)
    (offers : offer (urgencies curiosity mastery pending goals seed h') (offered event) ≤
      offer (urgencies curiosity mastery pending goals seed h) (offered event) + d) :
    (((withState curiosity mastery pending goals seed).updateSignals h').augmented
        event).totalValue ≤
      (((withState curiosity mastery pending goals seed).updateSignals h).augmented
        event).totalValue + d := by
  have cut : ∀ {x y : ℚ} (c : ℚ), x ≤ y + d → min x c ≤ min y c + d := by
    intro x y c le
    rw [← min_add_add_right]
    exact min_le_min le (le_add_of_nonneg_right nonneg)
  rw [totalValue_eq, totalValue_eq, clamp, clamp, ← max_add_add_right]
  refine max_le_max (le_add_of_nonneg_right nonneg) (cut 1 ?_)
  rw [add_assoc]
  exact add_le_add le_rfl (cut (25 / 100) offers)

end Drives

/-! ## The threshold under stress -/

section Threshold

variable {curiosity : CuriosityState} {mastery : MasteryState} {pending goals : Nat}
  {seed h h' : HomeostaticSignals} {event : EventFeatures}

theorem rawThreshold_eq (unit : InUnit h) :
    GateConfig.default.rawThreshold h = 40 / 100 + 30 / 100 * h.thermalLoad +
      20 / 100 * h.memoryPressure + 15 / 100 * (1 - h.financialBudget) -
      20 / 100 * h.attentionDemand := by
  have used : 0 ≤ 1 - h.financialBudget ∧ 1 - h.financialBudget ≤ 1 :=
    ⟨sub_nonneg.mpr unit.financial.2, sub_le_self 1 unit.financial.1⟩
  simp only [GateConfig.rawThreshold, GateConfig.default,
    clamp_eq_self unit.thermal.1 unit.thermal.2, clamp_eq_self unit.memory.1 unit.memory.2,
    clamp_eq_self unit.attention.1 unit.attention.2, clamp_eq_self used.1 used.2]

/-- What the rise in stress adds to the threshold before the nudge. -/
def demanded (h h' : HomeostaticSignals) : ℚ :=
  30 / 100 * (h'.thermalLoad - h.thermalLoad) + 20 / 100 * (h'.memoryPressure - h.memoryPressure) +
    15 / 100 * (h.financialBudget - h'.financialBudget)

theorem demanded_nonneg (stressed : Stressed h h') : 0 ≤ demanded h h' := by
  have := stressed.thermal
  have := stressed.memory
  have := stressed.financial
  rw [demanded]
  linarith

theorem rawThreshold_rises (stressed : Stressed h h') :
    GateConfig.default.rawThreshold h' =
      GateConfig.default.rawThreshold h + demanded h h' := by
  rw [rawThreshold_eq stressed.unit, rawThreshold_eq stressed.unit', stressed.attention, demanded]
  ring

theorem rawThreshold_low (unit : InUnit h) : 2 / 10 ≤ GateConfig.default.rawThreshold h := by
  have := unit.thermal
  have := unit.memory
  have := unit.financial
  have := unit.attention
  rw [rawThreshold_eq unit]
  linarith

theorem adaptiveThreshold_rises (stressed : Stressed h h') :
    GateConfig.default.adaptiveThreshold h ≤ GateConfig.default.adaptiveThreshold h' := by
  refine clamp_mono _ _ ?_
  rw [rawThreshold_rises stressed]
  exact le_add_of_nonneg_right (demanded_nonneg stressed)

theorem adaptiveThreshold_uncut (unit : InUnit h)
    (within : GateConfig.default.rawThreshold h ≤ 99 / 100) :
    GateConfig.default.adaptiveThreshold h = GateConfig.default.rawThreshold h :=
  clamp_eq_self ((by norm_num : (5 : ℚ) / 100 ≤ 2 / 10).trans (rawThreshold_low unit)) within

/-- The nudge of the affect that the drives give rise to. -/
def nudge (snapshot : DriveStateSnapshot) : ℚ :=
  (AffectState.fromDrives snapshot).gateThresholdNudge

theorem nudge_low (snapshot : DriveStateSnapshot) : 9 / 10 ≤ nudge snapshot :=
  low_le_clamp _ _ _

/-- What the affect cuts to the valence: satisfaction against twice the distress. -/
def balance (snapshot : DriveStateSnapshot) : ℚ :=
  ((1 - snapshot.urgencies 2) + (1 - snapshot.urgencies 3) + (1 - snapshot.urgencies 4) +
    (1 - snapshot.urgencies 5)) / 4 - 2 * ((snapshot.urgencies 0 + snapshot.urgencies 1) / 2)

theorem nudge_eq (snapshot : DriveStateSnapshot) :
    nudge snapshot = 1 - clamp (balance snapshot) (-1) 1 / 10 := by
  have low := low_le_clamp (balance snapshot) (-1) 1
  have high := clamp_le_high (by norm_num : (-1 : ℚ) ≤ 1) (balance snapshot)
  change clamp (1 + -clamp (balance snapshot) (-1) 1 * (1 / 10)) (9 / 10) (11 / 10) = _
  rw [clamp_eq_self (by linarith) (by linarith)]
  ring

theorem balance_falls (stressed : Stressed h h') :
    balance (urgencies curiosity mastery pending goals seed h') =
      balance (urgencies curiosity mastery pending goals seed h) -
        ((viability h' - viability h) + (integrity h' - integrity h) * (6 / 10)) := by
  have low := @urgencies_low curiosity mastery pending goals seed h stressed.unit
  have low' := @urgencies_low curiosity mastery pending goals seed h' stressed.unit'
  rw [balance, balance, low.1, low.2, low'.1, low'.2,
    urgencies_high stressed (by decide : (2 : Fin TIER_COUNT) ≤ 2),
    urgencies_high stressed (by decide : (2 : Fin TIER_COUNT) ≤ 3),
    urgencies_high stressed (by decide : (2 : Fin TIER_COUNT) ≤ 4),
    urgencies_high stressed (by decide : (2 : Fin TIER_COUNT) ≤ 5)]
  ring

/-- Distress lowers the valence, and a lower valence raises the threshold. -/
theorem nudge_rises (stressed : Stressed h h') :
    nudge (urgencies curiosity mastery pending goals seed h) ≤
      nudge (urgencies curiosity mastery pending goals seed h') := by
  have risen := viability_rises stressed
  have grown := integrity_rises stressed
  have valence : clamp (balance (urgencies curiosity mastery pending goals seed h')) (-1) 1 ≤
      clamp (balance (urgencies curiosity mastery pending goals seed h)) (-1) 1 := by
    refine clamp_mono _ _ ?_
    rw [balance_falls stressed]
    linarith
  rw [nudge_eq, nudge_eq]
  linarith

theorem balance_le_one (unit : InUnit h) :
    balance (urgencies curiosity mastery pending goals seed h) ≤ 1 := by
  have nonneg := @urgencies_nonneg curiosity mastery pending goals seed h unit
  have := nonneg 0
  have := nonneg 1
  have := nonneg 2
  have := nonneg 3
  have := nonneg 4
  have := nonneg 5
  rw [balance]
  linarith

/-- A nudge that does not raise the threshold follows the two lowest drives. -/
theorem nudge_gains (stressed : Stressed h h')
    (lowering : nudge (urgencies curiosity mastery pending goals seed h') ≤ 1) :
    nudge (urgencies curiosity mastery pending goals seed h) +
        ((viability h' - viability h) + (integrity h' - integrity h) * (6 / 10)) / 10 ≤
      nudge (urgencies curiosity mastery pending goals seed h') := by
  have risen := viability_rises stressed
  have grown := integrity_rises stressed
  have fallen := @balance_falls curiosity mastery pending goals seed h h' stressed
  have whole := @balance_le_one curiosity mastery pending goals seed h stressed.unit
  rw [nudge_eq] at lowering
  have content : 0 ≤ balance (urgencies curiosity mastery pending goals seed h') := by
    by_contra distressed
    have least : clamp (balance (urgencies curiosity mastery pending goals seed h')) (-1) 1 < 0 :=
      max_lt (by norm_num) (lt_of_le_of_lt (min_le_left _ _) (not_le.mp distressed))
    linarith
  rw [nudge_eq, nudge_eq, clamp_eq_self (by linarith) (by linarith),
    clamp_eq_self (by linarith) (by linarith), fallen]
  linarith

/-- The product of the adaptive threshold and the nudge is not cut at its ceiling. -/
def Uncut (g : Gate) (h : HomeostaticSignals) : Prop :=
  (g.updateSignals h).nudgedThreshold h ≤ 99 / 100

instance (g : Gate) (h : HomeostaticSignals) : Decidable (Uncut g h) :=
  inferInstanceAs (Decidable (_ ≤ _))

theorem threshold_demanded (stressed : Stressed h h')
    (uncut : Uncut (withState curiosity mastery pending goals seed) h')
    (ceiling : GateConfig.default.rawThreshold h' ≤ 99 / 100) :
    ((withState curiosity mastery pending goals seed).updateSignals h).threshold h +
        9 / 10 * demanded h h' ≤
      ((withState curiosity mastery pending goals seed).updateSignals h').threshold h' := by
  have grown := rawThreshold_rises stressed
  have demand := demanded_nonneg stressed
  have low := rawThreshold_low stressed.unit
  have nudged : ∀ s : HomeostaticSignals, InUnit s →
      GateConfig.default.rawThreshold s ≤ 99 / 100 →
      ((withState curiosity mastery pending goals seed).updateSignals s).nudgedThreshold s =
        GateConfig.default.rawThreshold s *
          nudge (urgencies curiosity mastery pending goals seed s) :=
    fun s unit within => congrArg (· * nudge _) (adaptiveThreshold_uncut unit within)
  have first := nudged h stressed.unit (by linarith)
  have second := nudged h' stressed.unit' ceiling
  have least := nudge_low (urgencies curiosity mastery pending goals seed h)
  have rises := @nudge_rises curiosity mastery pending goals seed h h' stressed
  have base : GateConfig.default.rawThreshold h *
        nudge (urgencies curiosity mastery pending goals seed h) ≤
      GateConfig.default.rawThreshold h *
        nudge (urgencies curiosity mastery pending goals seed h') :=
    mul_le_mul_of_nonneg_left rises (by linarith)
  have share : demanded h h' * (9 / 10) ≤
      demanded h h' * nudge (urgencies curiosity mastery pending goals seed h') :=
    mul_le_mul_of_nonneg_left (least.trans rises) demand
  have floor : 2 / 10 * (9 / 10) ≤ GateConfig.default.rawThreshold h *
      nudge (urgencies curiosity mastery pending goals seed h) :=
    mul_le_mul low least (by norm_num) (by linarith)
  have within := uncut
  rw [Uncut, second, grown, add_mul] at within
  rw [Gate.threshold, Gate.threshold, first, second, grown, add_mul,
    clamp_eq_self (by linarith) (by linarith), clamp_eq_self (by linarith) within]
  linarith

/-- With the adaptive threshold at its ceiling the nudge alone raises the threshold. -/
theorem threshold_nudged (stressed : Stressed h h')
    (uncut : Uncut (withState curiosity mastery pending goals seed) h')
    (ceiling : 99 / 100 ≤ GateConfig.default.rawThreshold h') :
    ((withState curiosity mastery pending goals seed).updateSignals h).threshold h +
        99 / 1000 * ((viability h' - viability h) + (integrity h' - integrity h) * (6 / 10)) +
        9 / 10 * (99 / 100 - GateConfig.default.adaptiveThreshold h) ≤
      ((withState curiosity mastery pending goals seed).updateSignals h').threshold h' := by
  have low := nudge_low (urgencies curiosity mastery pending goals seed h)
  have low' := nudge_low (urgencies curiosity mastery pending goals seed h')
  have adaptive : GateConfig.default.adaptiveThreshold h ≤ 99 / 100 :=
    clamp_le_high (by norm_num) _
  have least : 2 / 10 ≤ GateConfig.default.adaptiveThreshold h :=
    le_max_of_le_right (le_min (rawThreshold_low stressed.unit) (by norm_num))
  have cut : GateConfig.default.adaptiveThreshold h' = 99 / 100 := by
    rw [GateConfig.adaptiveThreshold, clamp, min_eq_right ceiling]
    norm_num
  have nudged : ∀ s : HomeostaticSignals,
      ((withState curiosity mastery pending goals seed).updateSignals s).nudgedThreshold s =
        GateConfig.default.adaptiveThreshold s *
          nudge (urgencies curiosity mastery pending goals seed s) := fun s => rfl
  have within := uncut
  rw [Uncut, nudged, cut] at within
  have gains := @nudge_gains curiosity mastery pending goals seed h h' stressed (by linarith)
  have spare : (99 / 100 - GateConfig.default.adaptiveThreshold h) * (9 / 10) ≤
      (99 / 100 - GateConfig.default.adaptiveThreshold h) *
        nudge (urgencies curiosity mastery pending goals seed h) :=
    mul_le_mul_of_nonneg_left low (sub_nonneg.mpr adaptive)
  have floor : 2 / 10 * (9 / 10) ≤ GateConfig.default.adaptiveThreshold h *
      nudge (urgencies curiosity mastery pending goals seed h) :=
    mul_le_mul least low (by norm_num) (by linarith)
  have product : ((withState curiosity mastery pending goals seed).updateSignals h).threshold h ≤
      GateConfig.default.adaptiveThreshold h *
        nudge (urgencies curiosity mastery pending goals seed h) := by
    rw [Gate.threshold, nudged]
    exact max_le (by linarith) (min_le_left _ _)
  have reached : ((withState curiosity mastery pending goals seed).updateSignals h').threshold h' =
      99 / 100 * nudge (urgencies curiosity mastery pending goals seed h') := by
    rw [Gate.threshold, nudged, cut, clamp_eq_self (by linarith) within]
  rw [reached]
  linarith

end Threshold

/-! ## Blocked events under stress -/

/-- The rise of the threshold exceeds what the drives add. -/
def Outweighed (h h' : HomeostaticSignals) : Prop :=
  11 * (h.powerBudget - h'.powerBudget) + 4 * (h'.computePressure - h.computePressure) ≤
    79 * (h'.thermalLoad - h.thermalLoad) + 49 * (h'.memoryPressure - h.memoryPressure) +
      34 * (h.financialBudget - h'.financialBudget)

theorem added_le_demanded {h h' : HomeostaticSignals} (outweighed : Outweighed h h') :
    added h h' ≤ 9 / 10 * demanded h h' := by
  rw [Outweighed] at outweighed
  rw [added, demanded]
  linarith

section Blocking

variable {curiosity : CuriosityState} {mastery : MasteryState} {pending goals : Nat}
  {seed h h' : HomeostaticSignals} {event : EventFeatures} {fixed3 : ℚ → String}
  {eventId : String}

/-- The value rises by no more than the threshold. -/
theorem blocks_of_rise {d : ℚ} (nonneg : 0 ≤ d)
    (offers : offer (urgencies curiosity mastery pending goals seed h') (offered event) ≤
      offer (urgencies curiosity mastery pending goals seed h) (offered event) + d)
    (threshold :
      ((withState curiosity mastery pending goals seed).updateSignals h).threshold h + d ≤
        ((withState curiosity mastery pending goals seed).updateSignals h').threshold h')
    (blocked : blocks fixed3 (withState curiosity mastery pending goals seed) eventId event h) :
    blocks fixed3 (withState curiosity mastery pending goals seed) eventId event h' := by
  rw [blocks_iff] at blocked ⊢
  have value := totalValue_rises nonneg offers
  linarith

theorem blocks_below_ceiling (stressed : Stressed h h') (outweighed : Outweighed h h')
    (uncut : Uncut (withState curiosity mastery pending goals seed) h')
    (ceiling : GateConfig.default.rawThreshold h' ≤ 99 / 100)
    (blocked : blocks fixed3 (withState curiosity mastery pending goals seed) eventId event h) :
    blocks fixed3 (withState curiosity mastery pending goals seed) eventId event h' := by
  have threshold := threshold_demanded stressed uncut ceiling
  have paid := added_le_demanded outweighed
  exact blocks_of_rise (added_nonneg stressed) (offer_added stressed) (by linarith) blocked

/-- Where the adaptive threshold is cut, the nudge rises by more than the drives offer: either
the stress was high before, or the adaptive threshold was still short of its ceiling. -/
theorem blocks_at_ceiling (stressed : Stressed h h')
    (uncut : Uncut (withState curiosity mastery pending goals seed) h')
    (ceiling : 99 / 100 ≤ GateConfig.default.rawThreshold h')
    (blocked : blocks fixed3 (withState curiosity mastery pending goals seed) eventId event h) :
    blocks fixed3 (withState curiosity mastery pending goals seed) eventId event h' := by
  have threshold := threshold_nudged stressed uncut ceiling
  have risen := viability_rises stressed
  have busier := stressed.compute
  rw [integrity_apart] at threshold
  have adaptive : GateConfig.default.adaptiveThreshold h ≤ 99 / 100 :=
    clamp_le_high (by norm_num) _
  by_cases near : 98 / 100 ≤ GateConfig.default.rawThreshold h
  · have hot : 63 / 100 ≤ viability h := by
      have := stressed.unit.thermal
      have := stressed.unit.memory
      have := stressed.unit.power
      have := stressed.unit.attention
      rw [rawThreshold_eq stressed.unit] at near
      rw [viability]
      linarith
    have nonneg : 0 ≤ addedHot h h' := by
      rw [addedHot]
      linarith
    have paid : ((withState curiosity mastery pending goals seed).updateSignals h).threshold h +
        addedHot h h' ≤
          ((withState curiosity mastery pending goals seed).updateSignals h').threshold h' := by
      rw [addedHot]
      linarith
    exact blocks_of_rise nonneg (offer_addedHot stressed hot) paid blocked
  · have short : GateConfig.default.adaptiveThreshold h ≤ 98 / 100 :=
      max_le (by norm_num) ((min_le_left _ _).trans (not_le.mp near).le)
    have least := viability_bounds stressed.unit
    have most := viability_bounds stressed.unit'
    have sums : added h h' = 132 / 1000 * (viability h' - viability h) +
        12 / 1000 * (h'.computePressure - h.computePressure) := by
      rw [added, viability, viability]
      ring
    have paid : ((withState curiosity mastery pending goals seed).updateSignals h).threshold h +
        added h h' ≤
          ((withState curiosity mastery pending goals seed).updateSignals h').threshold h' := by
      rw [sums]
      linarith
    exact blocks_of_rise (added_nonneg stressed) (offer_added stressed) paid blocked

end Blocking

/-- The threshold gate blocks more under stress; around it, the motivated gate does where its
threshold is not cut and the loads it reads rise enough against power and compute. -/
theorem stress_keeps_blocked (fixed3 : ℚ → String) (eventId : String) (event : EventFeatures)
    (h h' : HomeostaticSignals) (stressed : Stressed h h') :
    (thresholdBlocks fixed3 .default eventId event h →
      thresholdBlocks fixed3 .default eventId event h') ∧
    ∀ (curiosity : CuriosityState) (mastery : MasteryState) (pending goals : Nat)
      (seed : HomeostaticSignals),
      Outweighed h h' → Uncut (withState curiosity mastery pending goals seed) h' →
      blocks fixed3 (withState curiosity mastery pending goals seed) eventId event h →
      blocks fixed3 (withState curiosity mastery pending goals seed) eventId event h' := by
  constructor
  · intro blocked
    rw [thresholdBlocks_iff] at blocked ⊢
    exact lt_of_lt_of_le blocked (adaptiveThreshold_rises stressed)
  · intro curiosity mastery pending goals seed outweighed uncut blocked
    rcases le_total (GateConfig.default.rawThreshold h') (99 / 100) with below | above
    · exact blocks_below_ceiling stressed outweighed uncut below blocked
    · exact blocks_at_ceiling stressed uncut above blocked

def HomeostaticSignals.neutral : HomeostaticSignals := ⟨0, 0, 0, 1, 1, 0⟩

/-- A gate without goals or objectives, new to its surroundings. -/
def fresh : Gate := withState .default .default 0 0 .neutral

theorem stress_keeps_blocked_warm :
    blocks (fun _ => "") fresh "tick" ⟨1 / 10, 0, .systemEvent, false⟩
      ⟨2 / 10, 0, 0, 1, 1, 0⟩ :=
  (stress_keeps_blocked (fun _ => "") "tick" ⟨1 / 10, 0, .systemEvent, false⟩
    ⟨1 / 10, 0, 0, 1, 1, 0⟩ ⟨2 / 10, 0, 0, 1, 1, 0⟩ (by decide +kernel)).2
    .default .default 0 0 .neutral (by norm_num [Outweighed])
    (by decide +kernel) ((blocks_iff _ _ _ _ _).mpr (by decide +kernel))

/-- Losing power alone triggers the cortex, and so does a busy pipeline under full attention.
With the product of the adaptive threshold and the nudge at its ceiling heat triggers it as
well. -/
theorem stress_triggers_cortex :
    (Stressed .neutral ⟨0, 0, 0, 0, 1, 0⟩ ∧
      blocks (fun _ => "") fresh "e" ⟨56 / 100, 0, .systemEvent, false⟩ .neutral ∧
      ¬blocks (fun _ => "") fresh "e" ⟨56 / 100, 0, .systemEvent, false⟩ ⟨0, 0, 0, 0, 1, 0⟩) ∧
    (Stressed ⟨0, 0, 0, 1, 1, 1⟩ ⟨0, 1, 0, 1, 1, 1⟩ ∧
      blocks (fun _ => "") fresh "e" ⟨115 / 400, 0, .systemEvent, false⟩ ⟨0, 0, 0, 1, 1, 1⟩ ∧
      ¬blocks (fun _ => "") fresh "e" ⟨115 / 400, 0, .systemEvent, false⟩ ⟨0, 1, 0, 1, 1, 1⟩) ∧
    (Stressed ⟨9 / 10, 1, 9 / 10, 0, 3 / 10, 0⟩ ⟨1, 1, 9 / 10, 0, 3 / 10, 0⟩ ∧
      blocks (fun _ => "") fresh "e" ⟨808 / 1000, 0, .operatorCommand, true⟩
        ⟨9 / 10, 1, 9 / 10, 0, 3 / 10, 0⟩ ∧
      ¬blocks (fun _ => "") fresh "e" ⟨808 / 1000, 0, .operatorCommand, true⟩
        ⟨1, 1, 9 / 10, 0, 3 / 10, 0⟩) := by
  simp only [blocks_iff]
  refine ⟨⟨?_, ?_⟩, ⟨?_, ?_⟩, ⟨?_, ?_⟩⟩ <;> decide +kernel

end MotivatedGate
