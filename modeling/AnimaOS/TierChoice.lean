import AnimaOS.LastMax
import AnimaOS.MotivationDrives
import Mathlib.Order.Compare
import Mathlib.Tactic.Linarith

/-!
# The choice of a model tier

The net value of each tier under the financial budget, the budget cut-offs and
the tier of greatest net value among those they leave, ties going to the cheaper
one. Estimates and budgets are exact rationals.
-/

namespace TierChoice

open LastMax MotivationDrives

inductive ModelTier where
  | cheapLocal
  | midTier
  | frontier
  deriving DecidableEq, Repr

def ModelTier.relativeCost : ModelTier → ℚ
  | .cheapLocal => 5 / 100
  | .midTier => 30 / 100
  | .frontier => 1

structure TierCapability where
  tier : ModelTier
  capability : ℚ
  deriving DecidableEq, Repr

/-- The three estimates stand in the order of the tiers. -/
structure CostBenefitAnalysis where
  expectedDriveValue : ℚ
  financialBudget : ℚ
  powerBudget : ℚ
  tierCapabilities : List TierCapability
  tiers : tierCapabilities.map TierCapability.tier = [.cheapLocal, .midTier, .frontier]

/-- Rationals have no `NaN` to map to zero. -/
def saturate01 (x : ℚ) : ℚ := clamp x 0 1

namespace CostBenefitAnalysis

def new (expectedDriveValue financialBudget powerBudget cheapCapability midCapability
    frontierCapability : ℚ) : CostBenefitAnalysis where
  expectedDriveValue := saturate01 expectedDriveValue
  financialBudget := saturate01 financialBudget
  powerBudget := saturate01 powerBudget
  tierCapabilities := [⟨.cheapLocal, saturate01 cheapCapability⟩,
    ⟨.midTier, saturate01 midCapability⟩, ⟨.frontier, saturate01 frontierCapability⟩]
  tiers := rfl

variable (cba : CostBenefitAnalysis)

theorem listed (tier : ModelTier) : ∃ tc ∈ cba.tierCapabilities, tc.tier = tier := by
  have named : tier ∈ cba.tierCapabilities.map TierCapability.tier := by
    rw [cba.tiers]
    cases tier <;> simp
  exact List.mem_map.mp named

theorem found (tier : ModelTier) :
    (cba.tierCapabilities.find? fun t => t.tier = tier).isSome = true := by
  obtain ⟨tc, member, named⟩ := cba.listed tier
  exact List.find?_isSome.mpr ⟨tc, member, decide_eq_true named⟩

/-- The `expect` of the source never fails. -/
def capability (tier : ModelTier) : ℚ :=
  ((cba.tierCapabilities.find? fun t => t.tier = tier).get (cba.found tier)).capability

/-- The cost penalty of a unit of relative cost. -/
def scarcity : ℚ := max (1 - cba.financialBudget) 0 * (1 / 2)

def netValue (tier : ModelTier) : ℚ :=
  let rawValue := cba.capability tier * cba.expectedDriveValue
  let costPenalty := tier.relativeCost * cba.scarcity
  max (rawValue - costPenalty) 0

/-- By net value; on equal net values the cheaper tier is the greater one. -/
def compareTiers : TierCapability → TierCapability → Ordering :=
  compareLex (compareOn fun tc => cba.netValue tc.tier)
    fun a b => compareOn (fun tc : TierCapability => tc.tier.relativeCost) b a

def allowFrontier : Bool := cba.financialBudget ≥ 10 / 100

def allowMid : Bool := cba.financialBudget ≥ 3 / 100 && cba.powerBudget ≥ 5 / 100

def candidates : List TierCapability :=
  cba.tierCapabilities.filter fun tc =>
    match tc.tier with
    | .frontier => cba.allowFrontier
    | .midTier => cba.allowMid
    | .cheapLocal => true

def chooseTier : ModelTier :=
  if cba.powerBudget < 10 / 100 then .cheapLocal
  else
    match maxBy cba.compareTiers cba.candidates with
    | some tc => tc.tier
    | none => .cheapLocal

/-! ## The chosen tier -/

/-- What the cut-offs on the two budgets leave. -/
def Allowed : ModelTier → Prop
  | .cheapLocal => True
  | .midTier => 10 / 100 ≤ cba.powerBudget ∧ 3 / 100 ≤ cba.financialBudget
  | .frontier => 10 / 100 ≤ cba.powerBudget ∧ 10 / 100 ≤ cba.financialBudget

/-- No allowed tier has a greater net value, nor the same at a lower cost. -/
structure Best (tier : ModelTier) : Prop where
  allowed : cba.Allowed tier
  greatest : ∀ other, cba.Allowed other → cba.netValue other ≤ cba.netValue tier
  cheapest : ∀ other, cba.Allowed other → cba.netValue other = cba.netValue tier →
    tier.relativeCost ≤ other.relativeCost

variable {cba}

theorem compareTiers_isLE {a b : TierCapability} (le : (cba.compareTiers a b).isLE) :
    cba.netValue a.tier ≤ cba.netValue b.tier ∧
      (cba.netValue a.tier = cba.netValue b.tier → b.tier.relativeCost ≤ a.tier.relativeCost) := by
  simp only [compareTiers, compareLex, compareOn, Ordering.isLE_then_iff_or] at le
  rcases le with less | ⟨same, costs⟩
  · have below := compare_lt_iff_lt.mp less
    exact ⟨below.le, fun same => absurd same below.ne⟩
  · refine ⟨(compare_eq_iff_eq.mp same).le, fun _ => ?_⟩
    exact compare_le_iff_le.mp (Ordering.isLE_iff_ne_gt.mp costs)

instance : Std.TransCmp cba.compareTiers :=
  inferInstanceAs (Std.TransCmp (compareLex _ _))

theorem mem_candidates {tc : TierCapability} (power : ¬ cba.powerBudget < 10 / 100) :
    tc ∈ cba.candidates ↔ tc ∈ cba.tierCapabilities ∧ cba.Allowed tc.tier := by
  have enough : 10 / 100 ≤ cba.powerBudget := not_lt.mp power
  have more : 5 / 100 ≤ cba.powerBudget := le_trans (by norm_num) enough
  rw [candidates, List.mem_filter]
  refine and_congr_right fun _ => ?_
  cases tc.tier with
  | cheapLocal => simp [Allowed]
  | midTier => simp [allowMid, Allowed, enough, more]
  | frontier => simp [allowFrontier, Allowed, enough]

theorem allowed_low (power : cba.powerBudget < 10 / 100) {tier : ModelTier}
    (allowed : cba.Allowed tier) : tier = .cheapLocal := by
  cases tier with
  | cheapLocal => rfl
  | midTier => exact absurd allowed.1 (not_le.mpr power)
  | frontier => exact absurd allowed.1 (not_le.mpr power)

theorem chooseTier_best (cba : CostBenefitAnalysis) : cba.Best cba.chooseTier := by
  by_cases power : cba.powerBudget < 10 / 100
  · have chosen : cba.chooseTier = .cheapLocal := if_pos power
    rw [chosen]
    refine ⟨trivial, ?_, ?_⟩
    · intro other allowed
      rw [allowed_low power allowed]
    · intro other allowed _
      rw [allowed_low power allowed]
  · obtain ⟨cheap, member, named⟩ := cba.listed .cheapLocal
    have candidate : cheap ∈ cba.candidates :=
      (mem_candidates power).mpr ⟨member, named ▸ trivial⟩
    obtain ⟨best, picked⟩ := @maxBy_some _ cba.compareTiers _ _ candidate
    obtain ⟨held, greatest⟩ := maxBy_greatest picked
    have chosen : cba.chooseTier = best.tier := by
      rw [chooseTier, if_neg power, picked]
    have exceeds : ∀ other, cba.Allowed other → cba.netValue other ≤ cba.netValue best.tier ∧
        (cba.netValue other = cba.netValue best.tier →
          best.tier.relativeCost ≤ other.relativeCost) := by
      intro other allowed
      obtain ⟨tc, member, rfl⟩ := cba.listed other
      exact compareTiers_isLE (greatest tc ((mem_candidates power).mpr ⟨member, allowed⟩))
    rw [chosen]
    exact ⟨((mem_candidates power).mp held).2, fun other allowed => (exceeds other allowed).1,
      fun other allowed => (exceeds other allowed).2⟩

/-! ## Lower budgets -/

/-- A falling budget leaves no tier that a cheaper one does not accompany. -/
theorem Allowed.cheaper {cheap dear : ModelTier} (le : cheap.relativeCost ≤ dear.relativeCost)
    (allowed : cba.Allowed dear) : cba.Allowed cheap := by
  cases cheap <;> cases dear <;> simp only [Allowed, ModelTier.relativeCost] at le allowed ⊢
  · norm_num at le
  · exact allowed
  · exact ⟨allowed.1, le_trans (by norm_num) allowed.2⟩
  · norm_num at le
  · norm_num at le
  · exact allowed

/-- Lines that fall at different speeds from floored values cross once: where the slower one is not
below, it stays so. -/
theorem floored_lines_cross {v w a b s t : ℚ} (slower : a ≤ b) (nonneg : 0 ≤ b) (later : s ≤ t)
    (below : max (w - b * s) 0 ≤ max (v - a * s) 0) : max (w - b * t) 0 ≤ max (v - a * t) 0 := by
  refine max_le ?_ (le_max_right _ _)
  have falls : b * s ≤ b * t := mul_le_mul_of_nonneg_left later nonneg
  rcases le_max_iff.mp ((le_max_left _ _).trans below) with under | spent
  · have apart : 0 ≤ (b - a) * (t - s) := mul_nonneg (sub_nonneg.mpr slower) (sub_nonneg.mpr later)
    refine le_trans ?_ (le_max_left _ _)
    linarith
  · refine le_trans ?_ (le_max_right _ _)
    linarith

theorem saturate01_mono {x y : ℚ} (le : x ≤ y) : saturate01 x ≤ saturate01 y := clamp_mono 0 1 le

section Budgets

variable {drive f p f' p' cheap mid frontier : ℚ}

theorem allowed_lower (money : f' ≤ f) (power : p' ≤ p) {tier : ModelTier}
    (allowed : (new drive f' p' cheap mid frontier).Allowed tier) :
    (new drive f p cheap mid frontier).Allowed tier := by
  have more_money := saturate01_mono money
  have more_power := saturate01_mono power
  cases tier with
  | cheapLocal => trivial
  | midTier => exact ⟨allowed.1.trans more_power, allowed.2.trans more_money⟩
  | frontier => exact ⟨allowed.1.trans more_power, allowed.2.trans more_money⟩

/-- A cheaper tier that is worth as much stays worth as much when the budget falls. -/
theorem netValue_lower (p' : ℚ) (money : f' ≤ f) {low high : ModelTier}
    (cheaper : low.relativeCost ≤ high.relativeCost)
    (below : (new drive f p cheap mid frontier).netValue high ≤
      (new drive f p cheap mid frontier).netValue low) :
    (new drive f' p' cheap mid frontier).netValue high ≤
      (new drive f' p' cheap mid frontier).netValue low := by
  have costs : 0 ≤ high.relativeCost := by
    cases high <;> norm_num [ModelTier.relativeCost]
  have scarcer : (new drive f p cheap mid frontier).scarcity ≤
      (new drive f' p' cheap mid frontier).scarcity := by
    refine mul_le_mul_of_nonneg_right (max_le_max_right 0 ?_) (by norm_num)
    exact sub_le_sub_left (saturate01_mono money) 1
  exact floored_lines_cross cheaper costs scarcer below

end Budgets

end CostBenefitAnalysis

open CostBenefitAnalysis

/-- Lower budgets never make the choice dearer, and the choice is the cheapest of the allowed tiers
with the greatest net value. -/
theorem tier_choice (drive cheap mid frontier : ℚ) {f p f' p' : ℚ} (money : f' ≤ f)
    (power : p' ≤ p) :
    (new drive f' p' cheap mid frontier).chooseTier.relativeCost ≤
        (new drive f p cheap mid frontier).chooseTier.relativeCost ∧
      (new drive f p cheap mid frontier).Best (new drive f p cheap mid frontier).chooseTier := by
  have best := chooseTier_best (new drive f p cheap mid frontier)
  have best' := chooseTier_best (new drive f' p' cheap mid frontier)
  refine ⟨?_, best⟩
  by_contra dearer
  have cheaper := (not_le.mp dearer).le
  have worth := netValue_lower p' money cheaper
    (best.greatest _ (allowed_lower money power best'.allowed))
  have allowed := best'.allowed.cheaper cheaper
  have same := le_antisymm (best'.greatest _ allowed) worth
  exact dearer (best'.cheapest _ allowed same)

theorem tier_choice_sample :
    (new (9 / 10) (5 / 100) 1 (2 / 10) (8 / 10) (95 / 100)).chooseTier.relativeCost ≤
        (new (9 / 10) 1 1 (2 / 10) (8 / 10) (95 / 100)).chooseTier.relativeCost ∧
      (new (9 / 10) 1 1 (2 / 10) (8 / 10) (95 / 100)).Best
        (new (9 / 10) 1 1 (2 / 10) (8 / 10) (95 / 100)).chooseTier :=
  tier_choice (9 / 10) (2 / 10) (8 / 10) (95 / 100) (by norm_num) (by norm_num)

/-- Ample budgets and a large gap in capability: the dearest tier. -/
example : (new (9 / 10) 1 1 (2 / 10) (5 / 10) (95 / 100)).chooseTier = .frontier := by
  decide +kernel

end TierChoice
