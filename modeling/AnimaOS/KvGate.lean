import AnimaOS.KvSelection

/-!
# The block budget under memory pressure

The gate pass of the runtime reduces the nominal budget as the memory pressure
rises, down to a floor of one block, and hands the rest to the controller.
Pressures are rationals; the two conversions to floats are parameters.
-/

namespace KvGate

open FloatOrder KvSelection

def clampUnit (x : ℚ) : ℚ := max 0 (min x 1)

def effectiveBudgetUnderPressure (nominalBudget : Nat) (memoryPressure : ℚ) : Nat :=
  let pressure := clampUnit memoryPressure
  if pressure < 1 / 2 then nominalBudget
  else
    let excess := (pressure - 1 / 2) * 2
    let factor := 1 - 3 / 10 * excess
    max ⌈(nominalBudget : ℚ) * factor⌉₊ 1

/-! ## The gate pass -/

structure ContextBlock where
  blockIndex : Nat
  role : BlockRole
  isUserConstraint : Bool
  isErrorTrace : Bool
  isToolOutput : Bool
  deriving DecidableEq, Repr

structure FeatureOps where
  /-- `(index as f32 / last as f32).clamp(0.0, 1.0)`. -/
  recency : Nat → Nat → Single
  /-- The float of a pressure. -/
  single : ℚ → Single

structure InteroceptiveSignals where
  memoryPressure : ℚ
  deriving DecidableEq, Repr

structure GatePassResult where
  decisions : List KvGateDecision
  fallbackLru : Bool
  faultedThisPass : Bool
  needlesRetained : Nat
  totalNeedles : Nat
  deriving DecidableEq, Repr

def GatePassResult.retainedCount (r : GatePassResult) : Nat :=
  (r.decisions.filter (·.retain)).length

inductive KvAuditEntry where
  | memoryPressureModulation (agentId taskId : String) (memoryPressure : ℚ)
      (nominalBudget effectiveBudget : Nat)
  | controllerFaulted (agentId taskId : String) (faultCount : Nat)
  | gatePass (agentId taskId : String) (totalBlocks retainedBlocks budget : Nat)
      (fallbackLru : Bool) (needlesRetained totalNeedles : Nat)
  deriving DecidableEq, Repr

section Pass

variable (mul : Single → Single → Single) (ops : FeatureOps)

def ContextBlock.toFeatures (b : ContextBlock) (totalBlocks : Nat) (memoryPressure : ℚ) :
    BlockFeatures where
  blockIndex := b.blockIndex
  role := b.role
  isUserConstraint := b.isUserConstraint
  isErrorTrace := b.isErrorTrace
  isToolOutput := b.isToolOutput
  recencyScore := if totalBlocks ≤ 1 then one else ops.recency b.blockIndex (totalBlocks - 1)
  memoryPressure := ops.single (clampUnit memoryPressure)

def gateWorkingContext (controller : KvController) (blocks : List ContextBlock) (budget : Nat)
    (memoryPressure : ℚ) (agentId taskId : String) (auditLog : List KvAuditEntry) :
    GatePassResult × KvController × List KvAuditEntry :=
  let features := blocks.map fun b => b.toFeatures ops blocks.length memoryPressure
  let selected := selectBlocks mul controller features budget
  let decisions := selected.1
  let faultedThisPass := decide (controller.state ≠ .faulted ∧ selected.2.state = .faulted)
  let fallbackLru := decisions.any (·.fallbackLru)
  let needlesRetained :=
    ((decisions.zip features).filter fun (d, f) => d.retain && f.isUserConstraint).length
  let totalNeedles := (blocks.filter (·.isUserConstraint)).length
  let faulted :=
    if faultedThisPass then [.controllerFaulted agentId taskId selected.2.faultCount] else []
  let pass := .gatePass agentId taskId blocks.length (decisions.filter (·.retain)).length budget
    fallbackLru needlesRetained totalNeedles
  (⟨decisions, fallbackLru, faultedThisPass, needlesRetained, totalNeedles⟩, selected.2,
    auditLog ++ faulted ++ [pass])

def gateWorkingContextWithSignals (controller : KvController) (blocks : List ContextBlock)
    (nominalBudget : Nat) (signals : InteroceptiveSignals) (agentId taskId : String)
    (auditLog : List KvAuditEntry) : GatePassResult × KvController × List KvAuditEntry :=
  let memoryPressure := clampUnit signals.memoryPressure
  let effectiveBudget := effectiveBudgetUnderPressure nominalBudget memoryPressure
  let modulated :=
    if effectiveBudget < nominalBudget then
      [.memoryPressureModulation agentId taskId memoryPressure nominalBudget effectiveBudget]
    else []
  gateWorkingContext mul ops controller blocks effectiveBudget memoryPressure agentId taskId
    (auditLog ++ modulated)

end Pass

/-! ## The budget -/

theorem clampUnit_mono {p q : ℚ} (h : p ≤ q) : clampUnit p ≤ clampUnit q :=
  max_le_max le_rfl (min_le_min h le_rfl)

theorem clampUnit_le_one (p : ℚ) : clampUnit p ≤ 1 := max_le zero_le_one (min_le_right p 1)

theorem clampUnit_idem (p : ℚ) : clampUnit (clampUnit p) = clampUnit p := by
  rw [clampUnit, min_eq_left (clampUnit_le_one p), max_eq_right]
  exact le_max_left 0 _

theorem clampUnit_lt_half {p : ℚ} : clampUnit p < 1 / 2 ↔ p < 1 / 2 := by
  rw [clampUnit, max_lt_iff, min_lt_iff]
  constructor
  · rintro ⟨-, below | above⟩
    · exact below
    · norm_num at above
  · intro below
    exact ⟨by norm_num, Or.inl below⟩

theorem effectiveBudget_low {b : Nat} {p : ℚ} (low : p < 1 / 2) :
    effectiveBudgetUnderPressure b p = b :=
  if_pos (clampUnit_lt_half.mpr low)

/-- The factor falls from 1 at the threshold to 7/10 at full pressure. -/
theorem effectiveBudget_high {b : Nat} {p : ℚ} (high : ¬ p < 1 / 2) :
    effectiveBudgetUnderPressure b p =
      max ⌈(b : ℚ) * (1 - 3 / 10 * ((clampUnit p - 1 / 2) * 2))⌉₊ 1 :=
  if_neg (mt clampUnit_lt_half.mp high)

theorem effectiveBudget_le (b : Nat) (p : ℚ) : effectiveBudgetUnderPressure b p ≤ max b 1 := by
  by_cases low : p < 1 / 2
  · rw [effectiveBudget_low low]
    exact le_max_left b 1
  · rw [effectiveBudget_high low]
    refine max_le_max ?_ le_rfl
    have enough : (1 : ℚ) / 2 ≤ clampUnit p := not_lt.mp (mt clampUnit_lt_half.mp low)
    refine Nat.ceil_le.mpr (mul_le_of_le_one_right (Nat.cast_nonneg b) ?_)
    linarith

theorem effectiveBudget_antitone {b : Nat} {p q : ℚ} (le : p ≤ q)
    (some : 1 ≤ b ∨ q < 1 / 2) :
    effectiveBudgetUnderPressure b q ≤ effectiveBudgetUnderPressure b p := by
  by_cases low : p < 1 / 2
  · rw [effectiveBudget_low low]
    rcases some with one | below
    · exact (effectiveBudget_le b q).trans (max_le le_rfl one)
    · rw [effectiveBudget_low below]
  · have high : ¬ q < 1 / 2 := fun below => low (lt_of_le_of_lt le below)
    rw [effectiveBudget_high low, effectiveBudget_high high]
    refine max_le_max (Nat.ceil_mono (mul_le_mul_of_nonneg_left ?_ (Nat.cast_nonneg b))) le_rfl
    have more := clampUnit_mono le
    linarith

/-- The floor lifts an empty budget. -/
theorem effectiveBudget_floor {p : ℚ} (high : 1 / 2 ≤ p) : effectiveBudgetUnderPressure 0 p = 1 := by
  rw [effectiveBudget_high (not_lt.mpr high)]
  simp

/-! ## What a pass retains -/

theorem effectiveBudget_clamp (b : Nat) (p : ℚ) :
    effectiveBudgetUnderPressure b (clampUnit p) = effectiveBudgetUnderPressure b p := by
  simp only [effectiveBudgetUnderPressure, clampUnit_idem]

section Retained

variable (mul : Single → Single → Single) (ops : FeatureOps)

/-- A pass retains what the reduced budget allows, whichever blocks those are. -/
theorem retained_with_signals (controller : KvController) (blocks : List ContextBlock)
    (nominalBudget : Nat) (signals : InteroceptiveSignals) (agentId taskId : String)
    (auditLog : List KvAuditEntry) :
    (gateWorkingContextWithSignals mul ops controller blocks nominalBudget signals agentId taskId
        auditLog).1.retainedCount =
      min (effectiveBudgetUnderPressure nominalBudget signals.memoryPressure) blocks.length := by
  have size := selectBlocks_size mul controller (blocks.map fun b => b.toFeatures ops blocks.length
    (clampUnit signals.memoryPressure))
    (effectiveBudgetUnderPressure nominalBudget (clampUnit signals.memoryPressure))
  rw [List.length_map] at size
  exact size.trans (by rw [effectiveBudget_clamp])

/-- No pass at this pressure retains more blocks than `limit`. -/
def RetainsAtMost (limit nominalBudget : Nat) (memoryPressure : ℚ) : Prop :=
  ∀ (controller : KvController) (blocks : List ContextBlock) (agentId taskId : String)
    (auditLog : List KvAuditEntry),
    (gateWorkingContextWithSignals mul ops controller blocks nominalBudget ⟨memoryPressure⟩ agentId
      taskId auditLog).1.retainedCount ≤ limit

theorem retainsAtMost {limit nominalBudget : Nat} {memoryPressure : ℚ}
    (h : effectiveBudgetUnderPressure nominalBudget memoryPressure ≤ limit) :
    RetainsAtMost mul ops limit nominalBudget memoryPressure := by
  intro controller blocks agentId taskId auditLog
  rw [retained_with_signals]
  exact (min_le_left _ _).trans h

structure Tightens (b : Nat) (p q : ℚ) : Prop where
  antitone : effectiveBudgetUnderPressure b q ≤ effectiveBudgetUnderPressure b p
  bounded : effectiveBudgetUnderPressure b p ≤ b ∧ effectiveBudgetUnderPressure b q ≤ b
  retained : RetainsAtMost mul ops b b p ∧ RetainsAtMost mul ops b b q

theorem tightens {b : Nat} {p q : ℚ} (le : p ≤ q) (some : 1 ≤ b ∨ q < 1 / 2) :
    Tightens mul ops b p q := by
  have bounded (r : ℚ) (below : r ≤ q) : effectiveBudgetUnderPressure b r ≤ b := by
    rcases some with one | low
    · exact (effectiveBudget_le b r).trans (max_le le_rfl one)
    · rw [effectiveBudget_low (lt_of_le_of_lt below low)]
  exact ⟨effectiveBudget_antitone le some, ⟨bounded p le, bounded q le_rfl⟩,
    retainsAtMost mul ops (bounded p le), retainsAtMost mul ops (bounded q le_rfl)⟩

/-- Pressure only tightens the budget, down to the floor of one block, which also holds for an
empty budget from the threshold on. -/
theorem pressure_tightens_to_floor (b : Nat) (p q : ℚ) (le : p ≤ q) :
    (1 ≤ b ∨ q < 1 / 2 → Tightens mul ops b p q) ∧
      (b = 0 → 1 / 2 ≤ q →
        effectiveBudgetUnderPressure b q = 1 ∧ RetainsAtMost mul ops 1 b q) := by
  refine ⟨tightens mul ops le, ?_⟩
  rintro rfl high
  have floor := effectiveBudget_floor high
  exact ⟨floor, retainsAtMost mul ops (Nat.le_of_eq floor)⟩

end Retained

theorem pressure_tightens_ten : Tightens (fun a _ => a) ⟨fun _ _ => one, fun _ => one⟩ 10 0 1 :=
  (pressure_tightens_to_floor (fun a _ => a) ⟨fun _ _ => one, fun _ => one⟩ 10 0 1
    (by norm_num)).1 (Or.inl (by norm_num))

/-- From no pressure to full pressure an empty budget grows. -/
theorem empty_budget_grows :
    ¬ Tightens (fun a _ => a) ⟨fun _ _ => one, fun _ => one⟩ 0 0 1 := by
  intro tightened
  have full : effectiveBudgetUnderPressure 0 1 = 1 := effectiveBudget_floor (by norm_num)
  have bounded := tightened.bounded.2
  omega

end KvGate
