import AnimaOS.CarriedProduct
import AnimaOS.MotivationDrives
import Mathlib.Order.Interval.Finset.Fin
import Mathlib.Tactic.Linarith

/-!
# The priority lattice

The weights that urgent lower tiers leave to the tiers above them. The loop over
the tiers computes a carried product cut at the least weight, and the order of
preemption is read off that product.
-/

namespace MotivationDrives

open CarriedProduct

structure DriveWeights where
  weights : PerTier

def DriveWeights.weight (w : DriveWeights) (tier : DriveTier) : ℚ := w.weights tier.index

structure LatticeConfig where
  suppressionThreshold : ℚ
  suppressionFactor : ℚ
  minWeight : ℚ
  deriving DecidableEq, Repr

def LatticeConfig.default : LatticeConfig := ⟨1 / 2, 8 / 10, 5 / 100⟩

/-- The state of the loop over the tiers. -/
structure Suppression where
  weights : PerTier
  suppressionCarry : ℚ

/-- The range of urgencies above the threshold, kept away from zero. -/
def headroom (config : LatticeConfig) : ℚ :=
  max (1 - config.suppressionThreshold) (1 / 1000000)

def suppressTier (config : LatticeConfig) (snapshot : DriveStateSnapshot) (s : Suppression)
    (tierIdx : Fin TIER_COUNT) : Suppression :=
  let weight := max (s.weights tierIdx * s.suppressionCarry) config.minWeight
  let urgency := snapshot.urgencies tierIdx
  let suppress :=
    1 - config.suppressionFactor * (urgency - config.suppressionThreshold) / headroom config
  { weights := Function.update s.weights tierIdx weight
    suppressionCarry :=
      if urgency > config.suppressionThreshold then
        s.suppressionCarry * max suppress config.minWeight
      else s.suppressionCarry }

/-- The loop after its first `n` tiers. -/
def suppressTiers (config : LatticeConfig) (snapshot : DriveStateSnapshot) : Nat → Suppression
  | 0 => ⟨fun _ => 1, 1⟩
  | n + 1 =>
    if inside : n < TIER_COUNT then
      suppressTier config snapshot (suppressTiers config snapshot n) ⟨n, inside⟩
    else suppressTiers config snapshot n

def computeWeights (config : LatticeConfig) (snapshot : DriveStateSnapshot) : DriveWeights :=
  ⟨(suppressTiers config snapshot TIER_COUNT).weights⟩

def isSuppressingAppetitive (w : DriveWeights) : Bool :=
  w.weight .epistemic < 1 / 2 || w.weight .achievement < 1 / 2

/-! ## The weights as a carried product -/

/-- What one tier leaves of the weights above it. -/
def suppressionOf (config : LatticeConfig) (urgency : ℚ) : ℚ :=
  if urgency > config.suppressionThreshold then
    max (1 - config.suppressionFactor * (urgency - config.suppressionThreshold) / headroom config)
      config.minWeight
  else 1

variable {config : LatticeConfig} {snapshot : DriveStateSnapshot}

theorem suppressTier_carry (s : Suppression) (i : Fin TIER_COUNT) :
    (suppressTier config snapshot s i).suppressionCarry =
      s.suppressionCarry * suppressionOf config (snapshot.urgencies i) := by
  simp only [suppressTier, suppressionOf]
  split
  · rfl
  · exact (mul_one _).symm

theorem Iio_next {n : Nat} (inside : n < TIER_COUNT) :
    Finset.univ.filter (fun i : Fin TIER_COUNT => i.val < n + 1) =
      insert ⟨n, inside⟩ (Finset.univ.filter fun i : Fin TIER_COUNT => i.val < n) := by
  ext i
  simp only [Finset.mem_filter, Finset.mem_univ, true_and, Finset.mem_insert, Fin.ext_iff]
  omega

/-- Before its `n`-th tier the loop has weighed the tiers below it and carries their factors. -/
theorem suppressTiers_eq (config : LatticeConfig) (snapshot : DriveStateSnapshot) {n : Nat}
    (le : n ≤ TIER_COUNT) :
    (suppressTiers config snapshot n).suppressionCarry =
        ∏ i ∈ Finset.univ.filter (fun i : Fin TIER_COUNT => i.val < n),
          suppressionOf config (snapshot.urgencies i) ∧
      ∀ i : Fin TIER_COUNT, (suppressTiers config snapshot n).weights i =
        if i.val < n then
          floored config.minWeight (fun j => suppressionOf config (snapshot.urgencies j)) i
        else 1 := by
  induction n with
  | zero => simp [suppressTiers]
  | succ n ih =>
    have inside : n < TIER_COUNT := le
    obtain ⟨carry, weights⟩ := ih (Nat.le_of_lt inside)
    have stepped : suppressTiers config snapshot (n + 1) =
        suppressTier config snapshot (suppressTiers config snapshot n) ⟨n, inside⟩ := by
      rw [suppressTiers, dif_pos inside]
    rw [stepped]
    constructor
    · have fresh : (⟨n, inside⟩ : Fin TIER_COUNT) ∉
          Finset.univ.filter (fun i : Fin TIER_COUNT => i.val < n) := by simp
      rw [suppressTier_carry, carry, Iio_next inside, Finset.prod_insert fresh, mul_comm]
    · intro i
      by_cases here : i = ⟨n, inside⟩
      · subst here
        have below : Finset.univ.filter (fun i : Fin TIER_COUNT => i.val < n) =
            Finset.Iio ⟨n, inside⟩ := by
          ext j
          simp [Fin.lt_def]
        rw [if_pos (Nat.lt_succ_self n)]
        simp only [suppressTier, Function.update_self, weights, lt_irrefl, if_false, one_mul,
          carry, below]
        rfl
      · have apart : i.val ≠ n := fun same => here (Fin.ext same)
        simp only [suppressTier, Function.update_of_ne here, weights]
        by_cases earlier : i.val < n
        · rw [if_pos earlier, if_pos (Nat.lt_succ_of_lt earlier)]
        · rw [if_neg earlier, if_neg (by omega)]

theorem computeWeights_eq (config : LatticeConfig) (snapshot : DriveStateSnapshot)
    (i : Fin TIER_COUNT) :
    (computeWeights config snapshot).weights i =
      floored config.minWeight (fun j => suppressionOf config (snapshot.urgencies j)) i := by
  have weighed := (suppressTiers_eq config snapshot (le_refl TIER_COUNT)).2 i
  rw [if_pos i.isLt] at weighed
  exact weighed

/-! ## One tier's factor -/

/-- A configuration that suppresses and keeps a share of every weight. -/
structure Suppressing (config : LatticeConfig) : Prop where
  factor : 0 ≤ config.suppressionFactor
  low : 0 ≤ config.minWeight
  high : config.minWeight ≤ 1

theorem headroom_pos (config : LatticeConfig) : 0 < headroom config :=
  lt_of_lt_of_le (by norm_num) (le_max_right _ _)

theorem suppressionOf_bounds (suppressing : Suppressing config) (urgency : ℚ) :
    0 ≤ suppressionOf config urgency ∧ suppressionOf config urgency ≤ 1 := by
  rw [suppressionOf]
  split
  · rename_i above
    refine ⟨suppressing.low.trans (le_max_right _ _), max_le ?_ suppressing.high⟩
    have excess : 0 ≤ urgency - config.suppressionThreshold := by linarith
    have taken : 0 ≤
        config.suppressionFactor * (urgency - config.suppressionThreshold) / headroom config :=
      div_nonneg (mul_nonneg suppressing.factor excess) (headroom_pos config).le
    linarith
  · exact ⟨zero_le_one, le_rfl⟩

theorem suppressionOf_falls (suppressing : Suppressing config) {u v : ℚ} (le : u ≤ v) :
    suppressionOf config v ≤ suppressionOf config u := by
  by_cases above : u > config.suppressionThreshold
  · have later : v > config.suppressionThreshold := lt_of_lt_of_le above le
    rw [suppressionOf, suppressionOf, if_pos above, if_pos later]
    refine max_le_max_right _ ?_
    have more : config.suppressionFactor * (u - config.suppressionThreshold) / headroom config ≤
        config.suppressionFactor * (v - config.suppressionThreshold) / headroom config := by
      refine div_le_div_of_nonneg_right ?_ (headroom_pos config).le
      exact mul_le_mul_of_nonneg_left (sub_le_sub_right le _) suppressing.factor
    linarith
  · have whole : suppressionOf config u = 1 := if_neg above
    rw [whole]
    exact (suppressionOf_bounds suppressing v).2

theorem shrinking (suppressing : Suppressing config) (snapshot : DriveStateSnapshot) :
    Shrinking fun j => suppressionOf config (snapshot.urgencies j) :=
  fun j => suppressionOf_bounds suppressing (snapshot.urgencies j)

/-! ## The order of preemption -/

structure PreemptionOrder (config : LatticeConfig) : Prop where
  bounds : ∀ snapshot i, config.minWeight ≤ (computeWeights config snapshot).weights i ∧
    (computeWeights config snapshot).weights i ≤ 1
  falls : ∀ snapshot i k, i ≤ k →
    (computeWeights config snapshot).weights k ≤ (computeWeights config snapshot).weights i
  causal : ∀ u v : DriveStateSnapshot, ∀ j, (∀ i < j, u.urgencies i = v.urgencies i) →
    (computeWeights config u).weights j = (computeWeights config v).weights j
  monotone : ∀ u v : DriveStateSnapshot, (∀ i, u.urgencies i ≤ v.urgencies i) →
    ∀ i, (computeWeights config v).weights i ≤ (computeWeights config u).weights i

/-- Higher urgencies never weaken the suppression of the appetitive tiers. -/
theorem suppressing_appetitive_mono (order : PreemptionOrder config) {u v : DriveStateSnapshot}
    (le : ∀ i, u.urgencies i ≤ v.urgencies i)
    (suppressed : isSuppressingAppetitive (computeWeights config u) = true) :
    isSuppressingAppetitive (computeWeights config v) = true := by
  have weaker : ∀ tier : DriveTier,
      (computeWeights config v).weight tier ≤ (computeWeights config u).weight tier :=
    fun tier => order.monotone u v le tier.index
  simp only [isSuppressingAppetitive, Bool.or_eq_true, decide_eq_true_eq] at suppressed ⊢
  rcases suppressed with epistemic | achievement
  · exact Or.inl (lt_of_le_of_lt (weaker .epistemic) epistemic)
  · exact Or.inr (lt_of_le_of_lt (weaker .achievement) achievement)

/-- Every weight is a carried product of factors between zero and one, cut at the least weight. -/
theorem lattice_preempts (config : LatticeConfig) (suppressing : Suppressing config) :
    PreemptionOrder config := by
  constructor
  · intro snapshot i
    rw [computeWeights_eq]
    exact ⟨floored_ge _ _ i, floored_le_one (shrinking suppressing snapshot) suppressing.high i⟩
  · intro snapshot i k le
    rw [computeWeights_eq, computeWeights_eq]
    exact floored_falls (shrinking suppressing snapshot) _ le
  · intro u v j same
    rw [computeWeights_eq, computeWeights_eq]
    exact floored_congr (fun i below => congrArg (suppressionOf config) (same i below)) _
  · intro u v le i
    rw [computeWeights_eq, computeWeights_eq]
    have nonneg : ∀ j, 0 ≤ suppressionOf config (v.urgencies j) :=
      fun j => (shrinking suppressing v j).1
    exact floored_mono nonneg (fun j => suppressionOf_falls suppressing (le j)) _ i

theorem lattice_preempts_default : PreemptionOrder LatticeConfig.default :=
  lattice_preempts .default ⟨by norm_num [LatticeConfig.default],
    by norm_num [LatticeConfig.default], by norm_num [LatticeConfig.default]⟩

end MotivationDrives
