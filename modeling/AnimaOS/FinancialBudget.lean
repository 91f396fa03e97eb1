import AnimaOS.KeyedMap
import AnimaOS.PrunedTotals

/-!
# The financial budget sensor

Spend is added up in one bucket a UTC day, and only the latest `MAX_DAYS` buckets
are kept. Amounts are exact rationals.
-/

namespace FinancialBudget

open PrunedTotals

/-- Nanoseconds per UTC day (the day-bucket width). -/
def DAY_NS : Nat := 86400000000000

/-- Only the most recent day-buckets are kept. -/
def MAX_DAYS : Nat := 90

/-- USD for a million tokens by model, with the fallback `"*"`. -/
structure CostTable where
  rates : KeyedMap String ℚ

/-- Exact model match, then the wildcard, then free. -/
def CostTable.costUsd (costs : CostTable) (tokens : UInt64) (model : String) : ℚ :=
  ((costs.rates.get model).or (costs.rates.get "*")).getD 0 * (tokens.toNat / 1000000)

/-- The code takes any rates; with a negative one the scalar may rise again. -/
def CostTable.NonNegative (costs : CostTable) : Prop :=
  ∀ model rate, costs.rates.get model = some rate → 0 ≤ rate

structure BudgetConfig where
  dailyUsdLimit : ℚ
  monthlyUsdLimit : ℚ

/-- The buckets stand in the order of their days. -/
structure FinancialBudgetSensor where
  config : BudgetConfig
  costs : CostTable
  dailyUsd : List (Nat × ℚ)
  sorted : Sorted dailyUsd

def FinancialBudgetSensor.new (config : BudgetConfig) (costs : CostTable) :
    FinancialBudgetSensor :=
  ⟨config, costs, [], List.Pairwise.nil⟩

/-- The arguments of one `record_spend`. -/
structure Spend where
  provider : String
  tokens : UInt64
  model : String
  timestampNs : UInt64

def dayOf (timestampNs : UInt64) : Nat := timestampNs.toNat / DAY_NS

def recordSpend (sensor : FinancialBudgetSensor) (spend : Spend) : FinancialBudgetSensor :=
  { sensor with
    dailyUsd := prune MAX_DAYS (addAt (dayOf spend.timestampNs)
      (sensor.costs.costUsd spend.tokens spend.model) sensor.dailyUsd)
    sorted := prune_sorted (addAt_sorted sensor.sorted) }

def spendUsdOnDay (sensor : FinancialBudgetSensor) (referenceNs : UInt64) : ℚ :=
  (find (dayOf referenceNs) sensor.dailyUsd).getD 0

def financialBudgetScalar (sensor : FinancialBudgetSensor) (nowNs : UInt64) : ℚ :=
  if sensor.config.dailyUsdLimit ≤ 0 then 0
  else 1 - max 0 (min (spendUsdOnDay sensor nowNs / sensor.config.dailyUsdLimit) 1)

/-- A sensor after any calls of `record_spend`. -/
def run (config : BudgetConfig) (costs : CostTable) (spends : List Spend) :
    FinancialBudgetSensor :=
  spends.foldl recordSpend (FinancialBudgetSensor.new config costs)

/-- The day and the cost of every call. -/
def bookings (costs : CostTable) (spends : List Spend) : List (Nat × ℚ) :=
  spends.map fun spend => (dayOf spend.timestampNs, costs.costUsd spend.tokens spend.model)

/-! ## The ledger -/

theorem run_append (config : BudgetConfig) (costs : CostTable) (spends : List Spend)
    (spend : Spend) :
    run config costs (spends ++ [spend]) = recordSpend (run config costs spends) spend := by
  rw [run, List.foldl_append]
  rfl

theorem run_costs (config : BudgetConfig) (costs : CostTable) (spends : List Spend) :
    (run config costs spends).config = config ∧ (run config costs spends).costs = costs := by
  induction spends using List.reverseRecOn with
  | nil => exact ⟨rfl, rfl⟩
  | append_singleton spends spend ih =>
    rw [run_append]
    exact ih

theorem run_dailyUsd (config : BudgetConfig) (costs : CostTable) (spends : List Spend) :
    (run config costs spends).dailyUsd = accumulate MAX_DAYS (bookings costs spends) := by
  induction spends using List.reverseRecOn with
  | nil => rfl
  | append_singleton spends spend ih =>
    have booked : bookings costs (spends ++ [spend]) = bookings costs spends ++
        [(dayOf spend.timestampNs, costs.costUsd spend.tokens spend.model)] :=
      List.map_append
    rw [run_append, booked, accumulate_append, ← ih]
    simp only [recordSpend, (run_costs config costs spends).2]

/-- A day that fewer than `MAX_DAYS` later ones follow shows all of its spend. -/
theorem spend_of_kept {config : BudgetConfig} {costs : CostTable} {spends : List Spend}
    {referenceNs : UInt64}
    (kept : later (bookings costs spends) (dayOf referenceNs) < MAX_DAYS) :
    spendUsdOnDay (run config costs spends) referenceNs =
      total (bookings costs spends) (dayOf referenceNs) := by
  rw [spendUsdOnDay, run_dailyUsd, find_accumulate]
  by_cases recorded : dayOf referenceNs ∈ (bookings costs spends).map Prod.fst
  · rw [if_pos ⟨recorded, kept⟩]
    rfl
  · rw [if_neg fun both => recorded both.1, total_unrecorded recorded]
    rfl

theorem CostTable.NonNegative.costUsd {costs : CostTable} (nonneg : costs.NonNegative)
    (tokens : UInt64) (model : String) : 0 ≤ costs.costUsd tokens model := by
  have rate_nonneg : 0 ≤ ((costs.rates.get model).or (costs.rates.get "*")).getD 0 := by
    cases listed : costs.rates.get model with
    | some rate => exact nonneg model rate listed
    | none =>
      cases wildcard : costs.rates.get "*" with
      | some rate => exact nonneg "*" rate wildcard
      | none => exact le_refl 0
  have tokens_nonneg : (0 : ℚ) ≤ tokens.toNat / 1000000 := by positivity
  exact mul_nonneg rate_nonneg tokens_nonneg

theorem total_nonneg {costs : CostTable} (nonneg : costs.NonNegative) (spends : List Spend)
    (day : Nat) : 0 ≤ total (bookings costs spends) day := by
  apply List.sum_nonneg
  intro amount listed
  obtain ⟨booking, kept, rfl⟩ := List.mem_map.mp listed
  obtain ⟨spend, _, rfl⟩ := List.mem_map.mp (List.mem_of_mem_filter kept)
  exact nonneg.costUsd spend.tokens spend.model

theorem total_mono {costs : CostTable} (nonneg : costs.NonNegative) (spends more : List Spend)
    (day : Nat) :
    total (bookings costs spends) day ≤ total (bookings costs (spends ++ more)) day := by
  have booked : bookings costs (spends ++ more) = bookings costs spends ++ bookings costs more :=
    List.map_append
  have added := total_nonneg nonneg more day
  rw [booked, total_append]
  linarith

/-! ## The scalar -/

theorem scalar_bounds (sensor : FinancialBudgetSensor) (nowNs : UInt64) :
    0 ≤ financialBudgetScalar sensor nowNs ∧ financialBudgetScalar sensor nowNs ≤ 1 := by
  unfold financialBudgetScalar
  split
  · exact ⟨le_refl 0, zero_le_one⟩
  · have low := le_max_left 0 (min (spendUsdOnDay sensor nowNs / sensor.config.dailyUsdLimit) 1)
    have high : max 0 (min (spendUsdOnDay sensor nowNs / sensor.config.dailyUsdLimit) 1) ≤ 1 :=
      max_le zero_le_one (min_le_right _ _)
    constructor
    · linarith
    · linarith

theorem scalar_antitone {sensor other : FinancialBudgetSensor} {nowNs : UInt64}
    (same : sensor.config = other.config)
    (more : spendUsdOnDay sensor nowNs ≤ spendUsdOnDay other nowNs) :
    financialBudgetScalar other nowNs ≤ financialBudgetScalar sensor nowNs := by
  rw [financialBudgetScalar, financialBudgetScalar, same]
  split
  · exact le_refl 0
  · rename_i positive
    have limit : 0 < other.config.dailyUsdLimit := not_le.mp positive
    have fraction : spendUsdOnDay sensor nowNs / other.config.dailyUsdLimit ≤
        spendUsdOnDay other nowNs / other.config.dailyUsdLimit := by
      gcongr
    have used := max_le_max_left 0 (min_le_min_right 1 fraction)
    linarith

/-- Whatever is recorded and in whatever order: the ledger holds the full sums of the
latest `MAX_DAYS` days recorded, and the scalar stays in the unit interval and, where no
cost is negative, does not rise with further records while the day is not displaced. -/
theorem ledger_exact (config : BudgetConfig) (costs : CostTable) (spends : List Spend) :
    (∀ day, find day (run config costs spends).dailyUsd =
        if day ∈ (bookings costs spends).map Prod.fst ∧
            later (bookings costs spends) day < MAX_DAYS then
          some (total (bookings costs spends) day)
        else none) ∧
      (∀ others, spends.Perm others →
        (run config costs others).dailyUsd = (run config costs spends).dailyUsd) ∧
      (∀ nowNs, 0 ≤ financialBudgetScalar (run config costs spends) nowNs ∧
        financialBudgetScalar (run config costs spends) nowNs ≤ 1) ∧
      (costs.NonNegative → ∀ more nowNs,
        later (bookings costs (spends ++ more)) (dayOf nowNs) < MAX_DAYS →
        financialBudgetScalar (run config costs (spends ++ more)) nowNs ≤
          financialBudgetScalar (run config costs spends) nowNs) := by
  refine ⟨?_, ?_, fun nowNs => scalar_bounds _ nowNs, ?_⟩
  · intro day
    rw [run_dailyUsd]
    exact find_accumulate MAX_DAYS (bookings costs spends) day
  · intro others perm
    rw [run_dailyUsd, run_dailyUsd]
    exact accumulate_perm MAX_DAYS (perm.symm.map _)
  · intro nonneg more nowNs kept
    have booked : bookings costs (spends ++ more) = bookings costs spends ++ bookings costs more :=
      List.map_append
    have kept_before : later (bookings costs spends) (dayOf nowNs) < MAX_DAYS :=
      lt_of_le_of_lt (later_mono _ _ _) (booked ▸ kept)
    apply scalar_antitone
    · rw [(run_costs config costs spends).1, (run_costs config costs (spends ++ more)).1]
    · rw [spend_of_kept kept_before, spend_of_kept kept]
      exact total_mono nonneg spends more (dayOf nowNs)

def flatCosts : CostTable := ⟨KeyedMap.empty.insert "*" 10⟩

theorem flatCosts_nonneg : flatCosts.NonNegative := by
  intro model rate listed
  rw [flatCosts, KeyedMap.get_insert] at listed
  split at listed
  · obtain rfl := Option.some.inj listed
    norm_num
  · cases listed

/-- One dollar an hour after the day begins. -/
def spendOn (day : UInt64) : Spend :=
  ⟨"anthropic", 100000, "model", day * 86400000000000 + 3600000000000⟩

/-- A day far ahead and the first one come before ninety others, and the first one and two
of the others again after them. -/
def scatteredSpends : List Spend :=
  ([200, 1] ++ (List.range 90).map (fun n => UInt64.ofNat (10 + n)) ++ [1, 50, 10]).map spendOn

/-- Of the 92 days recorded the first two are dropped, and the rest keep all of their spend. -/
theorem displaced_days_dropped :
    let ledger := (run ⟨10, 100⟩ flatCosts scatteredSpends).dailyUsd
    find 200 ledger = some 1 ∧ find 50 ledger = some 2 ∧ find 10 ledger = none ∧
    find 1 ledger = none ∧
    (run ⟨10, 100⟩ flatCosts scatteredSpends.reverse).dailyUsd = ledger ∧
    financialBudgetScalar (run ⟨10, 100⟩ flatCosts (scatteredSpends ++ [spendOn 50, spendOn 1]))
        (spendOn 50).timestampNs ≤
      financialBudgetScalar (run ⟨10, 100⟩ flatCosts scatteredSpends) (spendOn 50).timestampNs := by
  intro ledger
  obtain ⟨sums, order, -, falls⟩ := ledger_exact ⟨10, 100⟩ flatCosts scatteredSpends
  refine ⟨(sums 200).trans ?_, (sums 50).trans ?_, (sums 10).trans ?_, (sums 1).trans ?_,
    order _ (List.reverse_perm _).symm, falls flatCosts_nonneg _ _ ?_⟩
  all_goals decide +kernel

end FinancialBudget
