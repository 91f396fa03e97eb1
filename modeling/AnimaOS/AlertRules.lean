import AnimaOS.EdgeDetector
import AnimaOS.KeyedMap
import AnimaOS.Machine
import AnimaOS.PrometheusRender

/-!
# Alert rules and their events

The rule registry, the trackers beside it and `evaluate`, which advances the
tracker of each enabled rule. What a rule reports while it stays registered is
the edges of its condition, sampled at the evaluations that find it enabled.
-/

namespace AlertRules

open EdgeDetector KeyedList Machine PrometheusRender

universe u

/-! ## Rules -/

inductive MetricField where
  | taskSuccessRate
  | tasksFailed
  | gateInvokeRate
  | gateMeanValueScore
  | cortexFaultRate
  | cortexMeanLatencyMs
  | totalVetoes
  | sleepCycles
  | meanThermalLoad
  | meanMemoryPressure
  | meanFinancialBudget
  | totalTokensEmitted
  | routerModulations
  deriving DecidableEq, Repr

inductive ComparisonOp where
  | greaterThan
  | greaterThanOrEqual
  | lessThan
  | lessThanOrEqual
  deriving DecidableEq, Repr

inductive AlertSeverity where
  | info
  | warning
  | critical
  deriving DecidableEq, Repr

/-- The comparisons of the floats, and how a count becomes one. -/
structure Comparisons (F : Type u) where
  ofCount : Nat → F
  above : F → F → Bool
  atLeast : F → F → Bool
  below : F → F → Bool
  atMost : F → F → Bool

variable {F : Type u}

def ComparisonOp.evaluate (fl : Comparisons F) (op : ComparisonOp) (actual threshold : F) : Bool :=
  match op with
  | .greaterThan => fl.above actual threshold
  | .greaterThanOrEqual => fl.atLeast actual threshold
  | .lessThan => fl.below actual threshold
  | .lessThanOrEqual => fl.atMost actual threshold

structure AlertCondition (F : Type u) where
  field : MetricField
  op : ComparisonOp
  threshold : F
  deriving DecidableEq, Repr

structure AlertRule (F : Type u) where
  id : String
  description : String
  condition : AlertCondition F
  severity : AlertSeverity
  enabled : Bool
  deriving DecidableEq, Repr

/-! ## Trackers -/

inductive AlertState where
  | normal
  | firing
  deriving DecidableEq, Repr

def AlertState.isFiring (s : AlertState) : Bool := s = .firing

structure AlertStateTracker where
  ruleId : String
  state : AlertState
  consecutiveFiring : Nat
  totalFires : Nat
  deriving DecidableEq, Repr

inductive StateTransition where
  | newlyFiring
  | stillFiring
  | resolved
  | stillNormal
  deriving DecidableEq, Repr

namespace AlertStateTracker

def new (ruleId : String) : AlertStateTracker := ⟨ruleId, .normal, 0, 0⟩

def advance (t : AlertStateTracker) (conditionFires : Bool) :
    AlertStateTracker × StateTransition :=
  match t.state, conditionFires with
  | .normal, true =>
    ({ t with state := .firing, consecutiveFiring := 1, totalFires := t.totalFires + 1 },
      .newlyFiring)
  | .firing, true => ({ t with consecutiveFiring := t.consecutiveFiring + 1 }, .stillFiring)
  | .firing, false => ({ t with state := .normal, consecutiveFiring := 0 }, .resolved)
  | .normal, false => (t, .stillNormal)

end AlertStateTracker

/-! ## Evaluation -/

inductive AlertEventKind where
  | fired
  | resolved
  deriving DecidableEq, Repr

structure AlertEvent (F : Type u) where
  ruleId : String
  description : String
  kind : AlertEventKind
  severity : AlertSeverity
  field : MetricField
  actualValue : F
  threshold : F
  deriving DecidableEq, Repr

def extractField (fl : Comparisons F) (m : AgentMetrics F) : MetricField → F
  | .taskSuccessRate => m.taskSuccessRate
  | .tasksFailed => fl.ofCount m.tasksFailed
  | .gateInvokeRate => m.gateInvokeRate
  | .gateMeanValueScore => m.gateMeanValueScore
  | .cortexFaultRate => m.cortexFaultRate
  | .cortexMeanLatencyMs => m.cortexMeanLatencyMs
  | .totalVetoes => fl.ofCount (m.defenceVetoes + m.constitutionVetoes)
  | .sleepCycles => fl.ofCount m.sleepCycles
  | .meanThermalLoad => m.meanThermalLoad
  | .meanMemoryPressure => m.meanMemoryPressure
  | .meanFinancialBudget => m.meanFinancialBudget
  | .totalTokensEmitted => fl.ofCount m.totalTokensEmitted
  | .routerModulations => fl.ofCount m.routerModulations

def eventOf (actual : F) (rule : AlertRule F) (kind : AlertEventKind) : AlertEvent F :=
  ⟨rule.id, rule.description, kind, rule.severity, rule.condition.field, actual,
    rule.condition.threshold⟩

/-- A transition that is an edge is reported. -/
def StateTransition.kind : StateTransition → Option AlertEventKind
  | .newlyFiring => some .fired
  | .resolved => some .resolved
  | .stillFiring => none
  | .stillNormal => none

abbrev Trackers := List AlertStateTracker

abbrev tracker (trackers : Trackers) (id : String) : Option AlertStateTracker :=
  findKey AlertStateTracker.ruleId trackers id

/-- The tracker found under the id, or a new one behind the others, is advanced in place. -/
def advanceUnder (trackers : Trackers) (id : String) (fires : Bool) : Trackers × StateTransition :=
  match tracker trackers id with
  | some t =>
    (updateKey AlertStateTracker.ruleId id (fun t => (t.advance fires).1) trackers,
      (t.advance fires).2)
  | none =>
    let advanced := (AlertStateTracker.new id).advance fires
    (trackers ++ [advanced.1], advanced.2)

/-- The loop body of `evaluate`. -/
def evaluateRule (fl : Comparisons F) (m : AgentMetrics F)
    (acc : Trackers × List (AlertEvent F)) (rule : AlertRule F) :
    Trackers × List (AlertEvent F) :=
  if !rule.enabled then acc
  else
    let actual := extractField fl m rule.condition.field
    let fires := rule.condition.op.evaluate fl actual rule.condition.threshold
    let advanced := advanceUnder acc.1 rule.id fires
    (advanced.1, acc.2 ++ (advanced.2.kind.map (eventOf actual rule)).toList)

def evaluate (fl : Comparisons F) (m : AgentMetrics F) (rules : List (AlertRule F))
    (trackers : Trackers) : Trackers × List (AlertEvent F) :=
  rules.foldl (evaluateRule fl m) (trackers, [])

/-! ## The registry -/

inductive RegistryError where
  | alreadyExists (id : String)
  | notFound (id : String)
  | io (message : String)
  deriving DecidableEq, Repr

def RegistryError.display : RegistryError → String
  | .alreadyExists id => "rule already exists: " ++ id
  | .notFound id => "rule not found: " ++ id
  | .io message => "I/O error: " ++ message

/-- The rules stand under their own ids. -/
structure RegistryStore (F : Type u) where
  rules : KeyedMap String (AlertRule F)
  trackers : Trackers
  named : ∀ id rule, rules.get id = some rule → rule.id = id

def emptyStore : RegistryStore F where
  rules := KeyedMap.empty
  trackers := []
  named := fun _ _ found => nomatch found

/-- What the file system makes of a flush; a registry in memory never fails it. -/
abbrev Flush := Except String Unit

def flush (io : Flush) : Except RegistryError Unit := io.mapError RegistryError.io

def add (s : RegistryStore F) (rule : AlertRule F) (io : Flush) :
    RegistryStore F × Except RegistryError Unit :=
  if (s.rules.get rule.id).isSome then (s, .error (.alreadyExists rule.id))
  else
    ({ s with
        rules := s.rules.insert rule.id rule
        named := by
          intro id r found
          rw [KeyedMap.get_insert] at found
          split at found
          · next same => rw [same, Option.some.inj found]
          · exact s.named id r found },
      flush io)

def remove (s : RegistryStore F) (id : String) (io : Flush) :
    RegistryStore F × Except RegistryError (AlertRule F) :=
  match s.rules.get id with
  | none => (s, .error (.notFound id))
  | some rule =>
    ({ rules := s.rules.remove id
       trackers := s.trackers.filter fun t => t.ruleId ≠ id
       named := fun other r found => s.named other r (KeyedMap.get_of_remove found) },
      (flush io).map fun _ => rule)

def setEnabled (s : RegistryStore F) (id : String) (enabled : Bool) (io : Flush) :
    RegistryStore F × Except RegistryError Unit :=
  match found : s.rules.get id with
  | none => (s, .error (.notFound id))
  | some rule =>
    ({ s with
        rules := s.rules.insert id { rule with enabled }
        named := by
          intro other r listed
          rw [KeyedMap.get_insert] at listed
          split at listed
          · next same => rw [same, ← Option.some.inj listed]; exact s.named id rule found
          · exact s.named other r listed },
      flush io)

def updateTrackers (s : RegistryStore F) (trackers : Trackers) (io : Flush) :
    RegistryStore F × Except RegistryError Unit :=
  ({ s with trackers }, flush io)

def rulesOwned (s : RegistryStore F) : List (AlertRule F) :=
  s.rules.values.mergeSort fun a b => a.id ≤ b.id

/-! ## Requests -/

/-- An evaluation pass is written back by `update_trackers`. -/
inductive Request (F : Type u) where
  | add (rule : AlertRule F) (io : Flush)
  | remove (id : String) (io : Flush)
  | setEnabled (id : String) (enabled : Bool) (io : Flush)
  | evaluate (metrics : AgentMetrics F) (io : Flush)

structure Response (F : Type u) where
  answer : Except RegistryError Unit
  events : List (AlertEvent F)

def step (fl : Comparisons F) (s : RegistryStore F) : Request F → RegistryStore F × Response F
  | .add rule io =>
    let added := AlertRules.add s rule io
    (added.1, ⟨added.2, []⟩)
  | .remove id io =>
    let removed := AlertRules.remove s id io
    (removed.1, ⟨removed.2.map fun _ => (), []⟩)
  | .setEnabled id enabled io =>
    let changed := AlertRules.setEnabled s id enabled io
    (changed.1, ⟨changed.2, []⟩)
  | .evaluate metrics io =>
    let evaluated := AlertRules.evaluate fl metrics (rulesOwned s) s.trackers
    let updated := updateTrackers s evaluated.1 io
    (updated.1, ⟨updated.2, evaluated.2⟩)

abbrev AlertCall (F : Type u) := Call (RegistryStore F) (Request F) (Response F)

/-! ## One rule -/

def condition (fl : Comparisons F) (m : AgentMetrics F) (rule : AlertRule F) : Bool :=
  rule.condition.op.evaluate fl (extractField fl m rule.condition.field) rule.condition.threshold

def AlertEvent.isFired (e : AlertEvent F) : Bool := e.kind = .fired

def firing (trackers : Trackers) (id : String) : Bool :=
  (tracker trackers id).any fun t => t.state.isFiring

def totalFires (trackers : Trackers) (id : String) : Nat :=
  ((tracker trackers id).map AlertStateTracker.totalFires).getD 0

/-- A tracker is an edge detector that counts the rises. -/
theorem advance_spec (t : AlertStateTracker) (fires : Bool) :
    (t.advance fires).1.ruleId = t.ruleId ∧
    (t.advance fires).1.state.isFiring = fires ∧
    (t.advance fires).2.kind.toList.map (fun k => decide (k = .fired)) =
      edges t.state.isFiring [fires] ∧
    (t.advance fires).1.totalFires =
      t.totalFires + (edges t.state.isFiring [fires]).count true := by
  obtain ⟨ruleId, state, consecutiveFiring, totalFires⟩ := t
  cases state <;> cases fires <;>
    simp [AlertStateTracker.advance, AlertState.isFiring, StateTransition.kind, edges]

theorem advanceUnder_tracker (trackers : Trackers) (id : String) (fires : Bool) (other : String) :
    tracker (advanceUnder trackers id fires).1 other =
      if other = id then
        some (((tracker trackers id).getD (AlertStateTracker.new id)).advance fires).1
      else tracker trackers other := by
  unfold advanceUnder
  cases found : tracker trackers id with
  | some t =>
    have keeps : ∀ a : AlertStateTracker, (a.advance fires).1.ruleId = a.ruleId :=
      fun a => (advance_spec a fires).1
    have updated := findKey_updateKey AlertStateTracker.ruleId id keeps trackers other
    simpa [tracker, found] using updated
  | none =>
    have named : ((AlertStateTracker.new id).advance fires).1.ruleId = id :=
      (advance_spec _ fires).1
    by_cases same : other = id
    · subst same
      simp only [tracker, findKey, List.find?_append] at found ⊢
      simp [found, named]
    · have apart : ¬ id = other := fun h => same h.symm
      simp [tracker, findKey, List.find?_append, named, same, apart]

/-- The report of an advance is the edge, if any, of the tracker that was there. -/
theorem advanceUnder_kind (trackers : Trackers) (id : String) (fires : Bool) :
    (advanceUnder trackers id fires).2.kind.toList.map (fun k => decide (k = .fired)) =
      edges (firing trackers id) [fires] := by
  unfold advanceUnder firing
  cases found : tracker trackers id with
  | some t => simpa using (advance_spec t fires).2.2.1
  | none => simpa [AlertState.isFiring, AlertStateTracker.new] using
      (advance_spec (AlertStateTracker.new id) fires).2.2.1

theorem advanceUnder_firing (trackers : Trackers) (id : String) (fires : Bool) (other : String) :
    firing (advanceUnder trackers id fires).1 other =
      if other = id then fires else firing trackers other := by
  unfold firing
  rw [advanceUnder_tracker]
  split
  · simpa using (advance_spec _ fires).2.1
  · rfl

theorem advanceUnder_totalFires (trackers : Trackers) (id : String) (fires : Bool)
    (other : String) :
    totalFires (advanceUnder trackers id fires).1 other =
      totalFires trackers other +
        if other = id then (edges (firing trackers id) [fires]).count true else 0 := by
  unfold totalFires firing
  rw [advanceUnder_tracker]
  by_cases same : other = id
  · subst same
    cases found : tracker trackers other with
    | some t => simpa using (advance_spec t fires).2.2.2
    | none => simpa [AlertState.isFiring, AlertStateTracker.new] using
        (advance_spec (AlertStateTracker.new other) fires).2.2.2
  · simp [same]

/-! ## One evaluation -/

/-- Whether the events of a rule are rises or falls. -/
def kindsOf (id : String) (events : List (AlertEvent F)) : List Bool :=
  (events.filter fun e => e.ruleId = id).map AlertEvent.isFired

/-- The condition of a rule, where the pass finds it enabled. -/
def sampled (fl : Comparisons F) (m : AgentMetrics F) (rules : List (AlertRule F)) (id : String) :
    List Bool :=
  (rules.filter fun r => r.enabled && decide (r.id = id)).map (condition fl m)

/-- The reports about a rule, and its tracker, follow its samples. -/
structure Follows (id : String) (before after : Trackers) (kinds samples : List Bool) :
    Prop where
  reports : kinds = edges (firing before id) samples
  levels : firing after id = level (firing before id) samples
  rises : totalFires after id = totalFires before id + kinds.count true

theorem follows_refl (id : String) (trackers : Trackers) : Follows id trackers trackers [] [] :=
  ⟨rfl, rfl, rfl⟩

theorem Follows.append {id : String} {t₀ t₁ t₂ : Trackers} {k₁ k₂ s₁ s₂ : List Bool}
    (first : Follows id t₀ t₁ k₁ s₁) (second : Follows id t₁ t₂ k₂ s₂) :
    Follows id t₀ t₂ (k₁ ++ k₂) (s₁ ++ s₂) where
  reports := by rw [edges_append, first.reports, second.reports, first.levels]
  levels := by rw [level_append, second.levels, first.levels]
  rises := by
    rw [second.rises, first.rises, List.count_append]
    omega

theorem kindsOf_append (id : String) (xs ys : List (AlertEvent F)) :
    kindsOf id (xs ++ ys) = kindsOf id xs ++ kindsOf id ys := by
  simp [kindsOf]

theorem kindsOf_report (id : String) (actual : F) (rule : AlertRule F)
    (kind : Option AlertEventKind) :
    kindsOf id (kind.map (eventOf actual rule)).toList =
      if rule.id = id then kind.toList.map fun k => decide (k = .fired) else [] := by
  cases kind with
  | none => simp [kindsOf]
  | some k => by_cases same : rule.id = id <;> simp [kindsOf, eventOf, AlertEvent.isFired, same]

/-- One pass of the loop appends the events of its rule. -/
theorem evaluateRule_follows (fl : Comparisons F) (m : AgentMetrics F) (rule : AlertRule F)
    (trackers : Trackers) (id : String) :
    ∃ events after, (∀ sofar, evaluateRule fl m (trackers, sofar) rule = (after, sofar ++ events)) ∧
      Follows id trackers after (kindsOf id events) (sampled fl m [rule] id) := by
  cases enabled : rule.enabled with
  | false =>
    refine ⟨[], trackers, fun sofar => by simp [evaluateRule, enabled], ?_⟩
    simpa [sampled, enabled, kindsOf] using follows_refl id trackers
  | true =>
    have fires := advanceUnder_firing trackers rule.id (condition fl m rule) id
    have total := advanceUnder_totalFires trackers rule.id (condition fl m rule) id
    have kind := advanceUnder_kind trackers rule.id (condition fl m rule)
    refine ⟨((advanceUnder trackers rule.id (condition fl m rule)).2.kind.map
        (eventOf (extractField fl m rule.condition.field) rule)).toList,
      (advanceUnder trackers rule.id (condition fl m rule)).1,
      fun sofar => by simp only [evaluateRule, enabled]; rfl, ?_⟩
    rw [kindsOf_report]
    by_cases same : rule.id = id
    · subst same
      simp only [if_true] at fires total ⊢
      refine ⟨?_, ?_, ?_⟩
      · simpa [sampled, enabled] using kind
      · simpa [sampled, enabled, level] using fires
      · exact total.trans (congrArg (fun l => _ + List.count true l) kind.symm)
    · have apart : ¬ id = rule.id := fun h => same h.symm
      simp only [if_neg apart, if_neg same, Nat.add_zero] at fires total ⊢
      refine ⟨?_, ?_, ?_⟩
      · simp [sampled, same, edges]
      · simpa [sampled, same, level] using fires
      · exact total

theorem evaluate_follows (fl : Comparisons F) (m : AgentMetrics F) (rules : List (AlertRule F))
    (trackers : Trackers) (sofar : List (AlertEvent F)) (id : String) :
    ∃ events, (rules.foldl (evaluateRule fl m) (trackers, sofar)).2 = sofar ++ events ∧
      Follows id trackers (rules.foldl (evaluateRule fl m) (trackers, sofar)).1
        (kindsOf id events) (sampled fl m rules id) := by
  induction rules generalizing trackers sofar with
  | nil => exact ⟨[], (List.append_nil _).symm, follows_refl id trackers⟩
  | cons rule rest ih =>
    obtain ⟨first, after, same, follows⟩ := evaluateRule_follows fl m rule trackers id
    obtain ⟨later, reported, tail⟩ := ih after (sofar ++ first)
    refine ⟨first ++ later, ?_, ?_⟩
    · rw [List.foldl_cons, same, reported, List.append_assoc]
    · have split : sampled fl m (rule :: rest) id =
          sampled fl m [rule] id ++ sampled fl m rest id := by
        simp only [sampled, ← List.map_append, ← List.filter_append, List.singleton_append]
      rw [List.foldl_cons, same, kindsOf_append, split]
      exact follows.append tail

/-- An event of a pass tells of an enabled rule and of the sample that it made. -/
structure Tells (fl : Comparisons F) (m : AgentMetrics F) (rule : AlertRule F) (e : AlertEvent F) :
    Prop where
  enabled : rule.enabled = true
  event : e = eventOf (extractField fl m rule.condition.field) rule e.kind
  sample : e.isFired = condition fl m rule

theorem evaluateRule_tells (fl : Comparisons F) (m : AgentMetrics F) (rule : AlertRule F)
    (trackers : Trackers) (sofar : List (AlertEvent F)) {e : AlertEvent F}
    (listed : e ∈ (evaluateRule fl m (trackers, sofar) rule).2) :
    e ∈ sofar ∨ Tells fl m rule e := by
  cases enabled : rule.enabled with
  | false => exact Or.inl (by simpa [evaluateRule, enabled] using listed)
  | true =>
    have kind := advanceUnder_kind trackers rule.id (condition fl m rule)
    simp only [evaluateRule, enabled, Bool.not_true, Bool.false_eq_true, if_false,
      List.mem_append, Option.mem_toList, Option.map_eq_some_iff] at listed
    rcases listed with before | ⟨k, reported, rfl⟩
    · exact Or.inl before
    · refine Or.inr ⟨enabled, rfl, ?_⟩
      have shown : (advanceUnder trackers rule.id (condition fl m rule)).2.kind = some k := reported
      rw [shown] at kind
      simp only [Option.toList_some, List.map_cons, List.map_nil, edges] at kind
      split at kind
      · cases kind
      · exact (List.cons.inj kind).1

theorem evaluate_tells (fl : Comparisons F) (m : AgentMetrics F) (rules : List (AlertRule F))
    (trackers : Trackers) (sofar : List (AlertEvent F)) {e : AlertEvent F}
    (listed : e ∈ (rules.foldl (evaluateRule fl m) (trackers, sofar)).2) :
    e ∈ sofar ∨ ∃ rule ∈ rules, Tells fl m rule e := by
  induction rules generalizing trackers sofar with
  | nil => exact Or.inl listed
  | cons rule rest ih =>
    rcases ih _ _ listed with before | ⟨other, inside, tells⟩
    · rcases evaluateRule_tells fl m rule trackers sofar before with earlier | tells
      · exact Or.inl earlier
      · exact Or.inr ⟨rule, List.mem_cons_self, tells⟩
    · exact Or.inr ⟨other, List.mem_cons_of_mem rule inside, tells⟩

/-! ## The registry's rules -/

theorem mem_rulesOwned {s : RegistryStore F} {rule : AlertRule F} :
    rule ∈ rulesOwned s ↔ s.rules.get rule.id = some rule := by
  have listed : rule ∈ rulesOwned s ↔ rule ∈ s.rules.values :=
    (List.mergeSort_perm s.rules.values _).mem_iff
  rw [listed, KeyedMap.mem_values_get]
  constructor
  · rintro ⟨id, found⟩
    rwa [s.named id rule found]
  · exact fun found => ⟨rule.id, found⟩

theorem rulesOwned_filter (s : RegistryStore F) (id : String) :
    (rulesOwned s).filter (fun r => r.id = id) = (s.rules.get id).toList := by
  have sorted : ((rulesOwned s).filter fun r => r.id = id).Perm (s.rules.get id).toList := by
    rw [← KeyedMap.values_filter s.named id]
    exact (List.mergeSort_perm s.rules.values _).filter _
  cases found : s.rules.get id with
  | none => rw [found] at sorted; exact List.perm_nil.mp sorted
  | some rule => rw [found] at sorted; exact List.perm_singleton.mp sorted

/-- The samples that a call takes of the rule under an id. -/
def samplesOf (fl : Comparisons F) (id : String) (c : AlertCall F) : List Bool :=
  match c.request with
  | .evaluate m _ =>
    ((c.before.rules.get id).toList.filter AlertRule.enabled).map (condition fl m)
  | _ => []

theorem sampled_rulesOwned (fl : Comparisons F) (m : AgentMetrics F) (s : RegistryStore F)
    (id : String) :
    sampled fl m (rulesOwned s) id =
      ((s.rules.get id).toList.filter AlertRule.enabled).map (condition fl m) := by
  rw [sampled, ← rulesOwned_filter s id, List.filter_filter]

/-! ## What the registry's calls leave alone -/

theorem add_spec (s : RegistryStore F) (rule : AlertRule F) (io : Flush) :
    (add s rule io).1.trackers = s.trackers ∧
    ∀ id, (s.rules.get id).isSome → ((add s rule io).1.rules.get id).isSome := by
  unfold add
  split
  · exact ⟨rfl, fun id present => present⟩
  · refine ⟨rfl, fun id present => ?_⟩
    simp only [KeyedMap.get_insert]
    split
    · rfl
    · exact present

theorem setEnabled_spec (s : RegistryStore F) (name : String) (enabled : Bool) (io : Flush) :
    (setEnabled s name enabled io).1.trackers = s.trackers ∧
    ∀ id, (s.rules.get id).isSome → ((setEnabled s name enabled io).1.rules.get id).isSome := by
  unfold setEnabled
  split
  · exact ⟨rfl, fun id present => present⟩
  · refine ⟨rfl, fun id present => ?_⟩
    simp only [KeyedMap.get_insert]
    split
    · rfl
    · exact present

theorem remove_others (s : RegistryStore F) {name id : String} (apart : id ≠ name) (io : Flush) :
    tracker (remove s name io).1.trackers id = tracker s.trackers id ∧
    (remove s name io).1.rules.get id = s.rules.get id := by
  unfold remove
  split
  · exact ⟨rfl, rfl⟩
  · exact ⟨findKey_remove AlertStateTracker.ruleId apart s.trackers,
      KeyedMap.get_remove_other apart s.rules⟩

/-! ## Runs -/

theorem step_follows (fl : Comparisons F) (s : RegistryStore F) {r : Request F} {id : String}
    (kept : ∀ io, r ≠ .remove id io) :
    Follows id s.trackers (step fl s r).1.trackers (kindsOf id (step fl s r).2.events)
      (samplesOf fl id ⟨s, r, (step fl s r).2⟩) := by
  cases r with
  | add rule io =>
    have same := (add_spec s rule io).1
    simpa [step, kindsOf, samplesOf, same] using follows_refl id s.trackers
  | setEnabled name enabled io =>
    have same := (setEnabled_spec s name enabled io).1
    simpa [step, kindsOf, samplesOf, same] using follows_refl id s.trackers
  | remove name io =>
    have apart : id ≠ name := fun same => kept io (same ▸ rfl)
    have same := (remove_others s apart io).1
    exact ⟨rfl, by simp [step, firing, same, level, samplesOf],
      by simp [step, totalFires, same, kindsOf]⟩
  | evaluate m io =>
    obtain ⟨events, reported, follows⟩ :=
      evaluate_follows fl m (rulesOwned s) s.trackers [] id
    rw [sampled_rulesOwned] at follows
    simpa [step, updateTrackers, evaluate, samplesOf, reported] using follows

theorem run_follows (fl : Comparisons F) (s : RegistryStore F) {requests : List (Request F)}
    {id : String} (kept : ∀ r ∈ requests, ∀ io, r ≠ .remove id io) :
    Follows id s.trackers (final (step fl) s requests).trackers
      (kindsOf id ((trace (step fl) s requests).flatMap fun c => c.response.events))
      ((trace (step fl) s requests).flatMap (samplesOf fl id)) := by
  induction requests generalizing s with
  | nil => exact follows_refl id s.trackers
  | cons r rest ih =>
    have first := step_follows fl s (kept r List.mem_cons_self)
    have later := ih (step fl s r).1 fun q listed => kept q (List.mem_cons_of_mem r listed)
    simpa [trace, final, kindsOf_append] using first.append later

/-- Every tracker belongs to a rule that is registered. -/
def Covered (s : RegistryStore F) : Prop :=
  ∀ id, (tracker s.trackers id).isSome → (s.rules.get id).isSome

theorem evaluate_tracked (fl : Comparisons F) (m : AgentMetrics F) (rules : List (AlertRule F))
    (acc : Trackers × List (AlertEvent F)) {id : String}
    (tracked : (tracker (rules.foldl (evaluateRule fl m) acc).1 id).isSome) :
    (tracker acc.1 id).isSome ∨ ∃ rule ∈ rules, rule.id = id := by
  induction rules generalizing acc with
  | nil => exact Or.inl tracked
  | cons rule rest ih =>
    rcases ih _ tracked with before | ⟨other, listed, named⟩
    · by_cases same : rule.id = id
      · exact Or.inr ⟨rule, List.mem_cons_self, same⟩
      · left
        unfold evaluateRule at before
        split at before
        · exact before
        · simpa [advanceUnder_tracker, Ne.symm same] using before
    · exact Or.inr ⟨other, List.mem_cons_of_mem rule listed, named⟩

/-- Of a covered store a removal leaves no tracker under the id, whether or not it finds it. -/
theorem remove_forgets {s : RegistryStore F} (covered : Covered s) (name : String) (io : Flush) :
    tracker (remove s name io).1.trackers name = none := by
  unfold remove
  split
  · next absent =>
    cases found : tracker s.trackers name with
    | none => rfl
    | some t => simpa [absent, found] using covered name
  · simp [tracker, findKey, List.find?_filter]

theorem step_covered (fl : Comparisons F) (s : RegistryStore F) (r : Request F)
    (covered : Covered s) : Covered (step fl s r).1 := by
  intro id tracked
  cases r with
  | add rule io =>
    obtain ⟨same, kept⟩ := add_spec s rule io
    simp only [step, same] at tracked ⊢
    exact kept id (covered id tracked)
  | setEnabled name enabled io =>
    obtain ⟨same, kept⟩ := setEnabled_spec s name enabled io
    simp only [step, same] at tracked ⊢
    exact kept id (covered id tracked)
  | remove name io =>
    simp only [step] at tracked ⊢
    by_cases same : id = name
    · simp [same, remove_forgets covered name io] at tracked
    · obtain ⟨kept, rule⟩ := remove_others s same io
      rw [kept] at tracked
      rw [rule]
      exact covered id tracked
  | evaluate m io =>
    simp only [step, updateTrackers, evaluate] at tracked ⊢
    rcases evaluate_tracked fl m (rulesOwned s) _ tracked with before | ⟨rule, listed, rfl⟩
    · exact covered id before
    · rw [mem_rulesOwned.mp listed]
      rfl

/-- While a rule is not removed, the events about it are the edges of its condition as sampled by
the evaluations that found it enabled: they alternate, and its tracker keeps the level and counts
the rises. Whatever else is registered, removed or evaluated plays no part, each event tells of the
rule as it stood, and a removal forgets the tracker. -/
theorem alert_events_are_edges (fl : Comparisons F) (before stretch : List (Request F))
    (id : String) (kept : ∀ r ∈ stretch, ∀ io, r ≠ .remove id io) :
    let s := final (step fl) emptyStore before
    let calls := trace (step fl) s stretch
    let kinds := kindsOf id (calls.flatMap fun c => c.response.events)
    Follows id s.trackers (final (step fl) s stretch).trackers kinds
      (calls.flatMap (samplesOf fl id)) ∧
    (firing s.trackers id :: kinds).IsChain (· ≠ ·) ∧
    (∀ c ∈ calls, ∀ m io, c.request = .evaluate m io → ∀ e ∈ c.response.events,
      ∃ rule, c.before.rules.get e.ruleId = some rule ∧ Tells fl m rule e) ∧
    ∀ io, tracker (step fl s (.remove id io)).1.trackers id = none := by
  intro s calls kinds
  have follows : Follows id s.trackers (final (step fl) s stretch).trackers kinds
      (calls.flatMap (samplesOf fl id)) := run_follows fl s kept
  have covered : Covered s :=
    final_invariant (fun t r => step_covered fl t r)
      (fun id tracked => by simp [emptyStore, tracker, findKey] at tracked) before
  refine ⟨follows, ?_, ?_, remove_forgets covered id⟩
  · rw [follows.reports]
    exact edges_alternate _ _
  · intro c listed m io asked e reported
    obtain ⟨-, -, -, -, response⟩ := mem_trace listed
    rw [response, asked] at reported
    rcases evaluate_tells fl m (rulesOwned c.before) c.before.trackers [] reported with
      none | ⟨rule, inside, tells⟩
    · cases none
    · refine ⟨rule, ?_, tells⟩
      have named : e.ruleId = rule.id := by rw [tells.event]; rfl
      rw [named]
      exact mem_rulesOwned.mp inside

def plainCounts : Comparisons Nat where
  ofCount := id
  above := fun a b => b < a
  atLeast := fun a b => b ≤ a
  below := fun a b => a < b
  atMost := fun a b => a ≤ b

def tokenRule : AlertRule Nat :=
  ⟨"tokens", "too many tokens", ⟨.totalTokensEmitted, .greaterThan, 100⟩, .warning, true⟩

def tokenMetrics (tokens : Nat) : AgentMetrics Nat :=
  ⟨"a", 0, 0, 0, 0, tokens, 0, 0, 0, 0, 0, 0, 0, 0, 0, 0, 0, 0, 0, 0, 0, 0, 0, 0, 0, 0, 0, 0, 0,
    0, 0, 0, 0, 0⟩

theorem alert_events_are_edges_tokens :
    let s := final (step plainCounts) emptyStore [.add tokenRule (.ok ())]
    let stretch := [Request.evaluate (tokenMetrics 200) (.ok ()),
      .evaluate (tokenMetrics 300) (.ok ()), .evaluate (tokenMetrics 50) (.ok ())]
    (firing s.trackers "tokens" :: kindsOf "tokens"
      ((trace (step plainCounts) s stretch).flatMap fun c => c.response.events)).IsChain (· ≠ ·) :=
  (alert_events_are_edges plainCounts [.add tokenRule (.ok ())]
    [.evaluate (tokenMetrics 200) (.ok ()), .evaluate (tokenMetrics 300) (.ok ()),
      .evaluate (tokenMetrics 50) (.ok ())] "tokens" (by simp)).2.1

end AlertRules
