import Mathlib
import AnimaOS.CortexBridge
import AnimaOS.MotivatedGate

/-!
# The thalamic router

Routes that pass `validate_route`, the router made of three of them, and the
modulation that homeostatic signals work on its choice. A modulated choice is
never above the one asked for, sinks as stress rises, and can be read back from
the audit log.
-/

namespace TierRouting

open CortexBridge MotivatedGate

/-! ## Routes -/

inductive ModelSelector where
  | cheapLocal
  | midTier
  | frontier
  deriving DecidableEq, Repr

def ModelSelector.asStr : ModelSelector → String
  | .cheapLocal => "cheap-local"
  | .midTier => "mid-tier"
  | .frontier => "frontier"

/-- A route with the model that serves it. -/
structure TierRoute extends Route where
  model : ModelSelector
  deriving DecidableEq, Repr

inductive RouteError where
  | emptyRouteId
  | identityMemoryDisabled (routeId : Text)
  | emptyToolName (routeId : Text) (index : Nat)
  | zeroMaxTurns (routeId : Text)
  | zeroMaxToolCalls (routeId : Text)
  | unknownTool (routeId toolName : Text)
  deriving DecidableEq, Repr

/-- The loop over the tool names, from position `index` on. -/
def validateTools (routeId : Text) (knownTools : List Text) :
    Nat → List Text → Except RouteError Unit
  | _, [] => .ok ()
  | index, toolName :: rest =>
    if toolName = [] then .error (.emptyToolName routeId index)
    else if knownTools ≠ [] ∧ ¬ knownTools.contains toolName then
      .error (.unknownTool routeId toolName)
    else validateTools routeId knownTools (index + 1) rest

def validateRoute (route : TierRoute) (knownTools : List Text) : Except RouteError Unit :=
  if route.id = [] then .error .emptyRouteId
  else if route.memoryScope.identity = false then .error (.identityMemoryDisabled route.id)
  else
    match validateTools route.id knownTools 0 route.toolScope.allowedTools with
    | .error e => .error e
    | .ok () =>
      if route.termination.maxTurns = 0 then .error (.zeroMaxTurns route.id)
      else if route.termination.maxToolCalls = 0 then .error (.zeroMaxToolCalls route.id)
      else .ok ()

structure Valid (knownTools : List Text) (route : TierRoute) : Prop where
  named : route.id ≠ []
  identity : route.memoryScope.identity = true
  tools : ∀ tool ∈ route.toolScope.allowedTools,
    tool ≠ [] ∧ (knownTools ≠ [] → tool ∈ knownTools)
  turns : 0 < route.termination.maxTurns
  calls : 0 < route.termination.maxToolCalls

theorem validateTools_ok (routeId : Text) (knownTools : List Text) (index : Nat)
    (tools : List Text) :
    validateTools routeId knownTools index tools = .ok () ↔
      ∀ tool ∈ tools, tool ≠ [] ∧ (knownTools ≠ [] → tool ∈ knownTools) := by
  induction tools generalizing index with
  | nil => simp [validateTools]
  | cons tool rest ih =>
    rw [validateTools]
    by_cases empty : tool = []
    · simp [empty]
    simp only [List.contains_iff_mem]
    by_cases unknown : knownTools ≠ [] ∧ tool ∉ knownTools
    · simp only [if_neg empty, if_pos unknown, List.forall_mem_cons]
      exact ⟨nofun, fun good => absurd (good.1.2 unknown.1) unknown.2⟩
    · rw [if_neg empty, if_neg unknown, ih, List.forall_mem_cons]
      have known : knownTools ≠ [] → tool ∈ knownTools := fun some => by
        by_contra absent
        exact unknown ⟨some, absent⟩
      exact ⟨fun later => ⟨⟨empty, known⟩, later⟩, And.right⟩

theorem validateRoute_ok {route : TierRoute} {knownTools : List Text} :
    validateRoute route knownTools = .ok () ↔ Valid knownTools route := by
  have tools := validateTools_ok route.id knownTools 0 route.toolScope.allowedTools
  unfold validateRoute
  constructor
  · intro accepted
    split at accepted
    · cases accepted
    next named =>
    split at accepted
    · cases accepted
    next identity =>
    split at accepted
    · cases accepted
    next checked =>
    split at accepted
    · cases accepted
    next turns =>
    split at accepted
    · cases accepted
    next calls =>
    exact ⟨named, by simpa using identity, tools.mp checked, Nat.pos_of_ne_zero turns,
      Nat.pos_of_ne_zero calls⟩
  · intro valid
    have turns : route.termination.maxTurns ≠ 0 := Nat.ne_of_gt valid.turns
    have calls : route.termination.maxToolCalls ≠ 0 := Nat.ne_of_gt valid.calls
    simp [valid.named, valid.identity, tools.mpr valid.tools, turns, calls]

/-! ## The router -/

/-- Three routes that have passed validation against the same tools. -/
structure StaticRouter where
  cheapLocal : TierRoute
  midTier : TierRoute
  frontier : TierRoute
  knownTools : List Text
  cheapLocalValid : Valid knownTools cheapLocal
  midTierValid : Valid knownTools midTier
  frontierValid : Valid knownTools frontier

def StaticRouter.new (cheapLocal midTier frontier : TierRoute) (knownTools : List Text) :
    Except RouteError StaticRouter :=
  match cheap : validateRoute cheapLocal knownTools with
  | .error e => .error e
  | .ok () =>
    match mid : validateRoute midTier knownTools with
    | .error e => .error e
    | .ok () =>
      match top : validateRoute frontier knownTools with
      | .error e => .error e
      | .ok () =>
        .ok ⟨cheapLocal, midTier, frontier, knownTools, validateRoute_ok.mp cheap,
          validateRoute_ok.mp mid, validateRoute_ok.mp top⟩

theorem StaticRouter.new_ok {cheapLocal midTier frontier : TierRoute} {knownTools : List Text}
    (cheap : Valid knownTools cheapLocal) (mid : Valid knownTools midTier)
    (top : Valid knownTools frontier) :
    StaticRouter.new cheapLocal midTier frontier knownTools =
      .ok ⟨cheapLocal, midTier, frontier, knownTools, cheap, mid, top⟩ := by
  rw [StaticRouter.new]
  split
  · rename_i e refused
    rw [validateRoute_ok.mpr cheap] at refused
    cases refused
  · split
    · rename_i e refused
      rw [validateRoute_ok.mpr mid] at refused
      cases refused
    · split
      · rename_i e refused
        rw [validateRoute_ok.mpr top] at refused
        cases refused
      · rfl

def resolve (router : StaticRouter) : CostClass → TierRoute
  | .cheapLocal => router.cheapLocal
  | .midTier => router.midTier
  | .frontier => router.frontier

theorem resolve_valid (router : StaticRouter) (c : CostClass) :
    Valid router.knownTools (resolve router c) := by
  cases c with
  | cheapLocal => exact router.cheapLocalValid
  | midTier => exact router.midTierValid
  | frontier => exact router.frontierValid

def coreTools : List Text := ["clock".toList, "echo".toList]

def builtInTools : List Text := ["clock".toList, "echo".toList, "text-io".toList]

def defaultCheapLocal : TierRoute where
  id := "cheap-local".toList
  model := .cheapLocal
  toolScope := ⟨"core".toList, coreTools⟩
  memoryScope := ⟨true, true, false, false, false⟩
  promptScaffold := ⟨"[cheap-local] ".toList, []⟩
  termination := ⟨3, 3⟩

def defaultMidTier : TierRoute where
  id := "mid-tier".toList
  model := .midTier
  toolScope := ⟨"standard".toList, builtInTools⟩
  memoryScope := ⟨true, true, true, false, false⟩
  promptScaffold := ⟨"[mid-tier] ".toList, []⟩
  termination := ⟨8, 8⟩

def defaultFrontier : TierRoute where
  id := "frontier".toList
  model := .frontier
  toolScope := ⟨"full".toList, builtInTools⟩
  memoryScope := ⟨true, true, true, true, false⟩
  promptScaffold := ⟨"[frontier] ".toList, []⟩
  termination := ⟨20, 20⟩

theorem default_routes_valid :
    Valid builtInTools defaultCheapLocal ∧ Valid builtInTools defaultMidTier ∧
      Valid builtInTools defaultFrontier := by
  refine ⟨?_, ?_, ?_⟩ <;> exact validateRoute_ok.mp (by decide)

def StaticRouter.withDefaults : StaticRouter :=
  ⟨defaultCheapLocal, defaultMidTier, defaultFrontier, builtInTools, default_routes_valid.1,
    default_routes_valid.2.1, default_routes_valid.2.2⟩

/-- They pass the validation of the constructor. -/
theorem StaticRouter.new_defaults :
    StaticRouter.new defaultCheapLocal defaultMidTier defaultFrontier builtInTools =
      .ok StaticRouter.withDefaults :=
  StaticRouter.new_ok default_routes_valid.1 default_routes_valid.2.1 default_routes_valid.2.2

/-! ## Modulation -/

/-- A decision with the formatter of its two-digit floats applied. -/
structure ModulationDecision where
  requestedRoute : TierRoute
  effectiveRoute : TierRoute
  wasModulated : Bool
  modulationReason : Option Text
  deriving DecidableEq, Repr

section Modulation

variable (fixed2 : ℚ → Text)

def severeReason (signals : HomeostaticSignals) : Text :=
  "severe resource pressure (financial_budget=".toList ++ fixed2 signals.financialBudget ++
    ", power_budget=".toList ++ fixed2 signals.powerBudget ++ ") — forced to cheap-local".toList

def moderateReason (signals : HomeostaticSignals) : Text :=
  "moderate resource pressure (financial_budget=".toList ++ fixed2 signals.financialBudget ++
    ", power_budget=".toList ++ fixed2 signals.powerBudget ++
    ") — downgraded frontier → mid-tier".toList

def thermalReason (signals : HomeostaticSignals) : Text :=
  "thermal stress (thermal_load=".toList ++ fixed2 signals.thermalLoad ++
    ") — downgraded frontier → mid-tier".toList

def Severe (signals : HomeostaticSignals) : Prop :=
  signals.financialBudget < 20 / 100 ∨ signals.powerBudget < 20 / 100

def Moderate (signals : HomeostaticSignals) : Prop :=
  signals.financialBudget < 40 / 100 ∨ signals.powerBudget < 40 / 100

def Hot (signals : HomeostaticSignals) : Prop := signals.thermalLoad > 80 / 100

instance (signals : HomeostaticSignals) : Decidable (Severe signals) :=
  inferInstanceAs (Decidable (_ ∨ _))

instance (signals : HomeostaticSignals) : Decidable (Moderate signals) :=
  inferInstanceAs (Decidable (_ ∨ _))

instance (signals : HomeostaticSignals) : Decidable (Hot signals) :=
  inferInstanceAs (Decidable (_ < _))

def resolveWithModulation (router : StaticRouter) (costClass : CostClass)
    (signals : HomeostaticSignals) : ModulationDecision :=
  let requestedRoute := resolve router costClass
  if Severe signals then
    let effectiveRoute := resolve router .cheapLocal
    -- by their ids, not by their positions
    let wasModulated : Bool := effectiveRoute.id ≠ requestedRoute.id
    ⟨requestedRoute, effectiveRoute, wasModulated,
      if wasModulated then some (severeReason fixed2 signals) else none⟩
  else if Moderate signals ∧ costClass = .frontier then
    ⟨requestedRoute, resolve router .midTier, true, some (moderateReason fixed2 signals)⟩
  else if Hot signals ∧ costClass = .frontier then
    ⟨requestedRoute, resolve router .midTier, true, some (thermalReason fixed2 signals)⟩
  else ⟨requestedRoute, requestedRoute, false, none⟩

end Modulation

/-! ## What modulation can do -/

def rank : CostClass → Nat
  | .cheapLocal => 0
  | .midTier => 1
  | .frontier => 2

/-- The class whose route a decision takes. -/
def effectiveClass (costClass : CostClass) (signals : HomeostaticSignals) : CostClass :=
  if Severe signals then .cheapLocal
  else if (Moderate signals ∨ Hot signals) ∧ costClass = .frontier then .midTier
  else costClass

/-- The second snapshot has no more budget and no less heat. -/
structure MoreStressed (s t : HomeostaticSignals) : Prop where
  financial : t.financialBudget ≤ s.financialBudget
  power : t.powerBudget ≤ s.powerBudget
  thermal : s.thermalLoad ≤ t.thermalLoad

variable {fixed2 : ℚ → Text} {router : StaticRouter} {costClass : CostClass}
  {signals : HomeostaticSignals}

theorem modulation_routes :
    (resolveWithModulation fixed2 router costClass signals).requestedRoute =
      resolve router costClass ∧
    (resolveWithModulation fixed2 router costClass signals).effectiveRoute =
      resolve router (effectiveClass costClass signals) := by
  unfold resolveWithModulation effectiveClass
  by_cases severe : Severe signals
  · simp only [if_pos severe, and_self]
  by_cases top : costClass = .frontier
  · by_cases moderate : Moderate signals
    · simp [severe, top, moderate]
    · by_cases hot : Hot signals <;> simp [severe, top, moderate, hot]
  · simp [severe, top]

theorem modulation_reported :
    (resolveWithModulation fixed2 router costClass signals).modulationReason.isSome =
      (resolveWithModulation fixed2 router costClass signals).wasModulated ∧
    ((resolveWithModulation fixed2 router costClass signals).wasModulated = true ↔
      effectiveClass costClass signals ≠ costClass ∧
        (Severe signals → router.cheapLocal.id ≠ (resolve router costClass).id)) := by
  unfold resolveWithModulation effectiveClass
  by_cases severe : Severe signals
  · have cheap : resolve router .cheapLocal = router.cheapLocal := rfl
    by_cases same : router.cheapLocal.id = (resolve router costClass).id
    · simp [severe, cheap, same]
    · have lower : CostClass.cheapLocal ≠ costClass := fun h => same (h ▸ rfl)
      simp [severe, cheap, same, lower]
  by_cases top : costClass = .frontier
  · by_cases moderate : Moderate signals
    · simp [severe, top, moderate]
    · by_cases hot : Hot signals <;> simp [severe, top, moderate, hot]
  · simp [severe, top]

theorem effectiveClass_le : rank (effectiveClass costClass signals) ≤ rank costClass := by
  unfold effectiveClass
  split
  · exact Nat.zero_le _
  · split
    · next lowered => rw [lowered.2]; decide
    · exact Nat.le_refl _

theorem effectiveClass_mono {c d : CostClass} {s t : HomeostaticSignals} (stress : MoreStressed s t)
    (asked : rank c ≤ rank d) : rank (effectiveClass c t) ≤ rank (effectiveClass d s) := by
  have severe : Severe s → Severe t :=
    Or.imp (lt_of_le_of_lt stress.financial) (lt_of_le_of_lt stress.power)
  have moderate : Moderate s → Moderate t :=
    Or.imp (lt_of_le_of_lt stress.financial) (lt_of_le_of_lt stress.power)
  have hot : Hot s → Hot t := fun load => lt_of_lt_of_le load stress.thermal
  by_cases depleted : Severe t
  · simp only [effectiveClass, if_pos depleted, rank, Nat.zero_le]
  have calm : ¬ Severe s := fun h => depleted (severe h)
  by_cases pressed : Moderate s ∨ Hot s
  · have also : Moderate t ∨ Hot t := pressed.imp moderate hot
    simp only [effectiveClass, if_neg depleted, if_neg calm, pressed, also, true_and]
    cases c <;> cases d <;> simp_all [rank]
  · simp only [effectiveClass, if_neg calm, pressed, false_and, if_false]
    exact Nat.le_trans effectiveClass_le asked

/-- Whatever routes a router was built from: a modulated decision takes one of its valid routes,
never above the class asked for, and never higher for more stress or a lower request. It gives its
reason exactly when it says that it modulated, which it does when it took a lower class, unless
the two routes have one id. -/
theorem modulation_only_sinks (fixed2 : ℚ → Text) (router : StaticRouter) (costClass : CostClass)
    (signals : HomeostaticSignals) :
    let d := resolveWithModulation fixed2 router costClass signals
    d.requestedRoute = resolve router costClass ∧
    d.effectiveRoute = resolve router (effectiveClass costClass signals) ∧
    Valid router.knownTools d.effectiveRoute ∧
    rank (effectiveClass costClass signals) ≤ rank costClass ∧
    (∀ lower more, rank lower ≤ rank costClass → MoreStressed signals more →
      rank (effectiveClass lower more) ≤ rank (effectiveClass costClass signals)) ∧
    d.modulationReason.isSome = d.wasModulated ∧
    (d.wasModulated = true ↔ effectiveClass costClass signals ≠ costClass ∧
      (Severe signals → d.effectiveRoute.id ≠ d.requestedRoute.id)) := by
  intro d
  obtain ⟨requested, effective⟩ :=
    @modulation_routes fixed2 router costClass signals
  refine ⟨requested, effective, effective ▸ resolve_valid router _, effectiveClass_le,
    fun lower more asked stress => effectiveClass_mono stress asked, modulation_reported.1, ?_⟩
  rw [modulation_reported.2, requested, effective]
  refine and_congr_right fun _ => forall_congr' fun severe => ?_
  rw [effectiveClass, if_pos severe]
  rfl

/-! ## Requests on the default routes -/

/-- What a request lets the cortex do is at most what another does. -/
structure Within (r s : InvokeRequest) : Prop where
  tools : r.tools.Sublist s.tools
  turns : ∃ m n, r.maxTurns = some m ∧ s.maxTurns = some n ∧ 0 < m ∧ m ≤ n
  calls : ∃ m n, r.maxToolCalls = some m ∧ s.maxToolCalls = some n ∧ 0 < m ∧ m ≤ n
  memory : ∃ m n, r.memoryScope = some m ∧ s.memoryScope = some n ∧ m.identity = true ∧
    (m.l1 = true → n.l1 = true) ∧ (m.l2 = true → n.l2 = true) ∧ (m.l3 = true → n.l3 = true)

theorem filterTools_mono {narrow wide : ToolScope}
    (more : ∀ tool ∈ narrow.allowedTools, tool ∈ wide.allowedTools) (available : List ToolSpec) :
    (narrow.filterTools available).Sublist (wide.filterTools available) := by
  refine List.monotone_filter_right available fun t allowed => ?_
  simp only [ToolScope.allows, List.any_eq_true, decide_eq_true_iff] at allowed ⊢
  obtain ⟨tool, listed, same⟩ := allowed
  exact ⟨tool, more tool listed, same⟩

theorem core_builtIn : ∀ tool ∈ coreTools, tool ∈ builtInTools := by decide

/-- A lower default route narrows every request. -/
theorem default_requests_within {c d : CostClass} (lower : rank c ≤ rank d)
    (taskId agentId description : Text) (allTools : List ToolSpec) (identity : Option Text) :
    Within
      (buildRoutedRequest taskId agentId description
        (resolve StaticRouter.withDefaults c).toRoute allTools identity)
      (buildRoutedRequest taskId agentId description
        (resolve StaticRouter.withDefaults d).toRoute allTools identity) := by
  refine ⟨filterTools_mono ?_ allTools, ⟨_, _, rfl, rfl, ?_⟩, ⟨_, _, rfl, rfl, ?_⟩,
    ⟨_, _, rfl, rfl, ?_⟩⟩
  all_goals
    cases c <;> cases d <;>
      first
      | exact absurd lower (by decide)
      | exact fun tool listed => listed
      | exact core_builtIn
      | decide

/-- On the default routes modulation only takes away: the request built for the route it takes
offers a part of the tools, turns, calls and memory that the request for the route asked for
would, and always the identity memory and a turn and a call. -/
theorem modulated_request_within (fixed2 : ℚ → Text) (costClass : CostClass)
    (signals : HomeostaticSignals) (taskId agentId description : Text) (allTools : List ToolSpec)
    (identity : Option Text) :
    let d := resolveWithModulation fixed2 StaticRouter.withDefaults costClass signals
    Within
      (buildRoutedRequest taskId agentId description d.effectiveRoute.toRoute allTools identity)
      (buildRoutedRequest taskId agentId description d.requestedRoute.toRoute allTools
        identity) := by
  intro d
  obtain ⟨requested, effective⟩ :=
    @modulation_routes fixed2 StaticRouter.withDefaults costClass signals
  rw [show d.requestedRoute = _ from requested, show d.effectiveRoute = _ from effective]
  exact default_requests_within effectiveClass_le taskId agentId description allTools identity

/-! ## The audit of decisions -/

inductive AuditEntry where
  | routerDecision (agentId eventId routeId modelSelector toolScopeName : Text)
      (toolsAvailable toolsPermitted : Nat)
      (memoryScopeIdentity memoryScopeL1 memoryScopeL2 memoryScopeL3 : Bool)
      (maxTurns maxToolCalls : Nat)
  | routerModulated (agentId eventId requestedRouteId effectiveRouteId reason : Text)
  deriving DecidableEq, Repr

def recordRouterDecision (agentId eventId : Text) (route : TierRoute)
    (toolsAvailable toolsPermitted : Nat) : AuditEntry :=
  .routerDecision agentId eventId route.id route.model.asStr.toList route.toolScope.name
    toolsAvailable toolsPermitted route.memoryScope.identity route.memoryScope.l1
    route.memoryScope.l2 route.memoryScope.l3 route.termination.maxTurns
    route.termination.maxToolCalls

/-- One decision with what it is recorded for. -/
structure Recorded where
  agentId : Text
  eventId : Text
  decision : ModulationDecision
  toolsAvailable : Nat
  toolsPermitted : Nat
  deriving DecidableEq, Repr

def recordModulatedRouterDecision (audit : List AuditEntry) (r : Recorded) : List AuditEntry :=
  audit ++ recordRouterDecision r.agentId r.eventId r.decision.effectiveRoute r.toolsAvailable
      r.toolsPermitted ::
    if r.decision.wasModulated then
      [.routerModulated r.agentId r.eventId r.decision.requestedRoute.id
        r.decision.effectiveRoute.id (r.decision.modulationReason.getD [])]
    else []

/-- An event, the route it went to, and the route it was meant for with the reason. -/
abbrev Summary := Text × Text × Option (Text × Text)

def summary (r : Recorded) : Summary :=
  (r.eventId, r.decision.effectiveRoute.id,
    if r.decision.wasModulated then
      some (r.decision.requestedRoute.id, r.decision.modulationReason.getD [])
    else none)

/-- A modulation belongs to the decision before it. -/
def readBack : List AuditEntry → List Summary
  | [] => []
  | .routerModulated _ _ _ _ _ :: rest => readBack rest
  | .routerDecision _ eventId routeId _ _ _ _ _ _ _ _ _ _ ::
      .routerModulated _ _ requested _ reason :: rest =>
    (eventId, routeId, some (requested, reason)) :: readBack rest
  | .routerDecision _ eventId routeId _ _ _ _ _ _ _ _ _ _ :: rest =>
    (eventId, routeId, none) :: readBack rest

def opensWithDecision : List AuditEntry → Bool
  | .routerModulated _ _ _ _ _ :: _ => false
  | _ => true

theorem record_append (audit : List AuditEntry) (r : Recorded) :
    recordModulatedRouterDecision audit r = audit ++ recordModulatedRouterDecision [] r := rfl

theorem record_opens (r : Recorded) (rest : List AuditEntry) :
    opensWithDecision (recordModulatedRouterDecision [] r ++ rest) = true := rfl

theorem readBack_record (r : Recorded) {rest : List AuditEntry}
    (opens : opensWithDecision rest = true) :
    readBack (recordModulatedRouterDecision [] r ++ rest) = summary r :: readBack rest := by
  cases modulated : r.decision.wasModulated with
  | true =>
    simp [recordModulatedRouterDecision, recordRouterDecision, modulated, summary, readBack]
  | false =>
    cases rest with
    | nil =>
      simp [recordModulatedRouterDecision, recordRouterDecision, modulated, summary, readBack]
    | cons entry tail =>
      cases entry with
      | routerDecision _ _ _ _ _ _ _ _ _ _ _ _ _ =>
        simp [recordModulatedRouterDecision, recordRouterDecision, modulated, summary, readBack]
      | routerModulated _ _ _ _ _ => cases opens

theorem log_entries (audit : List AuditEntry) (decisions : List Recorded) :
    decisions.foldl recordModulatedRouterDecision audit =
      audit ++ decisions.flatMap (recordModulatedRouterDecision []) := by
  induction decisions generalizing audit with
  | nil => exact (List.append_nil audit).symm
  | cons r rest ih =>
    rw [List.foldl_cons, ih, record_append, List.flatMap_cons, List.append_assoc]

theorem entries_open (decisions : List Recorded) :
    opensWithDecision (decisions.flatMap (recordModulatedRouterDecision [])) = true := by
  cases decisions with
  | nil => rfl
  | cons r rest => exact record_opens r _

/-- The log of any sequence of decisions says of each, in order, where its event went and, if it
was modulated, where it was meant to go and why. -/
theorem decisions_read_back (decisions : List Recorded) :
    readBack (decisions.foldl recordModulatedRouterDecision []) = decisions.map summary := by
  rw [log_entries, List.nil_append]
  induction decisions with
  | nil => rfl
  | cons r rest ih =>
    rw [List.flatMap_cons, readBack_record r (entries_open rest), ih, List.map_cons]

end TierRouting
