import AnimaOS.KeyedMap
import Mathlib.Data.List.Induction

/-!
# Replaying decisions

The decision traces that are rebuilt from an audit log. An outcome goes to the
first open trace whose id its task id starts with, in whatever order the map of
traces is iterated, so a log is replayed unambiguously exactly when no outcome
meets two such traces.
-/

namespace DecisionReplay

universe u

/-! ## Iterating a map -/

/-- The order in which each step of a walk iterates the entries of a map. -/
structure IterationOrder (α : Type u) where
  arrange : Nat → List α → List α
  perm : ∀ i l, (arrange i l).Perm l

namespace IterationOrder

variable {α : Type u}

/-- Any entry may come first in one step, whatever the other steps do. -/
theorem exists_first (o : IterationOrder α) (i : Nat) {l : List α} {a : α} (listed : a ∈ l) :
    ∃ o' : IterationOrder α, (∀ j, j ≠ i → o'.arrange j = o.arrange j) ∧
      ∃ rest, o'.arrange i l = a :: rest := by
  classical
  refine ⟨⟨fun j m => if j = i ∧ a ∈ m then a :: m.erase a else o.arrange j m, ?_⟩, ?_, ?_⟩
  · intro j m
    split
    · rename_i here
      exact (List.perm_cons_erase here.2).symm
    · exact o.perm j m
  · intro j apart
    funext m
    exact if_neg fun here => apart here.1
  · exact ⟨l.erase a, if_pos ⟨rfl, listed⟩⟩

/-- A search with at most one hit finds the same in every order. -/
theorem find_perm {l l' : List α} {p : α → Bool} (perm : l.Perm l')
    (unique : ∀ a ∈ l, ∀ b ∈ l, p a = true → p b = true → a = b) : l.find? p = l'.find? p := by
  cases found : l.find? p with
  | none =>
    symm
    rw [List.find?_eq_none] at found ⊢
    exact fun a ha => found a (perm.mem_iff.mpr ha)
  | some a =>
    have hit := List.find?_some found
    have listed := List.mem_of_find?_eq_some found
    cases found' : l'.find? p with
    | none => exact absurd hit (List.find?_eq_none.mp found' a (perm.mem_iff.mp listed))
    | some b =>
      have listed' := perm.mem_iff.mpr (List.mem_of_find?_eq_some found')
      rw [unique a listed b listed' hit (List.find?_some found')]

end IterationOrder

/-! ## Traces and entries -/

structure HomeostaticSnapshot (F : Type u) where
  thermalLoad : F
  computePressure : F
  memoryPressure : F
  powerBudget : F
  financialBudget : F
  attentionDemand : F

/-- The trace of a gate decision; `F` are its floating-point numbers. -/
structure DecisionTrace (F : Type u) where
  eventId : String
  gateInvoked : Bool
  gateValueScore : F
  gateThreshold : F
  gateReasoning : String
  gateOverrideActive : Bool
  homeostatic : HomeostaticSnapshot F
  routeId : Option String
  toolsPermitted : Option Nat
  routeWasModulated : Bool
  modulationReason : Option String
  cortexOutcome : Option String
  cortexToolCalls : Option Nat

inductive AuditEntry (F : Type u) where
  | gateDecision (eventId : String) (invoke : Bool) (valueScore thresholdApplied : F)
      (reasoning : String) (overrideActive : Bool) (homeostatic : HomeostaticSnapshot F)
  | routerDecision (eventId routeId : String) (toolsPermitted : Nat)
  | routerModulated (eventId reason : String)
  | cortexCompleted (taskId : String) (toolCalls : Nat)
  | cortexFault (taskId : String)
  | other

variable {F : Type u}

abbrev Traces (F : Type u) := KeyedMap String (DecisionTrace F)

abbrev Order (F : Type u) := IterationOrder (String × DecisionTrace F)

namespace DecisionTrace

/-- An invoked decision without an outcome. -/
def isOpen (t : DecisionTrace F) : Bool := t.cortexOutcome.isNone && t.gateInvoked

def takes (t : DecisionTrace F) (taskId : String) : Bool :=
  t.isOpen && (t.eventId = taskId || t.eventId.toList.isPrefixOf taskId.toList)

def completed (toolCalls : Nat) (t : DecisionTrace F) : DecisionTrace F :=
  { t with cortexOutcome := some "completed", cortexToolCalls := some toolCalls }

def faulted (t : DecisionTrace F) : DecisionTrace F := { t with cortexOutcome := some "faulted" }

end DecisionTrace

/-! ## Building the traces -/

/-- `or_insert`: the first decision of an event stays. -/
def orInsert (m : Traces F) (trace : DecisionTrace F) : Traces F :=
  match m.get trace.eventId with
  | some _ => m
  | none => m.insert trace.eventId trace

def getMut (m : Traces F) (eventId : String) (f : DecisionTrace F → DecisionTrace F) : Traces F :=
  match m.get eventId with
  | some t => m.insert eventId (f t)
  | none => m

/-- The loop over the values, which stops at the first trace that takes the outcome. -/
def recordOutcome (m : Traces F) (iterated : List (String × DecisionTrace F)) (taskId : String)
    (record : DecisionTrace F → DecisionTrace F) : Traces F :=
  match iterated.find? fun e => e.2.takes taskId with
  | some e => m.insert e.1 (record e.2)
  | none => m

/-- The task of an outcome, and what it does to the trace that takes it. -/
def outcomeOf : AuditEntry F → Option (String × (DecisionTrace F → DecisionTrace F))
  | .cortexCompleted taskId toolCalls => some (taskId, .completed toolCalls)
  | .cortexFault taskId => some (taskId, .faulted)
  | _ => none

def buildStep (o : Order F) (i : Nat) (m : Traces F) : AuditEntry F → Traces F
  | .gateDecision eventId invoke valueScore thresholdApplied reasoning overrideActive homeostatic =>
    orInsert m
      { eventId := eventId
        gateInvoked := invoke
        gateValueScore := valueScore
        gateThreshold := thresholdApplied
        gateReasoning := reasoning
        gateOverrideActive := overrideActive
        homeostatic := homeostatic
        routeId := none
        toolsPermitted := none
        routeWasModulated := false
        modulationReason := none
        cortexOutcome := none
        cortexToolCalls := none }
  | .routerDecision eventId routeId toolsPermitted =>
    getMut m eventId fun t =>
      { t with routeId := some routeId, toolsPermitted := some toolsPermitted }
  | .routerModulated eventId reason =>
    getMut m eventId fun t => { t with routeWasModulated := true, modulationReason := some reason }
  | .cortexCompleted taskId toolCalls =>
    recordOutcome m (o.arrange i m.entries) taskId (.completed toolCalls)
  | .cortexFault taskId => recordOutcome m (o.arrange i m.entries) taskId .faulted
  | .other => m

def buildFrom (o : Order F) (i : Nat) (m : Traces F) : List (AuditEntry F) → Traces F
  | [] => m
  | e :: rest => buildFrom o (i + 1) (buildStep o i m e) rest

def buildTraces (o : Order F) (entries : List (AuditEntry F)) : Traces F :=
  buildFrom o 0 .empty entries

/-! ## The replayer -/

def findDecision (o : Order F) (entries : List (AuditEntry F)) (eventId : String) :
    Option (DecisionTrace F) :=
  (buildTraces o entries).get eventId

/-- The ids of the gate decisions, in the order in which they are first seen. -/
def decisionOrder (entries : List (AuditEntry F)) : List String :=
  entries.foldl (fun order entry =>
    match entry with
    | .gateDecision eventId _ _ _ _ _ _ => if eventId ∈ order then order else order ++ [eventId]
    | _ => order) []

def removeAll (m : Traces F) : List String → List (DecisionTrace F)
  | [] => []
  | id :: rest =>
    match m.get id with
    | some t => t :: removeAll (m.remove id) rest
    | none => removeAll (m.remove id) rest

def replayAll (o : Order F) (entries : List (AuditEntry F)) : List (DecisionTrace F) :=
  removeAll (buildTraces o entries) (decisionOrder entries)

/-! ## What is asked of a replay -/

/-- An outcome of an open decision goes to that decision and to no other. -/
def Attributes (entries : List (AuditEntry F)) : Prop :=
  ∀ (o : Order F) pre e post taskId record t, entries = pre ++ e :: post →
    outcomeOf e = some (taskId, record) → findDecision o pre taskId = some t → t.isOpen = true →
      findDecision o (pre ++ [e]) taskId = some (record t) ∧
        ∀ id, id ≠ taskId → findDecision o (pre ++ [e]) id = findDecision o pre id

/-- The replay does not depend on how the map is iterated. -/
def OrderFree (entries : List (AuditEntry F)) : Prop :=
  ∀ o o' : Order F, replayAll o entries = replayAll o' entries ∧
    ∀ id, findDecision o entries id = findDecision o' entries id

/-- No outcome meets two open decisions whose ids its task id starts with. -/
def Unambiguous (entries : List (AuditEntry F)) : Prop :=
  ∀ (o : Order F) pre e post taskId record id id' t t', entries = pre ++ e :: post →
    outcomeOf e = some (taskId, record) →
    findDecision o pre id = some t → findDecision o pre id' = some t' →
    t.takes taskId = true → t'.takes taskId = true → id = id'

/-! ## Steps -/

theorem buildFrom_append (o : Order F) (i : Nat) (m : Traces F) (pre post : List (AuditEntry F)) :
    buildFrom o i m (pre ++ post) = buildFrom o (i + pre.length) (buildFrom o i m pre) post := by
  induction pre generalizing i m with
  | nil => rfl
  | cons e pre ih =>
    rw [List.cons_append, buildFrom, ih, List.length_cons, Nat.add_right_comm, Nat.add_assoc]
    rfl

theorem buildTraces_snoc (o : Order F) (pre : List (AuditEntry F)) (e : AuditEntry F) :
    buildTraces o (pre ++ [e]) = buildStep o pre.length (buildTraces o pre) e := by
  rw [buildTraces, buildFrom_append, Nat.zero_add]
  rfl

/-- An outcome is recorded, and no other entry looks at the order. -/
theorem buildStep_cases (o : Order F) (i : Nat) (m : Traces F) (e : AuditEntry F) :
    (∃ taskId record, outcomeOf e = some (taskId, record) ∧
      buildStep o i m e = recordOutcome m (o.arrange i m.entries) taskId record) ∨
    (outcomeOf e = none ∧ ∀ o' : Order F, buildStep o' i m e = buildStep o i m e) := by
  cases e with
  | cortexCompleted taskId toolCalls => exact .inl ⟨taskId, _, rfl, rfl⟩
  | cortexFault taskId => exact .inl ⟨taskId, _, rfl, rfl⟩
  | gateDecision _ _ _ _ _ _ _ => exact .inr ⟨rfl, fun _ => rfl⟩
  | routerDecision _ _ _ => exact .inr ⟨rfl, fun _ => rfl⟩
  | routerModulated _ _ => exact .inr ⟨rfl, fun _ => rfl⟩
  | other => exact .inr ⟨rfl, fun _ => rfl⟩

theorem buildStep_outcome {o : Order F} {i : Nat} {m : Traces F} {e : AuditEntry F}
    {taskId : String} {record : DecisionTrace F → DecisionTrace F}
    (outcome : outcomeOf e = some (taskId, record)) :
    buildStep o i m e = recordOutcome m (o.arrange i m.entries) taskId record := by
  rcases buildStep_cases o i m e with ⟨taskId', record', outcome', same⟩ | ⟨nothing, -⟩
  · rw [outcome] at outcome'
    cases outcome'
    exact same
  · rw [outcome] at nothing
    cases nothing

/-- An outcome closes the trace that takes it and leaves its id. -/
theorem record_closes {e : AuditEntry F} {taskId : String}
    {record : DecisionTrace F → DecisionTrace F} (outcome : outcomeOf e = some (taskId, record))
    (t : DecisionTrace F) : (record t).eventId = t.eventId ∧ (record t).isOpen = false := by
  cases e with
  | cortexCompleted task toolCalls =>
    cases outcome
    exact ⟨rfl, rfl⟩
  | cortexFault task =>
    cases outcome
    exact ⟨rfl, rfl⟩
  | _ => cases outcome

theorem recordOutcome_cases (m : Traces F) (iterated : List (String × DecisionTrace F))
    (taskId : String) (record : DecisionTrace F → DecisionTrace F) :
    (∃ e ∈ iterated, e.2.takes taskId = true ∧
      recordOutcome m iterated taskId record = m.insert e.1 (record e.2)) ∨
    ((∀ e ∈ iterated, e.2.takes taskId = false) ∧
      recordOutcome m iterated taskId record = m) := by
  rw [recordOutcome]
  cases found : iterated.find? fun e => e.2.takes taskId with
  | some e =>
    have hit := @List.find?_some _ (fun e : String × DecisionTrace F => e.2.takes taskId) _ _ found
    exact .inl ⟨e, List.mem_of_find?_eq_some found, hit, rfl⟩
  | none =>
    refine .inr ⟨fun e listed => ?_, rfl⟩
    simpa using List.find?_eq_none.mp found e listed

/-! ## The ids of the traces -/

def Keyed (m : Traces F) : Prop := ∀ id t, m.get id = some t → t.eventId = id

theorem Keyed.insert {m : Traces F} (keyed : Keyed m) (t : DecisionTrace F) :
    Keyed (m.insert t.eventId t) := by
  intro id t' found
  rw [KeyedMap.get_insert] at found
  split at found
  · rename_i same
    cases found
    exact same.symm
  · exact keyed id t' found

theorem getMut_keyed {m : Traces F} (keyed : Keyed m) (eventId : String)
    {f : DecisionTrace F → DecisionTrace F} (keeps : ∀ t, (f t).eventId = t.eventId) :
    Keyed (getMut m eventId f) := by
  rw [getMut]
  cases found : m.get eventId with
  | none => exact keyed
  | some t =>
    have same : (f t).eventId = eventId := (keeps t).trans (keyed eventId t found)
    have inserted := keyed.insert (f t)
    rw [same] at inserted
    exact inserted

theorem buildStep_keyed {o : Order F} {i : Nat} {m : Traces F} (keyed : Keyed m)
    (e : AuditEntry F) : Keyed (buildStep o i m e) := by
  have outcome (taskId : String) (record : DecisionTrace F → DecisionTrace F)
      (isOutcome : outcomeOf e = some (taskId, record)) : Keyed (buildStep o i m e) := by
    rw [buildStep_outcome isOutcome]
    rcases recordOutcome_cases m (o.arrange i m.entries) taskId record with
      ⟨entry, listed, -, same⟩ | ⟨-, same⟩
    · have member := (o.perm i m.entries).mem_iff.mp listed
      have own := keyed entry.1 entry.2 (KeyedMap.mem_entries.mp member)
      have id : (record entry.2).eventId = entry.1 := (record_closes isOutcome entry.2).1.trans own
      have inserted := keyed.insert (record entry.2)
      rw [id] at inserted
      rw [same]
      exact inserted
    · rw [same]
      exact keyed
  cases e with
  | gateDecision eventId invoke valueScore thresholdApplied reasoning overrideActive homeostatic =>
    rw [buildStep, orInsert]
    split
    · exact keyed
    · exact keyed.insert _
  | routerDecision eventId routeId toolsPermitted => exact getMut_keyed keyed eventId fun _ => rfl
  | routerModulated eventId reason => exact getMut_keyed keyed eventId fun _ => rfl
  | cortexCompleted taskId toolCalls => exact outcome taskId _ rfl
  | cortexFault taskId => exact outcome taskId _ rfl
  | other => exact keyed

theorem buildTraces_keyed (o : Order F) (entries : List (AuditEntry F)) :
    Keyed (buildTraces o entries) := by
  induction entries using List.reverseRecOn with
  | nil =>
    intro id t found
    cases found
  | append_singleton pre e ih =>
    rw [buildTraces_snoc]
    exact buildStep_keyed ih e

/-! ## Orders -/

theorem buildTraces_agree {o o' : Order F} {entries : List (AuditEntry F)}
    (agree : ∀ j, j < entries.length → o'.arrange j = o.arrange j) :
    buildTraces o' entries = buildTraces o entries := by
  induction entries using List.reverseRecOn with
  | nil => rfl
  | append_singleton pre e ih =>
    rw [List.length_append, List.length_singleton] at agree
    have before := ih fun j small => agree j (by omega)
    rw [buildTraces_snoc, buildTraces_snoc, before]
    rcases buildStep_cases o pre.length (buildTraces o pre) e with
      ⟨taskId, record, outcome, -⟩ | ⟨-, free⟩
    · rw [buildStep_outcome outcome, buildStep_outcome outcome, agree pre.length (by omega)]
    · exact free o'

/-- Without ambiguity the traces are the same in every order. -/
theorem buildTraces_unambiguous {entries pre post : List (AuditEntry F)}
    (clear : Unambiguous entries) (split : entries = pre ++ post) (o o' : Order F) :
    buildTraces o pre = buildTraces o' pre := by
  induction pre using List.reverseRecOn generalizing post with
  | nil => rfl
  | append_singleton pre e ih =>
    have cut : entries = pre ++ e :: post := by rw [split, List.append_assoc]; rfl
    have before := ih cut
    rw [buildTraces_snoc, buildTraces_snoc, ← before]
    rcases buildStep_cases o pre.length (buildTraces o pre) e with
      ⟨taskId, record, outcome, -⟩ | ⟨-, free⟩
    · have perm := (o.perm pre.length (buildTraces o pre).entries).trans
        (o'.perm pre.length (buildTraces o pre).entries).symm
      have same := IterationOrder.find_perm (p := fun e => e.2.takes taskId) perm ?_
      · rw [buildStep_outcome outcome, buildStep_outcome outcome, recordOutcome, recordOutcome,
          same]
      · intro a ha b hb takes takes'
        have listed := (o.perm pre.length _).mem_iff.mp ha
        have listed' := (o.perm pre.length _).mem_iff.mp hb
        have found := KeyedMap.mem_entries.mp listed
        have found' := KeyedMap.mem_entries.mp listed'
        have id := clear o pre e post taskId record a.1 b.1 a.2 b.2 cut outcome found found' takes
          takes'
        rw [id, found'] at found
        exact Prod.ext id (Option.some.inj found).symm
    · exact (free o').symm

/-- The trace that takes an outcome under some order, with the traces after it. -/
theorem findDecision_outcome {o : Order F} {pre : List (AuditEntry F)} {e : AuditEntry F}
    {taskId : String} {record : DecisionTrace F → DecisionTrace F}
    (outcome : outcomeOf e = some (taskId, record)) {id : String} {t : DecisionTrace F}
    (found : findDecision o pre id = some t) (takes : t.takes taskId = true)
    (first : ∀ id' t', findDecision o pre id' = some t' → t'.takes taskId = true → id' = id) :
    findDecision o (pre ++ [e]) id = some (record t) ∧
      ∀ other, other ≠ id → findDecision o (pre ++ [e]) other = findDecision o pre other := by
  have step : buildTraces o (pre ++ [e]) = (buildTraces o pre).insert id (record t) := by
    rw [buildTraces_snoc, buildStep_outcome outcome]
    rcases recordOutcome_cases (buildTraces o pre)
      (o.arrange pre.length (buildTraces o pre).entries) taskId record with
      ⟨entry, listed, takes', same⟩ | ⟨none, -⟩
    · have found' := KeyedMap.mem_entries.mp ((o.perm pre.length _).mem_iff.mp listed)
      have id' := first entry.1 entry.2 found' takes'
      have own : (buildTraces o pre).get id = some entry.2 := id' ▸ found'
      have trace : t = entry.2 := Option.some.inj (found.symm.trans own)
      rw [same, id', trace]
    · have listed := (o.perm pre.length _).mem_iff.mpr (KeyedMap.mem_entries.mpr found)
      have untaken := none (id, t) listed
      rw [takes] at untaken
      cases untaken
  simp only [findDecision, step]
  exact ⟨KeyedMap.get_insert_self _ _ _, fun other apart => KeyedMap.get_insert_other apart _ _⟩

theorem attributes_of_unambiguous {entries : List (AuditEntry F)} (clear : Unambiguous entries) :
    Attributes entries := by
  intro o pre e post taskId record t split outcome found isOpen
  have own : t.eventId = taskId := buildTraces_keyed o pre taskId t found
  have takes : t.takes taskId = true := by simp [DecisionTrace.takes, isOpen, own]
  refine findDecision_outcome outcome found takes fun id' t' found' takes' => ?_
  exact clear o pre e post taskId record id' taskId t' t split outcome found' found takes' takes

theorem orderFree_of_unambiguous {entries pre : List (AuditEntry F)} (clear : Unambiguous entries)
    (initial : pre <+: entries) : OrderFree pre := by
  obtain ⟨post, split⟩ := initial
  intro o o'
  have same := buildTraces_unambiguous clear split.symm o o'
  exact ⟨by rw [replayAll, replayAll, same], fun id => by rw [findDecision, findDecision, same]⟩

/-- Any trace that takes an outcome gets it in some order. -/
theorem exists_order_recording {o : Order F} {pre : List (AuditEntry F)} {e : AuditEntry F}
    {taskId : String} {record : DecisionTrace F → DecisionTrace F}
    (outcome : outcomeOf e = some (taskId, record)) {id : String} {t : DecisionTrace F}
    (found : findDecision o pre id = some t) (takes : t.takes taskId = true) :
    ∃ o' : Order F, buildTraces o' (pre ++ [e]) = (buildTraces o pre).insert id (record t) := by
  obtain ⟨o', others, rest, here⟩ := o.exists_first pre.length (KeyedMap.mem_entries.mpr found)
  have before : buildTraces o' pre = buildTraces o pre :=
    buildTraces_agree fun j small => others j (by omega)
  have hit : ((id, t) :: rest).find? (fun e => e.2.takes taskId) = some (id, t) := by simp [takes]
  refine ⟨o', ?_⟩
  rw [buildTraces_snoc, before, buildStep_outcome outcome, here, recordOutcome, hit]

theorem unambiguous_of_orderFree {entries : List (AuditEntry F)}
    (free : ∀ pre, pre <+: entries → OrderFree pre) : Unambiguous entries := by
  intro o pre e post taskId record id id' t t' split outcome found found' takes takes'
  by_contra apart
  -- one order closes the first of the two traces, another the second
  obtain ⟨o₁, first⟩ := exists_order_recording outcome found takes
  obtain ⟨o₂, second⟩ := exists_order_recording outcome found' takes'
  have initial : pre ++ [e] <+: entries := ⟨post, by rw [split, List.append_assoc]; rfl⟩
  have same := (free (pre ++ [e]) initial o₁ o₂).2 id
  rw [findDecision, findDecision, first, second, KeyedMap.get_insert_self,
    KeyedMap.get_insert_other apart] at same
  have kept : record t = t := Option.some.inj (same.trans found)
  have closed := (record_closes outcome t).2
  have isOpen : t.isOpen = true := by
    rw [DecisionTrace.takes, Bool.and_eq_true] at takes
    exact takes.1
  rw [kept, isOpen] at closed
  cases closed

/-- As a log grows, its outcomes reach their own decisions and its replays do not depend on the
order of the map exactly when no outcome meets two open decisions that could take it. -/
theorem replay_iff_unambiguous (entries : List (AuditEntry F)) :
    (Attributes entries ∧ ∀ pre, pre <+: entries → OrderFree pre) ↔ Unambiguous entries :=
  ⟨fun h => unambiguous_of_orderFree h.2,
    fun clear => ⟨attributes_of_unambiguous clear, fun _ => orderFree_of_unambiguous clear⟩⟩

/-- An invoked decision with nothing else known of it. -/
def invoked (eventId : String) : AuditEntry Nat :=
  .gateDecision eventId true 1 0 "" false ⟨0, 0, 0, 1, 1, 0⟩

/-- The order of insertion gives the outcome of `sensory-12` to `sensory-1`. -/
theorem prefix_takes_outcome :
    ¬ Attributes [invoked "sensory-1", invoked "sensory-12", .cortexCompleted "sensory-12" 0] := by
  intro attributes
  let o : Order Nat := ⟨fun _ l => l, fun _ _ => List.Perm.refl _⟩
  have own := (attributes o [invoked "sensory-1", invoked "sensory-12"]
    (.cortexCompleted "sensory-12" 0) [] "sensory-12" _ _ rfl rfl rfl rfl).1
  have outcome := congrArg (Option.map DecisionTrace.cortexOutcome) own
  revert outcome
  decide

end DecisionReplay
