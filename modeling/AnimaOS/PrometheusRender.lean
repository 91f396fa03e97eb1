import AnimaOS.MetricRegistry

/-!
# The snapshot renderer

`render_prometheus` writes a snapshot of the metrics with label code of its own,
which does not escape the agent's id. The text is read back as the samples it
was meant to hold exactly when the id has nothing to escape.
-/

namespace PrometheusRender

open ExpositionFormat MetricRegistry
open Numerals (natText)

universe u

variable {F : Type u}

/-! ## The renderer -/

/-- The fields of the snapshot that are rendered. -/
structure AgentMetrics (F : Type u) where
  agentId : String
  tasksStarted : Nat
  tasksCompleted : Nat
  tasksFailed : Nat
  taskSuccessRate : F
  totalTokensEmitted : Nat
  gateInvocations : Nat
  gateBlocks : Nat
  gateInvokeRate : F
  gateCheapLocal : Nat
  gateMidTier : Nat
  gateFrontier : Nat
  gateOverrides : Nat
  gateMeanValueScore : F
  routerModulations : Nat
  memoryPressureNormal : Nat
  memoryPressureHighWater : Nat
  memoryPressureCritical : Nat
  sleepCycles : Nat
  sleepPhasesSucceeded : Nat
  sleepPhasesFailed : Nat
  cortexInvocations : Nat
  cortexCompletions : Nat
  cortexFaults : Nat
  cortexFaultRate : F
  cortexTotalToolCalls : Nat
  cortexMeanLatencyMs : F
  defenceVetoes : Nat
  constitutionVetoes : Nat
  attentionEscalations : Nat
  interoceptiveSnapshots : Nat
  meanThermalLoad : F
  meanMemoryPressure : F
  meanFinancialBudget : F

def pushHelp (name kind help : String) : String :=
  "# HELP " ++ name ++ " " ++ help ++ "\n# TYPE " ++ name ++ " " ++ kind ++ "\n"

def labelPart (label : String × String) : String := label.1 ++ "=\"" ++ label.2 ++ "\""

def buildLabels (agent : String) (extra : LabelSet) : String :=
  String.intercalate "," (("agent=\"" ++ agent ++ "\"") :: extra.map labelPart)

def pushCounter (name agent : String) (extra : LabelSet) (value : Nat) : String :=
  name ++ "\x7b" ++ buildLabels agent extra ++ "\x7d " ++ natText value ++ "\n"

def pushGaugeF64 (fl : Floats F) (name agent : String) (extra : LabelSet) (value : F) : String :=
  name ++ "\x7b" ++ buildLabels agent extra ++ "\x7d " ++ fl.fixed6 value ++ "\n"

/-- A call of one of the three writers above, for the agent of the snapshot. -/
inductive Push (F : Type u) where
  | help (name kind text : String)
  | counter (name : String) (extra : LabelSet) (value : Nat)
  | gauge (name : String) (extra : LabelSet) (value : F)

def Push.text (fl : Floats F) (agent : String) : Push F → String
  | help name kind text => pushHelp name kind text
  | counter name extra value => pushCounter name agent extra value
  | gauge name extra value => pushGaugeF64 fl name agent extra value

def pushes (m : AgentMetrics F) : List (Push F) :=
  [.help "anima_tasks_total" "counter" "Tasks processed by outcome",
    .counter "anima_tasks_total" [("status", "started")] m.tasksStarted,
    .counter "anima_tasks_total" [("status", "completed")] m.tasksCompleted,
    .counter "anima_tasks_total" [("status", "failed")] m.tasksFailed,
    .help "anima_task_success_rate" "gauge"
      "Fraction of started tasks that completed successfully [0,1]",
    .gauge "anima_task_success_rate" [] m.taskSuccessRate,
    .help "anima_tokens_emitted_total" "counter" "Total LLM tokens emitted by completed tasks",
    .counter "anima_tokens_emitted_total" [] m.totalTokensEmitted,
    .help "anima_gate_decisions_total" "counter" "Striatal Gate decisions by outcome",
    .counter "anima_gate_decisions_total" [("outcome", "invoked")] m.gateInvocations,
    .counter "anima_gate_decisions_total" [("outcome", "blocked")] m.gateBlocks,
    .help "anima_gate_invoke_rate" "gauge"
      "Fraction of gate decisions that resulted in invocation [0,1]",
    .gauge "anima_gate_invoke_rate" [] m.gateInvokeRate,
    .help "anima_gate_route_decisions_total" "counter" "Gate decisions by cost class",
    .counter "anima_gate_route_decisions_total" [("cost_class", "cheap_local")] m.gateCheapLocal,
    .counter "anima_gate_route_decisions_total" [("cost_class", "mid_tier")] m.gateMidTier,
    .counter "anima_gate_route_decisions_total" [("cost_class", "frontier")] m.gateFrontier,
    .help "anima_gate_overrides_total" "counter"
      "Gate decisions that bypassed the threshold via an override",
    .counter "anima_gate_overrides_total" [] m.gateOverrides,
    .help "anima_gate_mean_value_score" "gauge" "Mean gate value_score across all decisions",
    .gauge "anima_gate_mean_value_score" [] m.gateMeanValueScore,
    .help "anima_router_modulations_total" "counter"
      "Route downgrades triggered by homeostatic pressure",
    .counter "anima_router_modulations_total" [] m.routerModulations,
    .help "anima_memory_pressure_events_total" "counter" "Memory-pressure events by level",
    .counter "anima_memory_pressure_events_total" [("level", "normal")] m.memoryPressureNormal,
    .counter "anima_memory_pressure_events_total" [("level", "high_water")]
      m.memoryPressureHighWater,
    .counter "anima_memory_pressure_events_total" [("level", "critical")] m.memoryPressureCritical,
    .help "anima_sleep_cycles_total" "counter" "Sleep cycles entered",
    .counter "anima_sleep_cycles_total" [] m.sleepCycles,
    .help "anima_sleep_phases_total" "counter" "Sleep-maintenance phase completions by outcome",
    .counter "anima_sleep_phases_total" [("outcome", "succeeded")] m.sleepPhasesSucceeded,
    .counter "anima_sleep_phases_total" [("outcome", "failed")] m.sleepPhasesFailed,
    .help "anima_cortex_invocations_total" "counter" "Cortex invocations by outcome",
    .counter "anima_cortex_invocations_total" [("outcome", "invoked")] m.cortexInvocations,
    .counter "anima_cortex_invocations_total" [("outcome", "completed")] m.cortexCompletions,
    .counter "anima_cortex_invocations_total" [("outcome", "faulted")] m.cortexFaults,
    .help "anima_cortex_fault_rate" "gauge" "Fraction of cortex invocations that faulted [0,1]",
    .gauge "anima_cortex_fault_rate" [] m.cortexFaultRate,
    .help "anima_cortex_tool_calls_total" "counter"
      "Total tool calls made by completed cortex invocations",
    .counter "anima_cortex_tool_calls_total" [] m.cortexTotalToolCalls,
    .help "anima_cortex_mean_latency_ms" "gauge"
      "Mean latency from invocation to first tool action (ms)",
    .gauge "anima_cortex_mean_latency_ms" [] m.cortexMeanLatencyMs,
    .help "anima_defence_vetoes_total" "counter" "Defence-layer vetoes by type",
    .counter "anima_defence_vetoes_total" [("type", "defence")] m.defenceVetoes,
    .counter "anima_defence_vetoes_total" [("type", "constitution")] m.constitutionVetoes,
    .help "anima_attention_escalations_total" "counter"
      "Attention-demand escalations raised to the operator",
    .counter "anima_attention_escalations_total" [] m.attentionEscalations,
    .help "anima_interoceptive_snapshots_total" "counter"
      "Interoceptive signal snapshots published",
    .counter "anima_interoceptive_snapshots_total" [] m.interoceptiveSnapshots,
    .help "anima_mean_thermal_load" "gauge"
      "Mean thermal_load across interoceptive snapshots [0,1]",
    .gauge "anima_mean_thermal_load" [] m.meanThermalLoad,
    .help "anima_mean_memory_pressure" "gauge"
      "Mean memory_pressure across interoceptive snapshots [0,1]",
    .gauge "anima_mean_memory_pressure" [] m.meanMemoryPressure,
    .help "anima_mean_financial_budget" "gauge"
      "Mean financial_budget remaining across interoceptive snapshots [0,1]",
    .gauge "anima_mean_financial_budget" [] m.meanFinancialBudget]

def renderPrometheus (fl : Floats F) (m : AgentMetrics F) : String :=
  String.join ((pushes m).map (Push.text fl m.agentId))

/-! ## What it is meant to write -/

/-- The write of the registry that a push stands for. -/
def Push.write (fl : Floats F) (agent : String) : Push F → Write
  | help name kind text => .familyHeader name kind text
  | counter name extra value => .sample name (("agent", agent) :: extra) (natText value)
  | gauge name extra value => .sample name (("agent", agent) :: extra) (fl.fixed6 value)

/-- The samples of a snapshot, each with the agent's id as its first label. -/
def samples (fl : Floats F) (m : AgentMetrics F) : List Sample :=
  (pushes m).filterMap fun p => (p.write fl m.agentId).sampleOf

/-! ## Pushes with fixed names and labels -/

/-- Fixed labels have nothing to escape. -/
def Fixed (label : String × String) : Prop := LabelName label.1 ∧ Plain label.2.toList

inductive Push.Static : Push F → Prop where
  | help {name kind text : String} (inlineName : Inline name) (inlineKind : Inline kind)
      (inlineText : Inline text) : Static (.help name kind text)
  | counter {name : String} {extra : LabelSet} {value : Nat} (word : MetricName name)
      (fixed : ∀ label ∈ extra, Fixed label) : Static (.counter name extra value)
  | gauge {name : String} {extra : LabelSet} {value : F} (word : MetricName name)
      (fixed : ∀ label ∈ extra, Fixed label) : Static (.gauge name extra value)

theorem help_static {name kind text : List Char} (inlineName : name.contains '\n' = false)
    (inlineKind : kind.contains '\n' = false) (inlineText : text.contains '\n' = false) :
    (Push.help (String.ofList name) (String.ofList kind) (String.ofList text) : Push F).Static :=
  .help (inline_ofList inlineName) (inline_ofList inlineKind) (inline_ofList inlineText)

theorem counter_static {name : List Char} (word : isWord isNameChar name = true) (value : Nat) :
    (Push.counter (String.ofList name) [] value : Push F).Static :=
  .counter (metricName_ofList word) (by simp)

theorem gauge_static {name : List Char} (word : isWord isNameChar name = true) (value : F) :
    (Push.gauge (String.ofList name) [] value).Static :=
  .gauge (metricName_ofList word) (by simp)

theorem labelled_static {name k v : List Char} (word : isWord isNameChar name = true)
    (named : isWord isLabelChar k = true) (plain : isWord isLabelChar v = true) (value : Nat) :
    (Push.counter (String.ofList name) [(String.ofList k, String.ofList v)] value : Push F).Static := by
  refine .counter (metricName_ofList word) ?_
  rw [List.forall_mem_singleton]
  refine ⟨labelName_ofList named, ?_⟩
  intro c hc
  rw [String.toList_ofList] at hc
  have inside := (isWord_chars plain).2 c hc
  refine ⟨?_, ?_, ?_⟩ <;>
  · rintro rfl
    exact absurd inside (by decide)

theorem pushes_static (m : AgentMetrics F) : ∀ p ∈ pushes m, p.Static := by
  unfold pushes
  simp only [List.forall_mem_cons, List.not_mem_nil, false_implies, implies_true, and_true]
  repeat' apply And.intro
  all_goals
    first
    | exact help_static rfl rfl rfl
    | exact labelled_static rfl rfl rfl _
    | exact counter_static rfl _
    | exact gauge_static rfl _

/-! ## Reading the text back -/

theorem write_good (fl : Floats F) (agent : String) {p : Push F} (static : p.Static) :
    (p.write fl agent).Good := by
  have agentName : LabelName "agent" := labelName_ofList rfl
  cases static with
  | help inlineName inlineKind inlineText => exact header_good inlineName inlineKind inlineText
  | counter word fixed =>
    refine sample_good word ?_ (natText_token _)
    rw [List.forall_mem_cons]
    exact ⟨agentName, fun label listed => (fixed label listed).1⟩
  | gauge word fixed =>
    refine sample_good word ?_ (fl.fixed6_token _)
    rw [List.forall_mem_cons]
    exact ⟨agentName, fun label listed => (fixed label listed).1⟩

theorem formatLabel_plain {label : String × String} (plain : Plain label.2.toList) :
    formatLabel label = labelPart label := by
  have same : escapeLabelValue label.2 = label.2 := by
    apply String.toList_inj.mp
    rw [escapeLabelValue_toList, escape_plain plain]
  rw [formatLabel, labelPart, same]

theorem formatLabels_plain {agent : String} (plain : Plain agent.toList) {extra : LabelSet}
    (fixed : ∀ label ∈ extra, Fixed label) :
    formatLabels (("agent", agent) :: extra) = "\x7b" ++ buildLabels agent extra ++ "\x7d" := by
  have first : formatLabel ("agent", agent) = "agent=\"" ++ agent ++ "\"" :=
    formatLabel_plain plain
  have later : extra.map formatLabel = extra.map labelPart :=
    List.map_congr_left fun label listed => formatLabel_plain (fixed label listed).2
  rw [formatLabels, buildLabels, List.map_cons, first, later]
  rfl

/-- With a plain id a push writes what the registry would write. -/
theorem text_plain {fl : Floats F} {agent : String} (plain : Plain agent.toList) {p : Push F}
    (static : p.Static) : p.text fl agent = (p.write fl agent).text := by
  cases static with
  | help _ _ _ => rfl
  | counter word fixed =>
    have block := formatLabels_plain plain fixed
    unfold Push.text Push.write Write.text pushCounter writeSample
    dsimp only
    rw [block]
    simp [String.append_assoc]
  | gauge word fixed =>
    have block := formatLabels_plain plain fixed
    unfold Push.text Push.write Write.text pushGaugeF64 writeSample
    dsimp only
    rw [block]
    simp [String.append_assoc]

theorem render_read_plain (fl : Floats F) {m : AgentMetrics F} (plain : Plain m.agentId.toList) :
    exposition (renderPrometheus fl m).toList = some (samples fl m) := by
  have static := pushes_static m
  have text : (pushes m).map (Push.text fl m.agentId) =
      ((pushes m).map (Push.write fl m.agentId)).map Write.text := by
    rw [List.map_map]
    exact List.map_congr_left fun p listed => text_plain plain (static p listed)
  rw [renderPrometheus, text, writes_read, List.filterMap_map]
  · rfl
  · rw [List.forall_mem_map]
    exact fun p listed => write_good fl m.agentId (static p listed)

/-- Behind the opening quote of its first label, a counter's line has the characters of the id. -/
theorem counter_text (agent name : String) (extra : LabelSet) (value : Nat) :
    ∃ after, (pushCounter name agent extra value).toList =
      name.toList ++ '{' :: ("agent".toList ++ '=' :: '"' :: (agent.toList ++ '"' :: after)) := by
  unfold pushCounter buildLabels
  cases extra with
  | nil => exact ⟨'}' :: ' ' :: ((natText value).toList ++ ['\n']), by simp⟩
  | cons label extra =>
    rw [List.map_cons, String.intercalate_cons_cons]
    exact ⟨',' :: ((String.intercalate "," (labelPart label :: extra.map labelPart)).toList ++
      '}' :: ' ' :: ((natText value).toList ++ ['\n'])), by simp⟩

/-- The rendering opens with a comment and the counter of the tasks started. -/
theorem render_opens (fl : Floats F) (m : AgentMetrics F) :
    ∃ items after, (∀ item ∈ items, item.Good ∧ item.read = none) ∧
      (renderPrometheus fl m).toList = written items ++ ("anima_tasks_total".toList ++
        '{' :: ("agent".toList ++ '=' :: '"' :: (m.agentId.toList ++ '"' :: after))) := by
  obtain ⟨help, rest, opens, static⟩ : ∃ (help : String) (rest : List (Push F)),
      pushes m = .help "anima_tasks_total" "counter" help ::
        .counter "anima_tasks_total" [("status", "started")] m.tasksStarted :: rest ∧
      (Push.help "anima_tasks_total" "counter" help : Push F).Static :=
    ⟨_, _, rfl, help_static rfl rfl rfl⟩
  obtain ⟨after, counter⟩ := counter_text m.agentId "anima_tasks_total" [("status", "started")]
    m.tasksStarted
  refine ⟨(Write.familyHeader "anima_tasks_total" "counter" help).items,
    after ++ (String.join (rest.map (Push.text fl m.agentId))).toList, ?_, ?_⟩
  · intro item listed
    refine ⟨write_good fl m.agentId static item listed, ?_⟩
    simp only [Write.items, List.mem_cons, List.not_mem_nil, or_false] at listed
    rcases listed with rfl | rfl <;> rfl
  · have header := write_text (.familyHeader "anima_tasks_total" "counter" help)
    have first : (Push.help "anima_tasks_total" "counter" help).text fl m.agentId =
        (Write.familyHeader "anima_tasks_total" "counter" help).text := rfl
    have second : (Push.counter "anima_tasks_total" [("status", "started")] m.tasksStarted).text fl
        m.agentId = pushCounter "anima_tasks_total" m.agentId [("status", "started")]
          m.tasksStarted := rfl
    rw [renderPrometheus, opens, List.map_cons, List.map_cons, String.join_cons, String.join_cons,
      String.toList_append, String.toList_append, first, second, header, counter]
    simp only [List.append_assoc, List.cons_append]

theorem plain_of_render_read {fl : Floats F} {m : AgentMetrics F}
    (read : exposition (renderPrometheus fl m).toList = some (samples fl m)) :
    Plain m.agentId.toList := by
  obtain ⟨items, after, comments, text⟩ := render_opens fl m
  have silent : items.filterMap Item.read = [] :=
    List.filterMap_eq_nil_iff.mpr fun item listed => (comments item listed).2
  rw [text, exposition_append fun item listed => (comments item listed).1, silent] at read
  obtain ⟨found, rest, same⟩ := Option.map_eq_some_iff.mp read
  have word : MetricName "anima_tasks_total" := metricName_ofList rfl
  have label : LabelName "agent" := labelName_ofList rfl
  obtain ⟨s, more, labels, listed, first⟩ : ∃ s more labels, samples fl m = s :: more ∧
      s.labels = ("agent".toList, m.agentId.toList) :: labels := ⟨_, _, _, rfl, rfl⟩
  rw [List.nil_append, listed] at same
  rw [same] at rest
  exact plain_of_exposition_raw word label rest first

/-- The labels of the line a push writes. -/
def Push.labels (agent : String) : Push F → Option LabelSet
  | help _ _ _ => none
  | counter _ extra _ => some (("agent", agent) :: extra)
  | gauge _ extra _ => some (("agent", agent) :: extra)

theorem write_of_labels (fl : Floats F) {agent : String} {p : Push F} {labels : LabelSet}
    (has : p.labels agent = some labels) :
    ∃ name value, p.write fl agent = .sample name labels value := by
  cases p with
  | help name kind text => cases has
  | counter name extra value =>
    cases has
    exact ⟨_, _, rfl⟩
  | gauge name extra value =>
    cases has
    exact ⟨_, _, rfl⟩

theorem push_apart {fl : Floats F} {agent agent' : String} (plain : Plain agent.toList)
    (plain' : Plain agent'.toList) {p q : Push F} (static : p.Static) (static' : q.Static)
    {labels labels' : LabelSet} (has : p.labels agent = some labels)
    (has' : q.labels agent' = some labels') (apart : labels ≠ labels') :
    p.text fl agent ≠ q.text fl agent' := by
  obtain ⟨name, value, writes⟩ := write_of_labels fl has
  obtain ⟨name', value', writes'⟩ := write_of_labels fl has'
  have good := write_good fl agent static
  have good' := write_good fl agent' static'
  rw [writes] at good
  rw [writes'] at good'
  rw [text_plain plain static, text_plain plain' static', writes, writes']
  exact writeSample_apart good good' apart

/-- Both renderers' texts are read back as the samples meant, with different lines for different
labels: the registry's always, the snapshot's exactly when the agent's id is plain. -/
theorem exposition_reads_back (fl : Floats F) :
    (∀ m : AgentMetrics F,
      (exposition (renderPrometheus fl m).toList = some (samples fl m) ∧
        ∀ p ∈ pushes m, ∀ q ∈ pushes m, ∀ labels ∈ p.labels m.agentId,
          ∀ labels' ∈ q.labels m.agentId, labels ≠ labels' →
            p.text fl m.agentId ≠ q.text fl m.agentId) ↔ Plain m.agentId.toList) ∧
      (∀ m m' : AgentMetrics F, Plain m.agentId.toList → Plain m'.agentId.toList →
        ∀ p ∈ pushes m, ∀ q ∈ pushes m', ∀ labels ∈ p.labels m.agentId,
          ∀ labels' ∈ q.labels m'.agentId, labels ≠ labels' →
            p.text fl m.agentId ≠ q.text fl m'.agentId) ∧
      (∀ entries, exposition (((Registry.new fl).updateAll fl entries).render fl).toList =
        some ((((Registry.new fl).updateAll fl entries).writes fl).filterMap Write.sampleOf)) ∧
      ∀ entries entries' name name' labels labels' value value',
        Write.sample name labels value ∈ ((Registry.new fl).updateAll fl entries).writes fl →
        Write.sample name' labels' value' ∈ ((Registry.new fl).updateAll fl entries').writes fl →
        labels ≠ labels' →
          writeSample name labels value ≠ writeSample name' labels' value' := by
  refine ⟨fun m => ⟨fun h => plain_of_render_read h.1, fun plain => ⟨render_read_plain fl plain, ?_⟩⟩,
    ?_, fun entries => render_read fl _, ?_⟩
  · intro p hp q hq labels has labels' has' apart
    exact push_apart plain plain (pushes_static m p hp) (pushes_static m q hq) has has' apart
  · intro m m' plain plain' p hp q hq labels has labels' has' apart
    exact push_apart plain plain' (pushes_static m p hp) (pushes_static m' q hq) has has' apart
  · intro entries entries' name name' labels labels' value value' listed listed' apart
    exact writeSample_apart (writes_good fl _ _ listed) (writes_good fl _ _ listed') apart

theorem fixed6_whole (n : Nat) : Token (natText n ++ ".000000").toList := by
  obtain ⟨nonempty, solid⟩ := natText_token n
  have point : ∀ c ∈ ".000000".toList, isBlank c = false ∧ c ≠ '\n' := by simp [isBlank]
  rw [String.toList_append]
  refine ⟨by simp [nonempty], fun c hc => ?_⟩
  rcases List.mem_append.mp hc with hc | hc
  · exact solid c hc
  · exact point c hc

/-- Numbers without a fraction. -/
def wholeFloats : Floats Nat where
  zero := 0
  one := 1
  add := (· + ·)
  ofNat := id
  le a b := a ≤ b
  isInfinite _ := false
  display := natText
  fixed6 n := natText n ++ ".000000"
  display_token := natText_token
  fixed6_token := fixed6_whole

def quietMetrics (agentId : String) : AgentMetrics Nat :=
  ⟨agentId, 0, 0, 0, 0, 0, 0, 0, 0, 0, 0, 0, 0, 0, 0, 0, 0, 0, 0, 0, 0, 0, 0, 0, 0, 0, 0, 0, 0, 0, 0, 0,
    0, 0⟩

/-- The snapshot of an agent with a quote in its id is not read back. -/
theorem quoted_agent_unread :
    exposition (renderPrometheus wholeFloats (quietMetrics (String.ofList ['a', '"', 'b']))).toList ≠
      some (samples wholeFloats (quietMetrics (String.ofList ['a', '"', 'b']))) := by
  intro read
  have plain := plain_of_render_read read '"' (by simp [quietMetrics])
  exact plain.2.1 rfl

end PrometheusRender
