import AnimaOS.ExpositionFormat
import AnimaOS.KeyedMap
import AnimaOS.Numerals

/-!
# The metric registry

Counters, gauges and a latency histogram kept from audit entries, and the
exposition text they are rendered to. Whatever strings the entries carried, the
text is read back as the samples it was written from.
-/

namespace MetricRegistry

open ExpositionFormat
open Numerals (natText)

universe u

/-- The floating-point numbers of the registry, with the texts of `{}` and `{:.6}`. -/
structure Floats (F : Type u) where
  zero : F
  one : F
  add : F → F → F
  ofNat : Nat → F
  le : F → F → Bool
  isInfinite : F → Bool
  display : F → String
  fixed6 : F → String
  display_token : ∀ x, Token (display x).toList
  fixed6_token : ∀ x, Token (fixed6 x).toList

/-! ## Metric primitives -/

abbrev LabelSet := List (String × String)

def compareLabels : LabelSet → LabelSet → Ordering :=
  List.compareLex (compareLex (compareOn Prod.fst) (compareOn Prod.snd))

variable {F : Type u}

structure Labelled (F : Type u) where
  labels : LabelSet
  value : F

/-- One counter value keyed by a label signature. -/
abbrev Counter (F : Type u) := KeyedMap String F

def Counter.inc (fl : Floats F) (c : Counter F) (key : String) : Counter F :=
  c.insert key (fl.add ((c.get key).getD fl.zero) fl.one)

def Counter.samples (c : Counter F) (labelsFn : String → LabelSet) : List (Labelled F) :=
  (c.entries.map fun (k, v) => ⟨labelsFn k, v⟩).mergeSort fun a b =>
    compareLabels a.labels b.labels ≠ .gt

structure HistogramData (F : Type u) where
  count : Nat
  sum : F
  buckets : List (F × Nat)

def latencyBuckets : List Nat := [5, 10, 25, 50, 100, 250, 500, 1000, 2500, 5000]

def HistogramData.new (fl : Floats F) : HistogramData F :=
  ⟨0, fl.zero, latencyBuckets.map fun b => (fl.ofNat b, 0)⟩

def HistogramData.observe (fl : Floats F) (h : HistogramData F) (v : F) : HistogramData F :=
  ⟨h.count + 1, fl.add h.sum v,
    h.buckets.map fun (bound, count) => (bound, if fl.le v bound then count + 1 else count)⟩

/-! ## The registry -/

structure Registry (F : Type u) where
  tasksByTier : Counter F
  taskCompletions : F
  taskFailures : F
  tokensEmitted : F
  sleepCycles : F
  gateDecisions : Counter F
  gateInvocations : Counter F
  defenceVetoes : Counter F
  constitutionVetoes : Counter F
  cortexInvocations : F
  cortexFaults : F
  routerModulations : F
  thermalLoad : Option F
  computePressure : Option F
  memoryPressure : Option F
  powerBudget : Option F
  financialBudget : Option F
  attentionDemand : Option F
  aggregateStress : Option F
  gateValueScore : Option F
  cortexLatencyMs : HistogramData F

def Registry.new (fl : Floats F) : Registry F where
  tasksByTier := .empty
  taskCompletions := fl.zero
  taskFailures := fl.zero
  tokensEmitted := fl.zero
  sleepCycles := fl.zero
  gateDecisions := .empty
  gateInvocations := .empty
  defenceVetoes := .empty
  constitutionVetoes := .empty
  cortexInvocations := fl.zero
  cortexFaults := fl.zero
  routerModulations := fl.zero
  thermalLoad := none
  computePressure := none
  memoryPressure := none
  powerBudget := none
  financialBudget := none
  attentionDemand := none
  aggregateStress := none
  gateValueScore := none
  cortexLatencyMs := .new fl

/-- The audit entries the registry looks at, with what it reads of them. -/
inductive AuditEntry (F : Type u) where
  | taskStarted (tier : Nat)
  | taskCompleted (tokensEmitted : Nat)
  | taskFailed
  | sleepEntered
  | gateDecision (invoke : Bool) (costClass : Option String) (valueScore : F)
  | defenceVeto (detector : String)
  | constitutionVeto (prohibitionId : String)
  | cortexInvoked (latencyToFirstActionMs : Nat)
  | cortexFault
  | routerModulated
  | interoceptiveSnapshot (thermalLoad computePressure memoryPressure powerBudget financialBudget
      attentionDemand aggregateStress : F)
  | other

def Registry.update (fl : Floats F) (r : Registry F) : AuditEntry F → Registry F
  | .taskStarted tier => { r with tasksByTier := r.tasksByTier.inc fl (natText tier) }
  | .taskCompleted tokensEmitted =>
    { r with
      taskCompletions := fl.add r.taskCompletions fl.one
      tokensEmitted := fl.add r.tokensEmitted (fl.ofNat tokensEmitted) }
  | .taskFailed => { r with taskFailures := fl.add r.taskFailures fl.one }
  | .sleepEntered => { r with sleepCycles := fl.add r.sleepCycles fl.one }
  | .gateDecision invoke costClass valueScore =>
    { r with
      gateDecisions := r.gateDecisions.inc fl (if invoke then "invoke" else "block")
      gateInvocations :=
        if invoke then r.gateInvocations.inc fl (costClass.getD "unknown") else r.gateInvocations
      gateValueScore := some valueScore }
  | .defenceVeto detector => { r with defenceVetoes := r.defenceVetoes.inc fl detector }
  | .constitutionVeto prohibitionId =>
    { r with constitutionVetoes := r.constitutionVetoes.inc fl prohibitionId }
  | .cortexInvoked latencyToFirstActionMs =>
    { r with
      cortexInvocations := fl.add r.cortexInvocations fl.one
      cortexLatencyMs := r.cortexLatencyMs.observe fl (fl.ofNat latencyToFirstActionMs) }
  | .cortexFault => { r with cortexFaults := fl.add r.cortexFaults fl.one }
  | .routerModulated => { r with routerModulations := fl.add r.routerModulations fl.one }
  | .interoceptiveSnapshot thermalLoad computePressure memoryPressure powerBudget financialBudget
      attentionDemand aggregateStress =>
    { r with
      thermalLoad := some thermalLoad
      computePressure := some computePressure
      memoryPressure := some memoryPressure
      powerBudget := some powerBudget
      financialBudget := some financialBudget
      attentionDemand := some attentionDemand
      aggregateStress := some aggregateStress }
  | .other => r

def Registry.updateAll (fl : Floats F) (r : Registry F) (entries : List (AuditEntry F)) :
    Registry F :=
  entries.foldl (Registry.update fl) r

/-! ## Formatting helpers -/

/-- `str::replace` for a pattern of one character. -/
def replaceChar (c : Char) (new text : List Char) : List Char :=
  text.flatMap fun d => if d = c then new else [d]

def escapeLabelValue (v : String) : String :=
  String.ofList (replaceChar '\n' ['\\', 'n'] (replaceChar '"' ['\\', '"']
    (replaceChar '\\' ['\\', '\\'] v.toList)))

def formatLabel (label : String × String) : String :=
  label.1 ++ "=\"" ++ escapeLabelValue label.2 ++ "\""

def formatLabels (labels : LabelSet) : String :=
  if labels.isEmpty then ""
  else "\x7b" ++ String.intercalate "," (labels.map formatLabel) ++ "\x7d"

def writeFamilyHeader (name kind help : String) : String :=
  "# HELP " ++ name ++ " " ++ help ++ "\n# TYPE " ++ name ++ " " ++ kind ++ "\n"

/-- The line of a sample, with the text of its value. -/
def writeSample (name : String) (labels : LabelSet) (value : String) : String :=
  name ++ formatLabels labels ++ " " ++ value ++ "\n"

/-- A call of one of the two writers above. -/
inductive Write where
  | familyHeader (name kind help : String)
  | sample (name : String) (labels : LabelSet) (value : String)

def Write.text : Write → String
  | familyHeader name kind help => writeFamilyHeader name kind help
  | sample name labels value => writeSample name labels value

/-! ## Rendering -/

variable (fl : Floats F)

def writeCounterScalar (name help : String) (value : F) : List Write :=
  [.familyHeader name "counter" help, .sample name [] (fl.display value)]

def writeCounter (name help label : String) (c : Counter F) : List Write :=
  .familyHeader name "counter" help ::
    (c.samples fun k => [(label, k)]).map fun s => .sample name s.labels (fl.display s.value)

def Registry.writeCounters (r : Registry F) : List Write :=
  writeCounter fl "anima_tasks_total" "Tasks dispatched from the MLFQ agenda, by tier." "tier"
      r.tasksByTier ++
  writeCounterScalar fl "anima_task_completions_total"
      "Tasks completed with a response from the backend." r.taskCompletions ++
  writeCounterScalar fl "anima_task_failures_total" "Tasks that failed or were cancelled."
      r.taskFailures ++
  writeCounterScalar fl "anima_tokens_emitted_total"
      "Total tokens emitted by the LLM backend across all completed tasks." r.tokensEmitted ++
  writeCounterScalar fl "anima_sleep_cycles_total"
      "Lifecycle sleep-cycle entries (SleepEntered events)." r.sleepCycles ++
  writeCounter fl "anima_gate_decisions_total"
      "Striatal Gate decisions, by outcome (invoke|block)." "outcome" r.gateDecisions ++
  (if r.gateDecisions.entries.isEmpty then
    [.sample "anima_gate_decisions_total" [("outcome", "invoke")] (fl.display fl.zero),
      .sample "anima_gate_decisions_total" [("outcome", "block")] (fl.display fl.zero)]
  else []) ++
  writeCounter fl "anima_gate_invocations_total" "Gate invocations that passed, by cost class."
      "cost_class" r.gateInvocations ++
  writeCounter fl "anima_defence_vetoes_total" "Defence layer vetoes, by detector name."
      "detector" r.defenceVetoes ++
  writeCounter fl "anima_constitution_vetoes_total"
      "Constitution charter vetoes, by prohibition id." "prohibition_id" r.constitutionVetoes ++
  writeCounterScalar fl "anima_cortex_invocations_total"
      "Successful cortex invocations (CortexInvoked events)." r.cortexInvocations ++
  writeCounterScalar fl "anima_cortex_faults_total"
      "Cortex process faults or unrecoverable errors." r.cortexFaults ++
  writeCounterScalar fl "anima_router_modulations_total"
      "Thalamic Router downgrade events (RouterModulated)." r.routerModulations

def writeGauge (name help : String) (value : Option F) : List Write :=
  match value with
  | some v => [.familyHeader name "gauge" help, .sample name [] (fl.display v)]
  | none => []

def Registry.writeGauges (r : Registry F) : List Write :=
  writeGauge fl "anima_thermal_load" "CPU/GPU thermal occupancy (0=cool, 1=throttled)."
      r.thermalLoad ++
  writeGauge fl "anima_compute_pressure" "Compute-pipeline saturation (0=idle, 1=saturated)."
      r.computePressure ++
  writeGauge fl "anima_memory_pressure_ratio" "Working-memory fill fraction (0=empty, 1=full)."
      r.memoryPressure ++
  writeGauge fl "anima_power_budget_ratio" "Available power budget fraction (1=AC/full, 0=flat)."
      r.powerBudget ++
  writeGauge fl "anima_financial_budget_ratio" "Remaining financial API budget fraction."
      r.financialBudget ++
  writeGauge fl "anima_attention_demand" "User attention level (1=foreground, 0=absent)."
      r.attentionDemand ++
  writeGauge fl "anima_aggregate_stress" "Weighted aggregate homeostatic stress."
      r.aggregateStress ++
  writeGauge fl "anima_gate_value_score" "Last Striatal Gate value score computed."
      r.gateValueScore

def Registry.writeHistogram (r : Registry F) : List Write :=
  [.familyHeader "anima_gate_latency_ms" "histogram"
      "Cortex first-action latency in milliseconds from sensory packet arrival."] ++
  (r.cortexLatencyMs.buckets.map fun (bound, count) =>
    .sample "anima_gate_latency_ms_bucket"
      [("le", if fl.isInfinite bound then "+Inf" else fl.display bound)] (natText count)) ++
  [.sample "anima_gate_latency_ms_bucket" [("le", "+Inf")] (natText r.cortexLatencyMs.count),
    .sample "anima_gate_latency_ms_sum" [] (fl.display r.cortexLatencyMs.sum),
    .sample "anima_gate_latency_ms_count" [] (natText r.cortexLatencyMs.count)]

def Registry.writes (r : Registry F) : List Write :=
  r.writeCounters fl ++ r.writeGauges fl ++ r.writeHistogram fl

def Registry.render (r : Registry F) : String := String.join ((r.writes fl).map Write.text)

/-! ## The lines of a rendering -/

def labelChars (labels : LabelSet) : List (List Char × List Char) :=
  labels.map fun (k, v) => (k.toList, v.toList)

namespace Write

def items : Write → List Item
  | familyHeader name kind help =>
    [.comment (' ' :: 'H' :: 'E' :: 'L' :: 'P' :: ' ' :: (name.toList ++ ' ' :: help.toList)),
      .comment (' ' :: 'T' :: 'Y' :: 'P' :: 'E' :: ' ' :: (name.toList ++ ' ' :: kind.toList))]
  | sample name labels value => [.sample name.toList (labelChars labels) value.toList]

/-- The sample a write puts into the text. -/
def sampleOf : Write → Option Sample
  | familyHeader _ _ _ => none
  | sample name labels value => some ⟨name.toList, labelChars labels, value.toList, none⟩

def Good (w : Write) : Prop := ∀ item ∈ w.items, item.Good

end Write

theorem escapeLabelValue_toList (v : String) : (escapeLabelValue v).toList = escape v.toList := by
  have char (c : Char) : replaceChar '\n' ['\\', 'n'] (replaceChar '"' ['\\', '"']
      (replaceChar '\\' ['\\', '\\'] [c])) = escapeChar c := by
    by_cases backslash : c = '\\'
    · subst backslash
      rfl
    by_cases quote : c = '"'
    · subst quote
      rfl
    by_cases newline : c = '\n'
    · subst newline
      rfl
    · simp [replaceChar, escapeChar, backslash, quote, newline]
  have append (c : Char) (new text rest : List Char) :
      replaceChar c new (text ++ rest) = replaceChar c new text ++ replaceChar c new rest :=
    List.flatMap_append
  rw [escapeLabelValue, String.toList_ofList]
  induction v.toList with
  | nil => rfl
  | cons c text ih =>
    have split : c :: text = [c] ++ text := rfl
    rw [split, append, append, append, ih, char]
    rfl

theorem formatLabel_toList (label : String × String) :
    (formatLabel label).toList = labelText (label.1.toList, label.2.toList) := by
  simp [formatLabel, labelText, escapeLabelValue_toList]

theorem formatLabels_toList (labels : LabelSet) :
    (formatLabels labels).toList = labelBlock (labelChars labels) := by
  have inner (label : String × String) (rest : LabelSet) :
      (String.intercalate "," ((label :: rest).map formatLabel)).toList =
        joined (labelChars (label :: rest)) := by
    induction rest generalizing label with
    | nil =>
      rw [List.map_singleton, String.intercalate_singleton, formatLabel_toList]
      rfl
    | cons next rest ih =>
      have later := ih next
      rw [List.map_cons] at later
      rw [List.map_cons, List.map_cons, String.intercalate_cons_cons, String.toList_append,
        String.toList_append, later, formatLabel_toList, List.append_assoc]
      rfl
  cases labels with
  | nil => rfl
  | cons label rest =>
    have block : labelBlock (labelChars (label :: rest)) =
        '{' :: (joined (labelChars (label :: rest)) ++ ['}']) := rfl
    rw [block, ← inner]
    simp [formatLabels]

theorem write_text (w : Write) : w.text.toList = written w.items := by
  cases w with
  | familyHeader name kind help =>
    unfold Write.text writeFamilyHeader
    simp [Write.items, written, Item.line]
  | sample name labels value =>
    unfold Write.text writeSample
    simp [Write.items, written, Item.line, sampleText, formatLabels_toList]

theorem writes_text (ws : List Write) :
    (String.join (ws.map Write.text)).toList = written (ws.flatMap Write.items) := by
  induction ws with
  | nil => rfl
  | cons w ws ih =>
    rw [List.map_cons, String.join_cons, String.toList_append, write_text, ih, List.flatMap_cons]
    exact List.flatMap_append.symm

/-- A text written from good writes is read as their samples. -/
theorem writes_read {ws : List Write} (good : ∀ w ∈ ws, w.Good) :
    exposition (String.join (ws.map Write.text)).toList = some (ws.filterMap Write.sampleOf) := by
  have items : ∀ item ∈ ws.flatMap Write.items, item.Good := by
    intro item listed
    obtain ⟨w, hw, inside⟩ := List.mem_flatMap.mp listed
    exact good w hw item inside
  rw [writes_text, exposition_written items]
  congr 1
  induction ws with
  | nil => rfl
  | cons w ws ih =>
    have later := ih (fun v hv => good v (List.mem_cons_of_mem w hv)) fun item listed =>
      items item (by
        rw [List.flatMap_cons]
        exact List.mem_append_right _ listed)
    rw [List.flatMap_cons, List.filterMap_append, later]
    cases w <;> rfl

/-! ## Good writes -/

theorem natText_token (n : Nat) : Token (natText n).toList := by
  obtain ⟨nonempty, digits, -⟩ := Numerals.numeral_toDigits n
  rw [natText, String.toList_ofList]
  refine ⟨nonempty, fun c hc => ⟨?_, ?_⟩⟩
  · by_contra blank
    simp only [isBlank, Bool.or_eq_true, decide_eq_true_eq, Bool.not_eq_false] at blank
    rcases blank with rfl | rfl <;> exact absurd (digits _ hc) (by decide)
  · rintro rfl
    exact absurd (digits _ hc) (by decide)

def Inline (s : String) : Prop := '\n' ∉ s.toList

theorem inline_ofList {l : List Char} (h : l.contains '\n' = false) : Inline (String.ofList l) := by
  rw [Inline, String.toList_ofList]
  simpa using h

theorem header_good {name kind help : String} (inlineName : Inline name) (inlineKind : Inline kind)
    (inlineHelp : Inline help) : (Write.familyHeader name kind help).Good := by
  have name : '\n' ∉ name.toList := inlineName
  have kind : '\n' ∉ kind.toList := inlineKind
  have help : '\n' ∉ help.toList := inlineHelp
  intro item listed
  simp only [Write.items, List.mem_cons, List.not_mem_nil, or_false] at listed
  rcases listed with rfl | rfl
  · simp [Item.Good, name, help]
  · simp [Item.Good, name, kind]

/-- A name of a metric, as the exposition format has it. -/
def MetricName (s : String) : Prop := isWord isNameChar s.toList = true

def LabelName (s : String) : Prop := isWord isLabelChar s.toList = true

theorem metricName_ofList {l : List Char} (h : isWord isNameChar l = true) :
    MetricName (String.ofList l) := by
  rw [MetricName, String.toList_ofList]
  exact h

theorem labelName_ofList {l : List Char} (h : isWord isLabelChar l = true) :
    LabelName (String.ofList l) := by
  rw [LabelName, String.toList_ofList]
  exact h

theorem MetricName.inline {s : String} (h : MetricName s) : Inline s := word_inline h

theorem sample_good {name value : String} {labels : LabelSet} (word : MetricName name)
    (named : ∀ label ∈ labels, LabelName label.1) (token : Token value.toList) :
    (Write.sample name labels value).Good := by
  intro item listed
  rw [List.mem_singleton.mp listed]
  refine ⟨⟨word, fun label member => ?_⟩, token⟩
  obtain ⟨own, ownMember, rfl⟩ := List.mem_map.mp member
  exact named own ownMember

section
variable {fl : Floats F} {name help label : String}

theorem counterScalar_good (word : MetricName name) (inline : Inline help) (value : F) :
    ∀ w ∈ writeCounterScalar fl name help value, w.Good := by
  rw [writeCounterScalar, List.forall_mem_cons, List.forall_mem_singleton]
  exact ⟨header_good word.inline (inline_ofList rfl) inline,
    sample_good word (by simp) (fl.display_token value)⟩

theorem counter_good (word : MetricName name) (inline : Inline help) (named : LabelName label)
    (c : Counter F) : ∀ w ∈ writeCounter fl name help label c, w.Good := by
  rw [writeCounter, List.forall_mem_cons]
  refine ⟨header_good word.inline (inline_ofList rfl) inline, ?_⟩
  intro w listed
  obtain ⟨s, sample, rfl⟩ := List.mem_map.mp listed
  obtain ⟨⟨k, v⟩, -, rfl⟩ := List.mem_map.mp (List.mem_mergeSort.mp sample)
  exact sample_good word (by simpa using named) (fl.display_token v)

theorem gauge_good (word : MetricName name) (inline : Inline help) (value : Option F) :
    ∀ w ∈ writeGauge fl name help value, w.Good := by
  cases value with
  | none => simp [writeGauge]
  | some v =>
    rw [writeGauge, List.forall_mem_cons, List.forall_mem_singleton]
    exact ⟨header_good word.inline (inline_ofList rfl) inline,
      sample_good word (by simp) (fl.display_token v)⟩

end

theorem counters_good (fl : Floats F) (r : Registry F) : ∀ w ∈ r.writeCounters fl, w.Good := by
  have decisions : MetricName "anima_gate_decisions_total" := metricName_ofList rfl
  have outcome : LabelName "outcome" := labelName_ofList rfl
  have zeros : ∀ w ∈ (if r.gateDecisions.entries.isEmpty then
      [Write.sample "anima_gate_decisions_total" [("outcome", "invoke")] (fl.display fl.zero),
        Write.sample "anima_gate_decisions_total" [("outcome", "block")] (fl.display fl.zero)]
      else []), w.Good := by
    split
    · simp only [List.forall_mem_cons, List.not_mem_nil, false_implies, implies_true, and_true]
      exact ⟨sample_good decisions (by simpa using outcome) (fl.display_token _),
        sample_good decisions (by simpa using outcome) (fl.display_token _)⟩
    · simp
  unfold Registry.writeCounters
  simp only [List.forall_mem_append, and_assoc]
  exact ⟨counter_good (metricName_ofList rfl) (inline_ofList rfl) (labelName_ofList rfl) _,
    counterScalar_good (metricName_ofList rfl) (inline_ofList rfl) _,
    counterScalar_good (metricName_ofList rfl) (inline_ofList rfl) _,
    counterScalar_good (metricName_ofList rfl) (inline_ofList rfl) _,
    counterScalar_good (metricName_ofList rfl) (inline_ofList rfl) _,
    counter_good decisions (inline_ofList rfl) outcome _,
    zeros,
    counter_good (metricName_ofList rfl) (inline_ofList rfl) (labelName_ofList rfl) _,
    counter_good (metricName_ofList rfl) (inline_ofList rfl) (labelName_ofList rfl) _,
    counter_good (metricName_ofList rfl) (inline_ofList rfl) (labelName_ofList rfl) _,
    counterScalar_good (metricName_ofList rfl) (inline_ofList rfl) _,
    counterScalar_good (metricName_ofList rfl) (inline_ofList rfl) _,
    counterScalar_good (metricName_ofList rfl) (inline_ofList rfl) _⟩

theorem gauges_good (fl : Floats F) (r : Registry F) : ∀ w ∈ r.writeGauges fl, w.Good := by
  unfold Registry.writeGauges
  simp only [List.forall_mem_append, and_assoc]
  exact ⟨gauge_good (metricName_ofList rfl) (inline_ofList rfl) _,
    gauge_good (metricName_ofList rfl) (inline_ofList rfl) _,
    gauge_good (metricName_ofList rfl) (inline_ofList rfl) _,
    gauge_good (metricName_ofList rfl) (inline_ofList rfl) _,
    gauge_good (metricName_ofList rfl) (inline_ofList rfl) _,
    gauge_good (metricName_ofList rfl) (inline_ofList rfl) _,
    gauge_good (metricName_ofList rfl) (inline_ofList rfl) _,
    gauge_good (metricName_ofList rfl) (inline_ofList rfl) _⟩

theorem histogram_good (fl : Floats F) (r : Registry F) : ∀ w ∈ r.writeHistogram fl, w.Good := by
  have name : MetricName "anima_gate_latency_ms" := metricName_ofList rfl
  have bucket : MetricName "anima_gate_latency_ms_bucket" := metricName_ofList rfl
  have le : LabelName "le" := labelName_ofList rfl
  unfold Registry.writeHistogram
  simp only [List.forall_mem_append, List.forall_mem_cons, List.forall_mem_map, List.not_mem_nil,
    false_implies, implies_true, and_true]
  exact ⟨⟨header_good name.inline (inline_ofList rfl) (inline_ofList rfl),
    fun b _ => sample_good bucket (by simpa using le) (natText_token _)⟩,
    sample_good bucket (by simpa using le) (natText_token _),
    sample_good (metricName_ofList rfl) (by simp) (fl.display_token _),
    sample_good (metricName_ofList rfl) (by simp) (natText_token _)⟩

theorem writes_good (fl : Floats F) (r : Registry F) : ∀ w ∈ r.writes fl, w.Good := by
  rw [Registry.writes, List.forall_mem_append, List.forall_mem_append]
  exact ⟨⟨counters_good fl r, gauges_good fl r⟩, histogram_good fl r⟩

/-- The rendering of a registry is read as the samples written for it. -/
theorem render_read (fl : Floats F) (r : Registry F) :
    exposition (r.render fl).toList = some ((r.writes fl).filterMap Write.sampleOf) :=
  writes_read (writes_good fl r)

/-- Samples with different labels are different lines, also in the renderings of two registries. -/
theorem writeSample_apart {name name' value value' : String} {labels labels' : LabelSet}
    (good : (Write.sample name labels value).Good) (good' : (Write.sample name' labels' value').Good)
    (apart : labels ≠ labels') : writeSample name labels value ≠ writeSample name' labels' value' := by
  intro same
  obtain ⟨heading, token⟩ := good _ List.mem_cons_self
  obtain ⟨heading', token'⟩ := good' _ List.mem_cons_self
  have text := congrArg String.toList same
  have line (name value : String) (labels : LabelSet) : (writeSample name labels value).toList =
      sampleText name.toList (labelChars labels) value.toList ++ ['\n'] := by
    have whole := write_text (.sample name labels value)
    simpa [Write.text, Write.items, written, Item.line] using whole
  rw [line, line] at text
  obtain ⟨-, labels, -⟩ := sampleText_inj heading heading' token token' (List.append_cancel_right text)
  apply apart
  have injective : Function.Injective fun label : String × String =>
      (label.1.toList, label.2.toList) := by
    intro a b equal
    obtain ⟨first, second⟩ := Prod.mk.inj equal
    exact Prod.ext (String.toList_inj.mp first) (String.toList_inj.mp second)
  exact List.map_injective_iff.mpr injective labels

end MetricRegistry
