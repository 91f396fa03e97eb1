import AnimaOS.EventLines

/-!
# Operator events recovered from their lines

The std side reads an event as an internally tagged object: the tag selects the
variant, and each field is looked up by its name. A line parsed and read so is the
event it was written from.
-/

namespace OperatorEvents

open FixedWidth JsonGrammar Numerals OperatorLine

universe u

variable {F : Type}

def find (ms : List (List Char × Json)) (name : String) : Option Json :=
  (ms.find? fun m => m.1 = name.toList).map Prod.snd

def get {α : Type u} (read : Json → Option α) (ms : List (List Char × Json)) (name : String) :
    Option α :=
  (find ms name).bind read

def readText : Json → Option String
  | .string s => some (.ofList s)
  | _ => none

/-- An absent field is a null one. -/
def readOptional : Option Json → Option (Option String)
  | none => some none
  | some .null => some none
  | some v => (readText v).map some

def getOptional (ms : List (List Char × Json)) (name : String) : Option (Option String) :=
  readOptional (find ms name)

def readUnsigned (bits : Nat) : Json → Option Nat
  | .number t => fromStrRadix 10 (maxOf bits) t
  | _ => none

def readBool : Json → Option Bool
  | .bool b => some b
  | _ => none

def readTexts : Json → Option (List String)
  | .array vs => vs.mapM readText
  | _ => none

def readPriority (v : Json) : Option Priority := do
  let name ← readText v
  [Priority.low, .normal, .high, .critical].find? fun p => p.asStr = name

def decode (readFloat : Json → Option F) : Json → Option (OperatorEvent F)
  | .object ms => do
    let tag ← get readText ms "type"
    if tag = "Vitals" then
      let thermalLoad ← get readFloat ms "thermal_load"
      let computePressure ← get readFloat ms "compute_pressure"
      let memoryPressure ← get readFloat ms "memory_pressure"
      let powerBudget ← get readFloat ms "power_budget"
      let financialBudget ← get readFloat ms "financial_budget"
      let attentionDemand ← get readFloat ms "attention_demand"
      let aggregateStress ← get readFloat ms "aggregate_stress"
      some (.vitals thermalLoad computePressure memoryPressure powerBudget financialBudget
        attentionDemand aggregateStress)
    else if tag = "State" then
      let lifecycle ← get readText ms "lifecycle"
      let sleepPhase ← getOptional ms "sleep_phase"
      let agendaDepth ← get (readUnsigned 32) ms "agenda_depth"
      some (.state lifecycle sleepPhase agendaDepth)
    else if tag = "Accepted" then
      let messageId ← get readText ms "message_id"
      let priority ← get readPriority ms "priority"
      let forced ← get readBool ms "forced"
      let forceReason ← getOptional ms "force_reason"
      let replyTo ← getOptional ms "reply_to"
      let text ← get readText ms "text"
      some (.accepted messageId priority forced forceReason replyTo text)
    else if tag = "AgentQuestion" then
      let taskId ← get (readUnsigned 64) ms "task_id"
      let questionId ← get readText ms "question_id"
      let text ← get readText ms "text"
      let options ← get readTexts ms "options"
      let reason ← get readText ms "reason"
      some (.agentQuestion taskId questionId text options reason)
    else if tag = "Gate" then
      let messageId ← getOptional ms "message_id"
      let invoke ← get readBool ms "invoke"
      let costClass ← getOptional ms "cost_class"
      let valueScore ← get readFloat ms "value_score"
      let threshold ← get readFloat ms "threshold"
      let overrideActive ← get readBool ms "override_active"
      let reasoning ← get readText ms "reasoning"
      some (.gate messageId invoke costClass valueScore threshold overrideActive reasoning)
    else if tag = "Audit" then
      let kind ← get readText ms "kind"
      let detail ← get readText ms "detail"
      let messageId ← getOptional ms "message_id"
      some (.audit kind detail messageId)
    else if tag = "TaskStarted" then
      let taskId ← get (readUnsigned 64) ms "task_id"
      let messageId ← getOptional ms "message_id"
      let prompt ← get readText ms "prompt"
      some (.taskStarted taskId messageId prompt)
    else if tag = "AgentMessage" then
      let taskId ← get (readUnsigned 64) ms "task_id"
      let messageId ← getOptional ms "message_id"
      let tokens ← get (readUnsigned 32) ms "tokens"
      let text ← get readText ms "text"
      some (.agentMessage taskId messageId tokens text)
    else if tag = "Heartbeat" then
      let uptimeSecs ← get (readUnsigned 64) ms "uptime_secs"
      some (.heartbeat uptimeSecs)
    else none
  | _ => none

/-! ## Each value is read back -/

section values

variable (display : F → List Char)

@[simp]
theorem readText_json (s : String) : readText ((FieldValue.text s).json display) = some s := by
  rw [FieldValue.json, readText, String.ofList_toList]

@[simp]
theorem readOptional_json (s : Option String) :
    readOptional (some ((FieldValue.optional s).json display)) = some s := by
  cases s with
  | none => rfl
  | some s => exact congrArg (Option.map some) (readText_json display s)

theorem readUnsigned_json {bits n : Nat} (fits : n ≤ maxOf bits) :
    readUnsigned bits ((FieldValue.count n).json display) = some n :=
  fromStrRadix_complete (by omega) (numeral_toDigits n) fits

@[simp]
theorem readTexts_json (xs : List String) :
    readTexts ((FieldValue.items xs).json display) = some xs := by
  rw [FieldValue.json, readTexts]
  induction xs with
  | nil => rfl
  | cons x xs ih =>
    rw [List.map_cons, List.mapM_cons, ih]
    simp only [readText, String.ofList_toList]
    rfl

@[simp]
theorem readPriority_json (p : Priority) :
    readPriority ((FieldValue.text p.asStr).json display) = some p := by
  simp only [readPriority, readText_json]
  cases p
  all_goals decide

@[simp]
theorem readBool_json (b : Bool) : readBool ((FieldValue.flag b).json display) = some b := by
  simp only [FieldValue.json, readBool]

theorem find_members (fs : List (String × FieldValue F)) (name : String) :
    find (fs.map fun f => (f.1.toList, f.2.json display)) name =
      (fs.find? fun f => f.1 = name).map fun f => f.2.json display := by
  induction fs with
  | nil => rfl
  | cons f fs ih =>
    simp only [find, List.map_cons, List.find?_cons, String.toList_inj] at ih ⊢
    split
    · rfl
    · exact ih

/-- The tag selects the variant and every field is found under its name. -/
theorem decode_members {readFloat : Json → Option F} (e : OperatorEvent F) (fits : e.Fits)
    (floats : ∀ x ∈ e.floats, readFloat (.number (display x)) = some x) :
    decode readFloat (.object (e.members display)) = some e := by
  have found := find_members display e.tagged
  have same : e.members display = e.tagged.map fun f => (f.1.toList, f.2.json display) := rfl
  rw [← same] at found
  unfold decode
  simp only [get, getOptional, found]
  cases e with
  | vitals thermalLoad computePressure memoryPressure powerBudget financialBudget attentionDemand
      aggregateStress =>
    have given : ∀ x ∈ [thermalLoad, computePressure, memoryPressure, powerBudget, financialBudget,
        attentionDemand, aggregateStress], readFloat ((FieldValue.float x).json display) = some x :=
      floats
    simp [OperatorEvent.tagged, OperatorEvent.fields, OperatorEvent.kind, given]
  | state lifecycle sleepPhase agendaDepth =>
    have depth := readUnsigned_json display fits
    simp [OperatorEvent.tagged, OperatorEvent.fields, OperatorEvent.kind, depth]
  | accepted messageId priority forced forceReason replyTo text =>
    simp [OperatorEvent.tagged, OperatorEvent.fields, OperatorEvent.kind]
  | agentQuestion taskId questionId text options reason =>
    have id := readUnsigned_json display fits
    simp [OperatorEvent.tagged, OperatorEvent.fields, OperatorEvent.kind, id]
  | gate messageId invoke costClass valueScore threshold overrideActive reasoning =>
    have given : ∀ x ∈ [valueScore, threshold],
        readFloat ((FieldValue.float x).json display) = some x := floats
    simp [OperatorEvent.tagged, OperatorEvent.fields, OperatorEvent.kind, given]
  | audit kind detail messageId =>
    simp [OperatorEvent.tagged, OperatorEvent.fields, OperatorEvent.kind]
  | taskStarted taskId messageId prompt =>
    have id := readUnsigned_json display fits
    simp [OperatorEvent.tagged, OperatorEvent.fields, OperatorEvent.kind, id]
  | agentMessage taskId messageId tokens text =>
    have id := readUnsigned_json display fits.1
    have count := readUnsigned_json display fits.2
    simp [OperatorEvent.tagged, OperatorEvent.fields, OperatorEvent.kind, id, count]
  | heartbeat uptimeSecs =>
    have uptime := readUnsigned_json display fits
    simp [OperatorEvent.tagged, OperatorEvent.fields, OperatorEvent.kind, uptime]

/-- A line of an event without floats is one object of the grammar, without raw control
characters; its members are the tag and the fields, and a parser recovers the event. -/
theorem event_line_well_formed (readFloat : Json → Option F) (e : OperatorEvent F)
    (floatFree : e.floats = []) (fits : e.Fits) :
    Spells (.object (e.members display)) (toNdjson display e).toList ∧
      (∀ c ∈ (toNdjson display e).toList, 0x20 ≤ c.toNat) ∧
      '\n' ∉ (toNdjson display e).toList ∧
      ((e.members display).map Prod.fst).Nodup ∧
      (∀ v, JsonText v (toNdjson display e).toList ↔ v = .object (e.members display)) ∧
      (parse (toNdjson display e).toList).bind (decode readFloat) = some e := by
  have noFloat : ∀ P : F → Prop, ∀ x ∈ e.floats, P x := by
    intro P x hx
    rw [floatFree] at hx
    cases hx
  have spells := ndjson_spells display e (noFloat _)
  have printable := ndjson_printable display e (noFloat _)
  have text : JsonText (.object (e.members display)) (ndjson display e) :=
    ⟨[], _, [], by simp, blank_nil, blank_nil, spells⟩
  simp only [toNdjson, String.toList_ofList]
  refine ⟨spells, printable, ?_, members_distinct display e, ?_, ?_⟩
  · intro newline
    exact absurd (printable _ newline) (by decide)
  · intro v
    constructor
    · intro other
      exact jsonText_unique other text
    · rintro rfl
      exact text
  · rw [parse_complete text]
    exact decode_members display e fits (noFloat _)

end values

/-- A question whose text needs every kind of escape. -/
theorem event_line_well_formed_question :
    (parse (toNdjson writeNat
        (.agentQuestion 7 "q\"1\\" "line\nnext\x01" ["yes", ""] "")).toList).bind
        (decode (readUnsigned 32)) =
      some (.agentQuestion 7 "q\"1\\" "line\nnext\x01" ["yes", ""] "") :=
  (event_line_well_formed writeNat (readUnsigned 32)
    (.agentQuestion 7 "q\"1\\" "line\nnext\x01" ["yes", ""] "") rfl
    (show 7 ≤ maxOf 64 by decide)).2.2.2.2.2

end OperatorEvents
