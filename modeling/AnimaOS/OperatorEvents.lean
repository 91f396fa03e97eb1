import AnimaOS.OperatorLine

/-!
# Operator events on the wire

`OperatorEvent` and the line `to_ndjson` writes for each of its variants, piece by
piece as the source writes them. A float is written by the formatter of the core
library, which stays a parameter.
-/

namespace OperatorEvents

open JsonString OperatorLine

universe u

/-! ## Strings -/

/-- `{:04x}`. -/
def hex4 (n : Nat) : List Char :=
  [hexDigit (n / 4096 % 16), hexDigit (n / 256 % 16), hexDigit (n / 16 % 16), hexDigit (n % 16)]

def writeChar (c : Char) : List Char :=
  match c with
  | '"' => ['\\', '"']
  | '\\' => ['\\', '\\']
  | '\n' => ['\\', 'n']
  | '\r' => ['\\', 'r']
  | '\t' => ['\\', 't']
  | c => if c.toNat < 0x20 then '\\' :: 'u' :: hex4 c.toNat else [c]

/-- What is appended to the line for a string value. -/
def writeJsonStr (value : List Char) : List Char := '"' :: value.flatMap writeChar ++ ['"']

/-! ## Events -/

inductive OperatorEvent (F : Type u) where
  | vitals (thermalLoad computePressure memoryPressure powerBudget financialBudget
      attentionDemand aggregateStress : F)
  | state (lifecycle : String) (sleepPhase : Option String) (agendaDepth : Nat)
  | accepted (messageId : String) (priority : Priority) (forced : Bool)
      (forceReason replyTo : Option String) (text : String)
  | agentQuestion (taskId : Nat) (questionId text : String) (options : List String)
      (reason : String)
  | gate (messageId : Option String) (invoke : Bool) (costClass : Option String)
      (valueScore threshold : F) (overrideActive : Bool) (reasoning : String)
  | audit (kind detail : String) (messageId : Option String)
  | taskStarted (taskId : Nat) (messageId : Option String) (prompt : String)
  | agentMessage (taskId : Nat) (messageId : Option String) (tokens : Nat) (text : String)
  | heartbeat (uptimeSecs : Nat)
  deriving DecidableEq, Repr

namespace OperatorEvent

variable {F : Type u}

def kind : OperatorEvent F → String
  | .vitals .. => "Vitals"
  | .state .. => "State"
  | .accepted .. => "Accepted"
  | .agentQuestion .. => "AgentQuestion"
  | .gate .. => "Gate"
  | .audit .. => "Audit"
  | .taskStarted .. => "TaskStarted"
  | .agentMessage .. => "AgentMessage"
  | .heartbeat .. => "Heartbeat"

end OperatorEvent

def writeStr (value : String) : List Char := writeJsonStr value.toList

def writeOptional : Option String → List Char
  | some value => writeStr value
  | none => "null".toList

def writeNat (n : Nat) : List Char := Nat.toDigits 10 n

def writeBool (b : Bool) : List Char := if b then "true".toList else "false".toList

/-- A comma in front of every item but the first. -/
def writeItems : List String → List Char
  | [] => []
  | [item] => writeStr item
  | item :: rest => writeStr item ++ ",".toList ++ writeItems rest

variable {F : Type u} (display : F → List Char)

def ndjson : OperatorEvent F → List Char
  | .vitals thermalLoad computePressure memoryPressure powerBudget financialBudget attentionDemand
      aggregateStress =>
    "\x7b\"type\":\"Vitals\",\"thermal_load\":".toList ++ display thermalLoad ++
      ",\"compute_pressure\":".toList ++ display computePressure ++
      ",\"memory_pressure\":".toList ++ display memoryPressure ++
      ",\"power_budget\":".toList ++ display powerBudget ++
      ",\"financial_budget\":".toList ++ display financialBudget ++
      ",\"attention_demand\":".toList ++ display attentionDemand ++
      ",\"aggregate_stress\":".toList ++ display aggregateStress ++ "\x7d".toList
  | .state lifecycle sleepPhase agendaDepth =>
    "\x7b\"type\":\"State\",\"lifecycle\":".toList ++ writeStr lifecycle ++
      ",\"sleep_phase\":".toList ++ writeOptional sleepPhase ++
      ",\"agenda_depth\":".toList ++ writeNat agendaDepth ++ "\x7d".toList
  | .accepted messageId priority forced forceReason replyTo text =>
    "\x7b\"type\":\"Accepted\",\"message_id\":".toList ++ writeStr messageId ++
      ",\"priority\":".toList ++ writeStr priority.asStr ++
      ",\"forced\":".toList ++ writeBool forced ++
      ",\"force_reason\":".toList ++ writeOptional forceReason ++
      ",\"reply_to\":".toList ++ writeOptional replyTo ++
      ",\"text\":".toList ++ writeStr text ++ "\x7d".toList
  | .agentQuestion taskId questionId text options reason =>
    "\x7b\"type\":\"AgentQuestion\",\"task_id\":".toList ++ writeNat taskId ++
      ",\"question_id\":".toList ++ writeStr questionId ++
      ",\"text\":".toList ++ writeStr text ++
      ",\"options\":[".toList ++ writeItems options ++
      "],\"reason\":".toList ++ writeStr reason ++ "\x7d".toList
  | .gate messageId invoke costClass valueScore threshold overrideActive reasoning =>
    "\x7b\"type\":\"Gate\",\"message_id\":".toList ++ writeOptional messageId ++
      ",\"invoke\":".toList ++ writeBool invoke ++
      ",\"cost_class\":".toList ++ writeOptional costClass ++
      ",\"value_score\":".toList ++ display valueScore ++
      ",\"threshold\":".toList ++ display threshold ++
      ",\"override_active\":".toList ++ writeBool overrideActive ++
      ",\"reasoning\":".toList ++ writeStr reasoning ++ "\x7d".toList
  | .audit kind detail messageId =>
    "\x7b\"type\":\"Audit\",\"kind\":".toList ++ writeStr kind ++
      ",\"detail\":".toList ++ writeStr detail ++
      ",\"message_id\":".toList ++ writeOptional messageId ++ "\x7d".toList
  | .taskStarted taskId messageId prompt =>
    "\x7b\"type\":\"TaskStarted\",\"task_id\":".toList ++ writeNat taskId ++
      ",\"message_id\":".toList ++ writeOptional messageId ++
      ",\"prompt\":".toList ++ writeStr prompt ++ "\x7d".toList
  | .agentMessage taskId messageId tokens text =>
    "\x7b\"type\":\"AgentMessage\",\"task_id\":".toList ++ writeNat taskId ++
      ",\"message_id\":".toList ++ writeOptional messageId ++
      ",\"tokens\":".toList ++ writeNat tokens ++
      ",\"text\":".toList ++ writeStr text ++ "\x7d".toList
  | .heartbeat uptimeSecs =>
    "\x7b\"type\":\"Heartbeat\",\"uptime_secs\":".toList ++ writeNat uptimeSecs ++ "\x7d".toList

def toNdjson (e : OperatorEvent F) : String := .ofList (ndjson display e)

end OperatorEvents
