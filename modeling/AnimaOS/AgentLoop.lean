import AnimaOS.CortexBridge
import AnimaOS.JsonGrammar

/-!
# The agent loop of the cortex

Plan, act, observe, revise: the cortex sends a frame and waits for its reply, so
it is a machine that one arrival takes from one wait to the next.
-/

namespace AgentLoop

open CortexBridge JsonGrammar

/-! ## Frames and state -/

structure Step where
  toolName : Text
  args : Text
  description : Text
  deriving DecidableEq, Repr

/-- The state that is threaded through the loop. -/
structure AgentState where
  taskId : Text
  description : Text
  availableTools : List ToolSpec
  identity : Json
  plan : List Step
  observations : List Text
  toolCallsMade : Nat

inductive ToVita where
  | toolCall (callId toolName args : Text)
  | llmRequest (requestId backend purpose description : Text) (tools : List ToolSpec)
      (identity : Json) (observations : List Text) (remainingPlan : List Step)
  | invokeComplete (output episodeSummary : Text) (toolCallsMade : Nat)
  | cortexError (message : Text)

/-- A message from vita. A field that is null counts as absent, and a message of another type is
known by its type only. -/
inductive FromVita where
  | toolResponse (callId : Text) (result : Text) (error : Option Text)
  | llmResponse (requestId plan content : Option Json)
  | other (type : Text)

inductive Arrival where
  | message (msg : FromVita)
  | timeout
  | closed
  | failed (reason : Text)

def AgentState.new (taskId description : Text) (availableTools : List ToolSpec)
    (identity : Json) : AgentState :=
  ⟨taskId, description, availableTools, identity, [], [], 0⟩

def MAX_TOOL_CALLS : Nat := 10

/-- What the loop takes from the standard library: JSON both ways (`dumps` is compact), a
text without the blanks around it and its representation, the text of a value, the name of its
type, and how long the invocation took. -/
structure Library where
  loads : Text → Except Text Json
  dumps : Json → Text
  dumpsSpaced : Json → Text
  strip : Text → Text
  repr : Text → Text
  str : Json → Text
  typeName : Json → Text
  duration : Text

def nat (n : Nat) : Text := Nat.toDigits 10 n

/-! ## Plans -/

variable (py : Library)

def mockPlan (state : AgentState) : List Step :=
  let toolNames := state.availableTools.map ToolSpec.name
  let clock := if toolNames.contains "clock".toList then
    [⟨"clock".toList, "{}".toList, "Record current wall time".toList⟩] else []
  let echo := if toolNames.contains "echo".toList then
    [⟨"echo".toList,
      py.dumpsSpaced (.object [("payload".toList, .string (state.description.take 80))]),
      "Echo task description to confirm tool round-trip".toList⟩] else []
  match clock ++ echo, state.availableTools with
  | [], first :: _ => [⟨first.name, "{}".toList, "Call ".toList ++ first.name⟩]
  | steps, _ => steps

def normaliseArgs : Option Json → Except Text Text
  | none => .ok "{}".toList
  | some .null => .ok "{}".toList
  | some (.string args) =>
    match py.loads args with
    | .ok _ => .ok args
    | .error exc => .error ("step 'args' is not valid JSON: ".toList ++ exc)
  | some args => .ok (py.dumps args)

/-- The entries of a raw plan from `index` on; an unknown tool is skipped and noted. -/
def parseSteps (toolNames : List Text) : Nat → List Json → List Text → List Step →
    List Text × Except Text (List Step)
  | _, [], observations, steps => (observations, .ok steps)
  | index, .object entry :: rest, observations, steps =>
    match entry.lookup "tool_name".toList with
    | some (.string toolName) =>
      if toolName = [] then
        (observations,
          .error ("plan step ".toList ++ nat index ++ " missing a string 'tool_name'".toList))
      else if ¬ toolNames.contains toolName then
        parseSteps toolNames (index + 1) rest (observations ++ ["[plan] skipped step ".toList ++
          nat index ++ ": unknown tool ".toList ++ py.repr toolName]) steps
      else
        match normaliseArgs py (entry.lookup "args".toList) with
        | .error exc => (observations, .error exc)
        | .ok args =>
          parseSteps toolNames (index + 1) rest observations (steps ++ [⟨toolName, args,
            ((entry.lookup "description".toList).map py.str).getD []⟩])
    | _ =>
      (observations,
        .error ("plan step ".toList ++ nat index ++ " missing a string 'tool_name'".toList))
  | index, entry :: _, observations, _ =>
    (observations, .error ("plan step ".toList ++ nat index ++ " must be an object, got ".toList ++
      py.typeName entry))

/-- The first bracketed span of a text, if it has one. -/
def bracketed (text : Text) : Option Text :=
  let fromStart := text.dropWhile fun c => c ≠ '['
  let span := (fromStart.reverse.dropWhile fun c => c ≠ ']').reverse
  if span.length < 2 then none else some span

def extractPlanFromContent : Json → Except Text Json
  | .string content =>
    match py.loads (py.strip content) with
    | .ok plan => .ok plan
    | .error _ =>
      match bracketed (py.strip content) with
      | none => .error "LLM content did not contain a JSON plan array".toList
      | some span =>
        match py.loads span with
        | .ok plan => .ok plan
        | .error exc => .error ("LLM content did not contain valid JSON plan: ".toList ++ exc)
  | content =>
    .error ("LlmResponse 'content' must be a string, got ".toList ++ py.typeName content)

/-- The steps of a plan, and the observations with what was noted on the way. -/
def parseLlmPlan (state : AgentState) (plan content : Option Json) :
    List Text × Except Text (List Step) :=
  let raw : Except Text Json := match plan, content with
    | some plan, _ => .ok plan
    | none, some content => extractPlanFromContent py content
    | none, none => .error "LlmResponse missing both 'plan' and 'content' fields".toList
  match raw with
  | .error exc => (state.observations, .error exc)
  | .ok (.array entries) =>
    match parseSteps py (state.availableTools.map ToolSpec.name) 0 entries state.observations []
      with
    | (observations, .ok []) =>
      (observations, .error "LLM plan contained no steps referencing available tools".toList)
    | parsed => parsed
  | .ok other =>
    (state.observations,
      .error ("LLM plan must be a JSON list, got ".toList ++ py.typeName other))

/-! ## The loop -/

/-- What the loop waits for. -/
inductive Awaiting where
  | planReply (requestId : Text)
  | toolReply (callId : Text) (step : Step)
  | reviseReply (requestId : Text) (remainingBudget : Nat)
  | ended

structure Cortex where
  state : AgentState
  awaiting : Awaiting

def synthesiseOutput (state : AgentState) : Text :=
  List.intercalate ['\n']
    (["Task completed: ".toList ++ py.repr state.description,
      "  Tool calls: ".toList ++ nat state.toolCallsMade] ++
      state.observations.map fun obs => "  • ".toList ++ obs)

def summariseEpisode (state : AgentState) : Text :=
  "task_id=".toList ++ state.taskId ++ " description=".toList ++ py.repr state.description ++
    " tool_calls=".toList ++ nat state.toolCallsMade ++ " observations=".toList ++
    nat state.observations.length ++ " duration_s=".toList ++ py.duration

def requestId (purpose : Text) (state : AgentState) : Text :=
  "llm-".toList ++ purpose ++ "-".toList ++ nat state.toolCallsMade ++ "-".toList ++ state.taskId

def callId (state : AgentState) : Text :=
  "call-".toList ++ nat state.toolCallsMade ++ "-".toList ++ state.taskId

/-- The head of the loop: the next step is acted on, or the task is complete. -/
def act (state : AgentState) : Cortex × List ToVita :=
  match state.plan with
  | step :: rest =>
    if state.toolCallsMade < MAX_TOOL_CALLS then
      (⟨{ state with plan := rest, toolCallsMade := state.toolCallsMade + 1 },
          .toolReply (callId state) step⟩,
        [.toolCall (callId state) step.toolName step.args])
    else
      (⟨state, .ended⟩,
        [.invokeComplete (synthesiseOutput py state) (summariseEpisode py state)
          state.toolCallsMade])
  | [] =>
    (⟨state, .ended⟩,
      [.invokeComplete (synthesiseOutput py state) (summariseEpisode py state)
        state.toolCallsMade])

def abort (state : AgentState) (message : Text) : Cortex × List ToVita :=
  (⟨state, .ended⟩, [.cortexError message])

variable (backend : Text)

def askPlan (purpose : Text) (state : AgentState) (observations : List Text)
    (remainingPlan : List Step) : ToVita :=
  .llmRequest (requestId purpose state) backend purpose state.description state.availableTools
    state.identity observations remainingPlan

def start (state : AgentState) : Cortex × List ToVita :=
  if backend = "mock".toList then act py { state with plan := mockPlan py state }
  else
    (⟨state, .planReply (requestId "plan".toList state)⟩,
      [askPlan backend "plan".toList state [] []])

def observe (state : AgentState) (step : Step) (result : Text) : AgentState :=
  { state with observations := state.observations ++
      ["[".toList ++ step.toolName ++ "] ".toList ++ step.description ++ " → ".toList ++
        py.repr result] }

def revise (state : AgentState) : Cortex × List ToVita :=
  let remainingBudget := MAX_TOOL_CALLS - state.toolCallsMade
  if backend = "mock".toList ∨ state.plan = [] ∨ remainingBudget = 0 then act py state
  else
    (⟨state, .reviseReply (requestId "revise".toList state) remainingBudget⟩,
      [askPlan backend "revise".toList state state.observations state.plan])

/-- The first plan has arrived: it is acted on, or the loop fails on it. -/
def planned (state : AgentState) (plan content : Option Json) : Cortex × List ToVita :=
  match parseLlmPlan py state plan content with
  | (observations, .ok steps) => act py { state with observations := observations, plan := steps }
  | (observations, .error exc) => abort { state with observations := observations } exc

def revised (state : AgentState) (remainingBudget : Nat) (plan content : Option Json) :
    AgentState :=
  match plan, content with
  | none, none => state
  | plan, content =>
    match parseLlmPlan py state plan content with
    | (observations, .ok steps) =>
      { state with observations := observations, plan := steps.take remainingBudget }
    | (observations, .error exc) =>
      { state with observations := observations ++
          ["[revise] ignored bad revision: ".toList ++ exc] }

/-- A reply without an id answers any request. -/
def answers (requestId : Text) : Option Json → Bool
  | none => true
  | some (.string rid) => rid = requestId
  | some _ => false

/-- A message that the loop does not wait for: a control message ends it, others are ignored. -/
def unexpected (c : Cortex) (type : Text) : Cortex × List ToVita :=
  if (["Shutdown", "Cancel", "CortexError"].map String.toList).contains type then
    abort c.state ("invocation aborted by vita control message: ".toList ++ type)
  else (c, [])

def FromVita.type : FromVita → Text
  | .toolResponse _ _ _ => "ToolResponse".toList
  | .llmResponse _ _ _ => "LlmResponse".toList
  | .other type => type

def Awaiting.what : Awaiting → Text
  | .planReply requestId => "LlmResponse to ".toList ++ py.repr requestId
  | .toolReply callId _ => "ToolResponse to ".toList ++ py.repr callId
  | .reviseReply requestId _ => "LlmResponse to ".toList ++ py.repr requestId
  | .ended => []

def Awaiting.seconds : Awaiting → Text
  | .toolReply _ _ => "120".toList
  | _ => "300".toList

def received (c : Cortex) (msg : FromVita) : Cortex × List ToVita :=
  match c.awaiting, msg with
  | .planReply requestId, .llmResponse rid plan content =>
    if answers requestId rid then planned py c.state plan content
    else (c, [])
  | .toolReply callId step, .toolResponse cid result error =>
    if cid = callId then
      let result := match error with
        | some error => if error = [] then result else "[error: ".toList ++ error ++ "]".toList
        | none => result
      revise py backend (observe py c.state step result)
    else (c, [])
  | .reviseReply requestId remainingBudget, .llmResponse rid plan content =>
    if answers requestId rid then act py (revised py c.state remainingBudget plan content)
    else (c, [])
  | .ended, _ => (c, [])
  | _, msg => unexpected c msg.type

/-- What is raised while the loop waits ends it; once it has ended nothing is read. -/
def raised (c : Cortex) (message : Text) : Cortex × List ToVita :=
  match c.awaiting with
  | .ended => (c, [])
  | _ => abort c.state message

/-- One arrival, up to the next wait. -/
def resume (c : Cortex) : Arrival → Cortex × List ToVita
  | .message msg => received py backend c msg
  | .timeout =>
    raised c ("timed out waiting for ".toList ++ c.awaiting.what py ++ " after ".toList ++
      c.awaiting.seconds ++ "s".toList)
  | .closed => raised c "vita closed the IPC socket unexpectedly".toList
  | .failed reason => raised c reason

end AgentLoop
