import Mathlib.Data.List.Basic

/-!
# The cortex bridges and their tool loops

The router builds a request, and one of two loops serves it: over IPC frames
from the cortex process, or over completions of a chat backend. What the
defence layer and the tools answer may depend on every call made before.
-/

namespace CortexBridge

abbrev Text := List Char

/-! ## The request -/

structure ToolSpec where
  name : Text
  description : Text
  deriving DecidableEq, Repr

structure ToolScope where
  name : Text
  allowedTools : List Text
  deriving DecidableEq, Repr

def ToolScope.allows (scope : ToolScope) (toolName : Text) : Bool :=
  scope.allowedTools.any fun t => t = toolName

def ToolScope.filterTools (scope : ToolScope) (available : List ToolSpec) : List ToolSpec :=
  available.filter fun t => scope.allows t.name

structure InvokeMemoryScope where
  identity : Bool
  l1 : Bool
  l2 : Bool
  l3 : Bool
  deriving DecidableEq, Repr

structure MemoryScope where
  identity : Bool
  l1 : Bool
  l2 : Bool
  l3 : Bool
  kvController : Bool
  deriving DecidableEq, Repr

def MemoryScope.toInvokeScope (scope : MemoryScope) : InvokeMemoryScope :=
  ⟨scope.identity, scope.l1, scope.l2, scope.l3⟩

structure PromptScaffold where
  systemPrefix : Text
  systemSuffix : Text
  deriving DecidableEq, Repr

def PromptScaffold.apply (scaffold : PromptScaffold) (base : Text) : Text :=
  if scaffold.systemPrefix = [] ∧ scaffold.systemSuffix = [] then base
  else scaffold.systemPrefix ++ base ++ scaffold.systemSuffix

structure TerminationPolicy where
  maxTurns : Nat
  maxToolCalls : Nat
  deriving DecidableEq, Repr

structure Route where
  id : Text
  toolScope : ToolScope
  memoryScope : MemoryScope
  promptScaffold : PromptScaffold
  termination : TerminationPolicy
  deriving DecidableEq, Repr

/-- The identity is the text of its JSON value, `none` where that is null. -/
structure InvokeRequest where
  taskId : Text
  agentId : Text
  description : Text
  tools : List ToolSpec
  identity : Option Text
  routeId : Option Text
  memoryScope : Option InvokeMemoryScope
  maxTurns : Option Nat
  maxToolCalls : Option Nat
  deriving DecidableEq, Repr

def buildRoutedRequest (taskId agentId description : Text) (route : Route)
    (allTools : List ToolSpec) (identity : Option Text) : InvokeRequest where
  taskId := taskId
  agentId := agentId
  description := route.promptScaffold.apply description
  tools := route.toolScope.filterTools allTools
  identity := identity
  routeId := some route.id
  memoryScope := some route.memoryScope.toInvokeScope
  maxTurns := some route.termination.maxTurns
  maxToolCalls := some route.termination.maxToolCalls

/-! ## Tool calls -/

structure ToolCall where
  id : Text
  name : Text
  arguments : Text
  deriving DecidableEq, Repr

inductive ToolScreening where
  | allow
  | veto (reason : Text)
  deriving DecidableEq, Repr

inductive CortexError where
  | unexpectedEof
  | ipcError (message : Text)
  | cortexFault (message : Text)
  deriving DecidableEq, Repr

/-- What `screen_tool_call` and the tool dispatcher answer, given the calls made before. -/
structure Surroundings where
  screen : List ToolCall → ToolCall → Except CortexError ToolScreening
  dispatch : List ToolCall → ToolCall → Except Text Text

/-- The calls made so far (their number is `tool_calls_made`), those that were dispatched, and the
evidence they left. -/
structure Calls where
  made : List ToolCall
  dispatched : List ToolCall
  observableEvidence : List Text
  deriving DecidableEq, Repr

def Calls.none : Calls := ⟨[], [], []⟩

/-- The response to a call, and the calls after it. -/
def serve (env : Surroundings) (calls : Calls) (call : ToolCall) (screening : ToolScreening) :
    Calls × Except Text Text :=
  match screening with
  | .veto reason => ({ calls with made := calls.made ++ [call] }, .error reason)
  | .allow =>
    let response := env.dispatch calls.made call
    let evidence := match response with
      | .ok r => if r = [] then [] else [call.name ++ ": ".toList ++ r]
      | .error _ => []
    (⟨calls.made ++ [call], calls.dispatched ++ [call], calls.observableEvidence ++ evidence⟩,
      response)

/-! ## The IPC message loop -/

inductive Frame where
  | toolCall (call : ToolCall)
  | invokeComplete (output episodeSummary : Text)
  | llmRequest
  | cortexError (message : Text)
  | other
  deriving DecidableEq, Repr

inductive Received where
  | frame (msg : Frame)
  | eof
  | failed (message : Text)
  deriving DecidableEq, Repr

inductive Sent where
  | invokeRequest (taskId description : Text) (tools : List ToolSpec) (identity : Option Text)
  | toolResponse (callId : Text) (response : Except Text Text)
  | llmResponse

inductive LoopEnd where
  | waiting
  | complete (output episodeSummary : Text)
  | failed (error : CortexError)
  deriving DecidableEq, Repr

structure MessageLoop where
  calls : Calls
  sent : List Sent

/-- The loop over what is received; it waits where that ends. -/
def messageLoop (env : Surroundings) (st : MessageLoop) : List Received → MessageLoop × LoopEnd
  | [] => (st, .waiting)
  | .eof :: _ => (st, .failed .unexpectedEof)
  | .failed message :: _ => (st, .failed (.ipcError message))
  | .frame msg :: rest =>
    match msg with
    | .toolCall call =>
      match env.screen st.calls.made call with
      | .error e => (st, .failed e)
      | .ok screening =>
        let (calls, response) := serve env st.calls call screening
        messageLoop env ⟨calls, st.sent ++ [.toolResponse call.id response]⟩ rest
    | .invokeComplete output episodeSummary => (st, .complete output episodeSummary)
    | .llmRequest => messageLoop env { st with sent := st.sent ++ [.llmResponse] } rest
    | .cortexError message => (st, .failed (.cortexFault message))
    | .other => messageLoop env st rest

def runMessageLoop (env : Surroundings) (request : InvokeRequest) (received : List Received) :
    MessageLoop × LoopEnd :=
  messageLoop env
    ⟨.none, [.invokeRequest request.taskId request.description request.tools request.identity]⟩
    received

/-! ## The chat loop -/

structure ChatResponse where
  content : Text
  toolCalls : List ToolCall
  deriving DecidableEq, Repr

inductive ChatMessage where
  | system (text : Text)
  | user (text : Text)
  | assistant (text : Text) (toolCalls : List ToolCall)
  | toolResult (id text : Text)
  deriving DecidableEq, Repr

structure ChatCortexBridge where
  defaultMaxTurns : Nat
  defaultMaxToolCalls : Nat
  deriving DecidableEq, Repr

def ChatCortexBridge.new : ChatCortexBridge := ⟨8, 16⟩

structure ChatLoop where
  messages : List ChatMessage
  calls : Calls
  output : Text
  truncated : Bool
  deriving DecidableEq, Repr

inductive CallsEnd where
  | served
  | hitToolLimit
  | failed (error : CortexError)
  deriving DecidableEq, Repr

def resultText (screening : ToolScreening) : Except Text Text → Text
  | .ok r => r
  | .error e =>
    match screening with
    | .veto _ => "[tool blocked: ".toList ++ e ++ "]".toList
    | .allow => "[tool error: ".toList ++ e ++ "]".toList

/-- A call is served, and its result goes into the conversation. -/
def answer (env : Surroundings) (st : ChatLoop) (call : ToolCall) (screening : ToolScreening) :
    ChatLoop :=
  let (calls, response) := serve env st.calls call screening
  { st with
    calls := calls
    messages := st.messages ++ [.toolResult call.id (resultText screening response)] }

/-- The calls of one response, up to the bound on all calls of the invocation. -/
def serveCalls (env : Surroundings) (maxToolCalls : Nat) (st : ChatLoop) :
    List ToolCall → ChatLoop × CallsEnd
  | [] => (st, .served)
  | call :: rest =>
    if st.calls.made.length ≥ maxToolCalls then (st, .hitToolLimit)
    else
      match env.screen st.calls.made call with
      | .error e => (st, .failed e)
      | .ok screening => serveCalls env maxToolCalls (answer env st call screening) rest

/-- The assistant turn that asks for the calls goes into the conversation first. -/
def ask (st : ChatLoop) (response : ChatResponse) : ChatLoop :=
  { st with messages := st.messages ++ [.assistant response.content response.toolCalls] }

inductive ChatEnd where
  | waiting
  | ended
  | failed (error : CortexError)
  deriving DecidableEq, Repr

/-- An empty output after tool calls means that the turns ran out. -/
def endTurns (st : ChatLoop) : ChatLoop :=
  { st with truncated := st.truncated || (st.output = [] && st.calls.made ≠ []) }

/-- The turns that are left, over what the backend completes; it waits where that ends. -/
def chatTurns (env : Surroundings) (maxToolCalls : Nat) :
    Nat → ChatLoop → List (Except Text ChatResponse) → ChatLoop × ChatEnd
  | 0, st, _ => (endTurns st, .ended)
  | _ + 1, st, [] => (st, .waiting)
  | _ + 1, st, .error message :: _ =>
    (st, .failed (.cortexFault ("chat backend error: ".toList ++ message)))
  | turns + 1, st, .ok response :: rest =>
    if response.toolCalls = [] then (endTurns { st with output := response.content }, .ended)
    else
      match serveCalls env maxToolCalls (ask st response) response.toolCalls with
      | (st, .served) => chatTurns env maxToolCalls turns st rest
      | (st, .hitToolLimit) =>
        let output := if st.output = [] then response.content else st.output
        (endTurns { st with output := output, truncated := true }, .ended)
      | (st, .failed e) => (st, .failed e)

def systemMessage (request : InvokeRequest) : Text :=
  "You are the cortex of an autonomous agent (task ".toList ++ request.taskId ++
    "). Use the provided tools to accomplish the user's task, then reply ".toList ++
    "with a concise completion report. Call tools only when they help.".toList ++
    match request.identity with
    | none => []
    | some identity => "\nIdentity context:\n".toList ++ identity

def chatInvoke (bridge : ChatCortexBridge) (env : Surroundings) (request : InvokeRequest)
    (completions : List (Except Text ChatResponse)) : ChatLoop × ChatEnd :=
  chatTurns env (request.maxToolCalls.getD bridge.defaultMaxToolCalls)
    (request.maxTurns.getD bridge.defaultMaxTurns)
    ⟨[.system (systemMessage request), .user request.description], .none, [], false⟩ completions

end CortexBridge
