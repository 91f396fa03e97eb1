import AnimaOS.CortexBridge

/-!
# Tool scope and call budget on the two bridges

The IPC loop checks neither the name of a tool nor the number of calls, the chat
loop only the number. Whatever the defence layer and the tools answer, the limits
of the request hold when the peer keeps to them by itself.
-/

namespace CortexBridge

def InScope (request : InvokeRequest) (call : ToolCall) : Prop :=
  ∃ t ∈ request.tools, t.name = call.name

/-- The dispatched calls keep to the tools and the call bound of the request. -/
structure Binds (request : InvokeRequest) (dispatched : List ToolCall) : Prop where
  scope : ∀ call ∈ dispatched, InScope request call
  budget : ∀ limit, request.maxToolCalls = some limit → dispatched.length ≤ limit

/-! ## What the peer asks for -/

/-- The tool calls received before the loop ends. -/
def requested : List Received → List ToolCall
  | .frame (.toolCall call) :: rest => call :: requested rest
  | .frame .llmRequest :: rest => requested rest
  | .frame .other :: rest => requested rest
  | _ => []

/-- The tool calls of the completions up to the first one that has none. -/
def turnCalls : Nat → List (Except Text ChatResponse) → List ToolCall
  | 0, _ => []
  | _ + 1, [] => []
  | _ + 1, .error _ :: _ => []
  | turns + 1, .ok response :: rest =>
    if response.toolCalls = [] then [] else response.toolCalls ++ turnCalls turns rest

/-- The defence layer vetoes nothing, as when none is attached. -/
def Permissive (env : Surroundings) : Prop := ∀ made call, env.screen made call = .ok .allow

/-- The loop has dispatched some of the calls it could, and all of them if nothing was vetoed. -/
def Dispatches (env : Surroundings) (before after : Calls) (possible : List ToolCall) : Prop :=
  ∃ more, after.dispatched = before.dispatched ++ more ∧ more.Sublist possible ∧
    (Permissive env → more = possible)

theorem Dispatches.none (env : Surroundings) (calls : Calls) : Dispatches env calls calls [] :=
  ⟨[], (List.append_nil _).symm, List.Sublist.refl _, fun _ => rfl⟩

theorem Dispatches.append {env : Surroundings} {first second third : Calls}
    {early late : List ToolCall} (start : Dispatches env first second early)
    (later : Dispatches env second third late) : Dispatches env first third (early ++ late) := by
  obtain ⟨more, split, part, all⟩ := start
  obtain ⟨more', split', part', all'⟩ := later
  refine ⟨more ++ more', ?_, part.append part', ?_⟩
  · rw [split', split, List.append_assoc]
  · exact fun permissive => by rw [all permissive, all' permissive]

@[simp]
theorem answer_calls (env : Surroundings) (st : ChatLoop) (call : ToolCall)
    (screening : ToolScreening) :
    (answer env st call screening).calls = (serve env st.calls call screening).1 := rfl

theorem serve_made (env : Surroundings) (calls : Calls) (call : ToolCall)
    (screening : ToolScreening) :
    (serve env calls call screening).1.made = calls.made ++ [call] := by
  cases screening with
  | allow => rfl
  | veto reason => rfl

theorem serve_dispatches {env : Surroundings} {calls : Calls} {call : ToolCall}
    {screening : ToolScreening} (screened : env.screen calls.made call = .ok screening) :
    Dispatches env calls (serve env calls call screening).1 [call] := by
  cases screening with
  | allow => exact ⟨[call], rfl, List.Sublist.refl _, fun _ => rfl⟩
  | veto reason =>
    refine ⟨[], (List.append_nil _).symm, List.nil_sublist _, ?_⟩
    intro permissive
    cases screened.symm.trans (permissive _ _)

/-- A fault of the defence layer ends the loop before the call is dispatched. -/
theorem dispatches_fault {env : Surroundings} {calls : Calls} {call : ToolCall} {e : CortexError}
    (faulty : env.screen calls.made call = .error e) (possible : List ToolCall) :
    Dispatches env calls calls possible := by
  refine ⟨[], (List.append_nil _).symm, List.nil_sublist _, ?_⟩
  intro permissive
  cases faulty.symm.trans (permissive _ _)

theorem Dispatches.cut {env : Surroundings} {before after : Calls} {early : List ToolCall}
    (start : Dispatches env before after early) (vetoes : ¬ Permissive env)
    (late : List ToolCall) : Dispatches env before after (early ++ late) := by
  obtain ⟨more, split, part, -⟩ := start
  exact ⟨more, split, part.trans (List.sublist_append_left early late), fun permissive =>
    absurd permissive vetoes⟩

/-! ## The IPC loop -/

theorem messageLoop_dispatches (env : Surroundings) (st : MessageLoop) (received : List Received) :
    Dispatches env st.calls (messageLoop env st received).1.calls (requested received) := by
  induction received generalizing st with
  | nil => exact .none env st.calls
  | cons r rest ih =>
    cases r with
    | eof => exact .none env st.calls
    | failed message => exact .none env st.calls
    | frame msg =>
      cases msg with
      | invokeComplete output episodeSummary => exact .none env st.calls
      | cortexError message => exact .none env st.calls
      | llmRequest => exact ih _
      | other => exact ih st
      | toolCall call =>
        rw [messageLoop]
        cases screened : env.screen st.calls.made call with
        | error e => exact dispatches_fault screened _
        | ok screening => exact (serve_dispatches screened).append (ih _)

/-! ## The chat loop -/

theorem serveCalls_served {env : Surroundings} {maxToolCalls : Nat} {calls : List ToolCall}
    {st st' : ChatLoop} (served : serveCalls env maxToolCalls st calls = (st', .served)) :
    st'.calls.made = st.calls.made ++ calls := by
  induction calls generalizing st with
  | nil =>
    cases served
    exact (List.append_nil _).symm
  | cons call rest ih =>
    rw [serveCalls] at served
    split at served
    · cases served
    · split at served
      · cases served
      · rw [ih served, answer_calls, serve_made, List.append_assoc]
        rfl

theorem serveCalls_limit {env : Surroundings} {maxToolCalls : Nat} {calls : List ToolCall}
    {st st' : ChatLoop} (limit : serveCalls env maxToolCalls st calls = (st', .hitToolLimit)) :
    maxToolCalls - st.calls.made.length ≤ calls.length := by
  induction calls generalizing st with
  | nil => cases limit
  | cons call rest ih =>
    rw [serveCalls] at limit
    split at limit
    · omega
    · split at limit
      · cases limit
      · have later := ih limit
        rw [answer_calls, serve_made, List.length_append] at later
        simp only [List.length_cons, List.length_nil] at later ⊢
        omega

theorem serveCalls_failed {env : Surroundings} {maxToolCalls : Nat} {calls : List ToolCall}
    {st st' : ChatLoop} {e : CortexError}
    (failed : serveCalls env maxToolCalls st calls = (st', .failed e)) : ¬ Permissive env := by
  intro permissive
  induction calls generalizing st with
  | nil => cases failed
  | cons call rest ih =>
    rw [serveCalls, permissive] at failed
    split at failed
    · cases failed
    · exact ih failed

theorem serveCalls_dispatches (env : Surroundings) (maxToolCalls : Nat) (calls : List ToolCall)
    (st : ChatLoop) :
    Dispatches env st.calls (serveCalls env maxToolCalls st calls).1.calls
      (calls.take (maxToolCalls - st.calls.made.length)) := by
  induction calls generalizing st with
  | nil =>
    rw [List.take_nil]
    exact .none env st.calls
  | cons call rest ih =>
    rw [serveCalls]
    split
    · rename_i full
      rw [Nat.sub_eq_zero_of_le full, List.take_zero]
      exact .none env st.calls
    · rename_i room
      split
      · rename_i e faulty
        exact dispatches_fault faulty _
      · rename_i screening screened
        have later := ih (answer env st call screening)
        have budget : maxToolCalls - st.calls.made.length =
            maxToolCalls - (st.calls.made ++ [call]).length + 1 := by
          rw [List.length_append, List.length_singleton]
          omega
        rw [budget, List.take_succ_cons]
        rw [answer_calls, serve_made] at later
        exact (serve_dispatches screened).append later

theorem chatTurns_dispatches (env : Surroundings) (maxToolCalls turns : Nat) (st : ChatLoop)
    (completions : List (Except Text ChatResponse)) :
    Dispatches env st.calls (chatTurns env maxToolCalls turns st completions).1.calls
      ((turnCalls turns completions).take (maxToolCalls - st.calls.made.length)) := by
  induction turns generalizing st completions with
  | zero =>
    rw [turnCalls, List.take_nil]
    exact .none env st.calls
  | succ turns ih =>
    cases completions with
    | nil =>
      rw [turnCalls, List.take_nil]
      exact .none env st.calls
    | cons completion rest =>
      cases completion with
      | error message =>
        rw [turnCalls, List.take_nil]
        exact .none env st.calls
      | ok response =>
        rw [chatTurns, turnCalls]
        by_cases final : response.toolCalls = []
        · rw [if_pos final, if_pos final, List.take_nil]
          exact .none env st.calls
        · rw [if_neg final, if_neg final, List.take_append, Nat.sub_sub]
          have part : Dispatches env st.calls _ _ :=
            serveCalls_dispatches env maxToolCalls response.toolCalls (ask st response)
          cases ended : serveCalls env maxToolCalls (ask st response) response.toolCalls with
          | mk st' callsEnd =>
            rw [ended] at part
            cases callsEnd with
            | served =>
              have later := ih st' rest
              rw [serveCalls_served ended, List.length_append] at later
              exact part.append later
            | hitToolLimit =>
              have full := Nat.sub_le_iff_le_add'.mp (serveCalls_limit ended)
              have spent : maxToolCalls - (st.calls.made.length + response.toolCalls.length) = 0 :=
                Nat.sub_eq_zero_of_le full
              rw [spent, List.take_zero, List.append_nil]
              exact part
            | failed e => exact part.cut (serveCalls_failed ended) _

/-! ## The limits of the request -/

theorem Binds.sublist {request : InvokeRequest} {possible dispatched : List ToolCall}
    (binds : Binds request possible) (part : dispatched.Sublist possible) :
    Binds request dispatched := by
  constructor
  · exact fun call listed => binds.scope call (part.subset listed)
  · exact fun limit set => Nat.le_trans part.length_le (binds.budget limit set)

/-- No defence layer, and tools that answer with nothing. -/
def unguarded : Surroundings := ⟨fun _ _ => .ok .allow, fun _ _ => .ok []⟩

/-- From no calls, the dispatched calls keep the limits under every behaviour of the defence layer
and the tools exactly when all possible calls do. -/
theorem binds_iff {request : InvokeRequest} {run : Surroundings → Calls} {possible : List ToolCall}
    (dispatches : ∀ env, Dispatches env .none (run env) possible) :
    (∀ env, Binds request (run env).dispatched) ↔ Binds request possible := by
  constructor
  · intro binds
    obtain ⟨more, split, -, all⟩ := dispatches unguarded
    have every := all fun _ _ => rfl
    subst every
    have bound := binds unguarded
    rwa [split] at bound
  · intro binds env
    obtain ⟨more, split, part, -⟩ := dispatches env
    rw [split]
    exact binds.sublist part

/-- Whatever the defence layer and the tools answer, both bridges keep to the tools and the call
bound of a routed request, exactly for peers that ask for nothing else: over IPC before the loop
ends, in a chat within the turns and the call bound. -/
theorem tool_limits_bind_iff (taskId agentId description : Text) (route : Route)
    (allTools : List ToolSpec) (identity : Option Text) (bridge : ChatCortexBridge)
    (received : List Received) (completions : List (Except Text ChatResponse)) :
    let request := buildRoutedRequest taskId agentId description route allTools identity
    (∀ env, Binds request (runMessageLoop env request received).1.calls.dispatched ∧
        Binds request (chatInvoke bridge env request completions).1.calls.dispatched) ↔
      ((∀ call ∈ requested received, InScope request call) ∧
        (requested received).length ≤ route.termination.maxToolCalls) ∧
      ∀ call ∈ (turnCalls route.termination.maxTurns completions).take
        route.termination.maxToolCalls, InScope request call := by
  intro request
  have overIpc := @binds_iff request _ (requested received) fun env =>
    messageLoop_dispatches env
      ⟨.none, [.invokeRequest request.taskId request.description request.tools request.identity]⟩
      received
  have inChat := @binds_iff request _ _ fun env =>
    chatTurns_dispatches env route.termination.maxToolCalls route.termination.maxTurns
      ⟨[.system (systemMessage request), .user request.description], .none, [], false⟩ completions
  rw [forall_and]
  constructor
  · rintro ⟨ipc, chat⟩
    have limits := overIpc.mp ipc
    exact ⟨⟨limits.scope, limits.budget _ rfl⟩, (inChat.mp chat).scope⟩
  · rintro ⟨⟨scope, budget⟩, chatScope⟩
    constructor
    · apply overIpc.mpr
      constructor
      · exact scope
      · rintro limit set
        cases set
        exact budget
    · apply inChat.mpr
      constructor
      · exact chatScope
      · rintro limit set
        cases set
        exact List.length_take_le _ _

/-- One search and no other tool. -/
def searchRoute : Route where
  id := "cheap-local".toList
  toolScope := ⟨"search".toList, ["web-search".toList]⟩
  memoryScope := ⟨true, true, false, false, false⟩
  promptScaffold := ⟨[], []⟩
  termination := ⟨3, 1⟩

def searchRequest : InvokeRequest :=
  buildRoutedRequest "t1".toList "a".toList "find it".toList searchRoute
    [⟨"web-search".toList, []⟩, ⟨"shell".toList, []⟩] none

def shellCall : ToolCall := ⟨"c1".toList, "shell".toList, "\x7b\x7d".toList⟩

theorem shell_calls_dispatched :
    (runMessageLoop unguarded searchRequest
        [.frame (.toolCall shellCall), .frame (.toolCall shellCall)]).1.calls.dispatched =
        [shellCall, shellCall] ∧
      (chatInvoke .new unguarded searchRequest [.ok ⟨[], [shellCall]⟩]).1.calls.dispatched =
        [shellCall] ∧
      ¬ InScope searchRequest shellCall ∧ searchRequest.maxToolCalls = some 1 := by
  refine ⟨?_, ?_, ?_, ?_⟩
  · rfl
  · rfl
  · rintro ⟨t, listed, named⟩
    rw [List.mem_singleton.mp listed] at named
    exact absurd named (by decide)
  · rfl

end CortexBridge
