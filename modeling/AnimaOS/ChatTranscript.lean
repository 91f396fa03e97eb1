import AnimaOS.ToolBudget

/-!
# The transcript of the chat loop

Every completion is asked for with the conversation so far. In it each assistant
turn that declares tool calls is followed by one result for each of them.
-/

namespace CortexBridge

/-- A message that answers a declared call. -/
def Answers (call : ToolCall) (message : ChatMessage) : Prop :=
  ∃ text, message = .toolResult call.id text

/-- The results of the declared calls follow at once, in order, and no further one. -/
def Paired (messages : List ChatMessage) : Prop :=
  ∀ before text calls after, messages = before ++ .assistant text calls :: after → calls ≠ [] →
    ∃ results rest, after = results ++ rest ∧ List.Forall₂ Answers calls results ∧
      ∀ id text, rest.head? ≠ some (.toolResult id text)

/-- The transcripts of the completion calls of a run: after each initial part of the answers the
loop asks for another completion, or it has stopped. -/
def completionCalls (bridge : ChatCortexBridge) (env : Surroundings) (request : InvokeRequest)
    (completions : List (Except Text ChatResponse)) : List (List ChatMessage) :=
  (List.range (completions.length + 1)).filterMap fun n =>
    match chatInvoke bridge env request (completions.take n) with
    | (st, .waiting) => some st.messages
    | _ => none

/-! ## One round -/

theorem answers_result {call : ToolCall} {message : ChatMessage} (h : Answers call message)
    (text : Text) (calls : List ToolCall) : message ≠ .assistant text calls := by
  obtain ⟨result, rfl⟩ := h
  exact ChatMessage.noConfusion

theorem forall₂_mem {calls : List ToolCall} {results : List ChatMessage}
    (h : List.Forall₂ Answers calls results) {message : ChatMessage} (found : message ∈ results) :
    ∃ call, Answers call message := by
  induction h with
  | nil => cases found
  | @cons call first _ _ own _ ih =>
    rcases List.mem_cons.mp found with rfl | later
    · exact ⟨call, own⟩
    · exact ih later

theorem Paired.round {messages results : List ChatMessage} {text : Text} {calls : List ToolCall}
    (h : Paired messages) (answered : List.Forall₂ Answers calls results) :
    Paired (messages ++ .assistant text calls :: results) := by
  intro before text' calls' after split declared
  rcases List.append_eq_append_iff.mp split with ⟨zs, rfl, rest⟩ | ⟨zs, rfl, rest⟩
  · -- The turn is the new one: the results are no assistant turns.
    cases zs with
    | nil =>
      obtain ⟨same, rfl⟩ := List.cons.inj rest
      cases same
      exact ⟨results, [], (List.append_nil _).symm, answered, by simp⟩
    | cons z zs =>
      obtain ⟨rfl, tail⟩ := List.cons.inj rest
      have listed : ChatMessage.assistant text' calls' ∈ results := by
        rw [tail]
        exact List.mem_append_right zs List.mem_cons_self
      obtain ⟨call, own⟩ := forall₂_mem answered listed
      exact absurd rfl (answers_result own text' calls')
  · cases zs with
    | nil =>
      obtain ⟨same, rfl⟩ := List.cons.inj rest
      cases same
      exact ⟨after, [], (List.append_nil _).symm, answered, by simp⟩
    | cons z zs =>
      obtain ⟨rfl, rfl⟩ := List.cons.inj rest
      obtain ⟨own, others, rfl, paired, next⟩ := h before text' calls' zs rfl declared
      refine ⟨own, others ++ .assistant text calls :: results, List.append_assoc _ _ _, paired, ?_⟩
      intro id result
      cases others with
      | nil => simp
      | cons other others => simpa using next id result

/-- Every served call leaves its result behind the results before it. -/
theorem serveCalls_messages {env : Surroundings} {maxToolCalls : Nat} {calls : List ToolCall}
    {st st' : ChatLoop} (served : serveCalls env maxToolCalls st calls = (st', .served)) :
    ∃ results, st'.messages = st.messages ++ results ∧ List.Forall₂ Answers calls results := by
  induction calls generalizing st with
  | nil =>
    cases served
    exact ⟨[], (List.append_nil _).symm, .nil⟩
  | cons call rest ih =>
    rw [serveCalls] at served
    split at served
    · cases served
    · split at served
      · cases served
      · rename_i screening _
        obtain ⟨results, messages, answered⟩ := ih served
        let text := resultText screening (serve env st.calls call screening).2
        have answerMessages : (answer env st call screening).messages =
            st.messages ++ [.toolResult call.id text] := rfl
        refine ⟨.toolResult call.id text :: results, ?_, .cons ⟨text, rfl⟩ answered⟩
        rw [messages, answerMessages, List.append_assoc]
        rfl

/-! ## The turns -/

/-- A loop that waits for a completion has a turn left, and a paired transcript. -/
theorem chatTurns_waiting {env : Surroundings} {maxToolCalls turns : Nat} {st : ChatLoop}
    {completions : List (Except Text ChatResponse)} (paired : Paired st.messages)
    (waiting : (chatTurns env maxToolCalls turns st completions).2 = .waiting) :
    completions.length < turns ∧
      Paired (chatTurns env maxToolCalls turns st completions).1.messages := by
  induction turns generalizing st completions with
  | zero => cases waiting
  | succ turns ih =>
    cases completions with
    | nil => exact ⟨Nat.succ_pos turns, paired⟩
    | cons completion rest =>
      cases completion with
      | error message => cases waiting
      | ok response =>
        rw [chatTurns] at waiting ⊢
        by_cases final : response.toolCalls = []
        · rw [if_pos final] at waiting
          cases waiting
        · rw [if_neg final] at waiting ⊢
          cases ended : serveCalls env maxToolCalls (ask st response) response.toolCalls with
          | mk st' callsEnd =>
            rw [ended] at waiting
            cases callsEnd with
            | served =>
              obtain ⟨results, messages, answered⟩ := serveCalls_messages ended
              have round : Paired st'.messages := by
                rw [messages, ask, List.append_assoc]
                exact paired.round answered
              obtain ⟨left, later⟩ := ih round waiting
              exact ⟨Nat.succ_lt_succ left, later⟩
            | hitToolLimit => cases waiting
            | failed e => cases waiting

theorem chatInvoke_waiting {bridge : ChatCortexBridge} {env : Surroundings}
    {request : InvokeRequest} {completions : List (Except Text ChatResponse)}
    (waiting : (chatInvoke bridge env request completions).2 = .waiting) :
    completions.length < request.maxTurns.getD bridge.defaultMaxTurns ∧
      Paired (chatInvoke bridge env request completions).1.messages := by
  refine chatTurns_waiting ?_ waiting
  intro before text calls after split
  have listed : ChatMessage.assistant text calls ∈ before ++ .assistant text calls :: after := by
    simp
  rw [← split] at listed
  simp at listed

theorem chatInvoke_dispatched (bridge : ChatCortexBridge) (env : Surroundings)
    (request : InvokeRequest) (completions : List (Except Text ChatResponse)) :
    (chatInvoke bridge env request completions).1.calls.dispatched.length ≤
      request.maxToolCalls.getD bridge.defaultMaxToolCalls := by
  obtain ⟨more, split, part, -⟩ := chatTurns_dispatches env
    (request.maxToolCalls.getD bridge.defaultMaxToolCalls)
    (request.maxTurns.getD bridge.defaultMaxTurns)
    ⟨[.system (systemMessage request), .user request.description], .none, [], false⟩ completions
  have within := part.length_le
  rw [List.length_take] at within
  rw [chatInvoke, split]
  simp only [Calls.none, List.nil_append, List.length_nil] at within ⊢
  omega

theorem filterMap_range_length {α : Type} {f : Nat → Option α} {m bound : Nat}
    (below : ∀ n < m, ∀ a, f n = some a → n < bound) :
    ((List.range m).filterMap f).length ≤ min m bound := by
  induction m with
  | zero => simp
  | succ m ih =>
    have earlier := ih fun n hn => below n (by omega)
    rw [List.range_succ, List.filterMap_append, List.length_append]
    cases found : f m with
    | none =>
      simp only [List.filterMap_cons, found, List.filterMap_nil, List.length_nil]
      omega
    | some a =>
      have inside := below m (by omega) a found
      simp only [List.filterMap_cons, found, List.filterMap_nil, List.length_singleton]
      omega

/-- Whatever the backend completes and the dispatcher answers: no more completions than turns, no
more dispatches than tool calls, and every transcript that is sent is paired. -/
theorem transcripts_paired_and_bounded (bridge : ChatCortexBridge) (env : Surroundings)
    (request : InvokeRequest) (completions : List (Except Text ChatResponse)) :
    (completionCalls bridge env request completions).length ≤
        request.maxTurns.getD bridge.defaultMaxTurns ∧
      (chatInvoke bridge env request completions).1.calls.dispatched.length ≤
        request.maxToolCalls.getD bridge.defaultMaxToolCalls ∧
      ∀ messages ∈ completionCalls bridge env request completions, Paired messages := by
  refine ⟨?_, chatInvoke_dispatched bridge env request completions, ?_⟩
  · refine Nat.le_trans (filterMap_range_length ?_) (Nat.min_le_right (completions.length + 1) _)
    intro n short messages sent
    split at sent
    · rename_i st waits
      have waiting := chatInvoke_waiting (congrArg Prod.snd waits)
      rw [List.length_take] at waiting
      omega
    · cases sent
  · intro messages sent
    obtain ⟨n, -, sent⟩ := List.mem_filterMap.mp sent
    split at sent
    · rename_i st waits
      have waiting := chatInvoke_waiting (congrArg Prod.snd waits)
      rw [waits] at waiting
      cases sent
      exact waiting.2
    · cases sent

end CortexBridge
