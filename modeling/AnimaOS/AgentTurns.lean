import AnimaOS.AgentLoop
import AnimaOS.Machine

/-!
# Turns of the agent loop

Between two waits the loop takes one turn: it calls a tool, asks for a plan, or
closes. Whatever arrives, it calls at most `MAX_TOOL_CALLS` of the tools it was
given, numbers the calls, and closes with one frame.
-/

namespace AgentLoop

open CortexBridge JsonGrammar Machine

variable {py : Library} {backend : Text}

/-! ## What a turn can do -/

def AgentState.toolNames (state : AgentState) : List Text := state.availableTools.map ToolSpec.name

/-- Every step of the plan names a tool that was given. -/
def Planned (state : AgentState) : Prop := ∀ step ∈ state.plan, step.toolName ∈ state.toolNames

/-- The state with other observations and another plan of given tools. -/
structure Edited (s t : AgentState) : Prop where
  taskId : t.taskId = s.taskId
  availableTools : t.availableTools = s.availableTools
  toolCallsMade : t.toolCallsMade = s.toolCallsMade
  planned : Planned s → Planned t

theorem Edited.refl (s : AgentState) : Edited s s := ⟨rfl, rfl, rfl, id⟩

/-- What the cortex does between two waits: it calls the next tool, asks for a plan if it may,
completes the task, or fails. -/
inductive Turn (py : Library) (backend : Text) (s : AgentState) (mayAsk : Bool) :
    Cortex × List ToVita → Prop where
  | call {t : AgentState} (edited : Edited s t) {step : Step} {rest : List Step}
      (next : t.plan = step :: rest) (room : t.toolCallsMade < MAX_TOOL_CALLS) :
      Turn py backend s mayAsk
        (⟨{ t with plan := rest, toolCallsMade := t.toolCallsMade + 1 },
          .toolReply (callId t) step⟩, [.toolCall (callId t) step.toolName step.args])
  | ask {t : AgentState} (edited : Edited s t) (may : mayAsk = true) {purpose : Text}
      {observations : List Text} {remainingPlan : List Step} {awaiting : Awaiting}
      (waits : awaiting = .planReply (requestId purpose t) ∨
        ∃ budget, awaiting = .reviseReply (requestId purpose t) budget) :
      Turn py backend s mayAsk
        (⟨t, awaiting⟩, [askPlan backend purpose t observations remainingPlan])
  | complete {t : AgentState} (edited : Edited s t) :
      Turn py backend s mayAsk (⟨t, .ended⟩,
        [.invokeComplete (synthesiseOutput py t) (summariseEpisode py t) t.toolCallsMade])
  | fail {t : AgentState} (edited : Edited s t) (message : Text) :
      Turn py backend s mayAsk (⟨t, .ended⟩, [.cortexError message])

theorem act_turn {s t : AgentState} (edited : Edited s t) (mayAsk : Bool) :
    Turn py backend s mayAsk (act py t) := by
  unfold act
  split
  · next step rest next =>
    split
    · next room => exact .call edited next room
    · exact .complete edited
  · exact .complete edited

theorem mockPlan_planned (state : AgentState) :
    ∀ step ∈ mockPlan py state, step.toolName ∈ state.toolNames := by
  intro step listed
  simp only [mockPlan] at listed
  split at listed
  · next first rest _ given =>
    rw [List.mem_singleton.mp listed, AgentState.toolNames, given]
    exact List.mem_cons_self
  · next steps _ =>
    rcases List.mem_append.mp listed with clock | echo
    · split at clock
      · next known => exact List.mem_singleton.mp clock ▸ List.contains_iff_mem.mp known
      · cases clock
    · split at echo
      · next known => exact List.mem_singleton.mp echo ▸ List.contains_iff_mem.mp known
      · cases echo

theorem parseSteps_planned {toolNames : List Text} (index : Nat) (entries : List Json)
    (observations : List Text) {steps parsed : List Step}
    (known : ∀ step ∈ steps, step.toolName ∈ toolNames)
    (ok : (parseSteps py toolNames index entries observations steps).2 = .ok parsed) :
    ∀ step ∈ parsed, step.toolName ∈ toolNames := by
  induction entries generalizing index observations steps with
  | nil =>
    obtain rfl := Except.ok.inj ok
    exact known
  | cons entry rest ih =>
    cases entry with
    | object members =>
      simp only [parseSteps] at ok
      split at ok
      · split at ok
        · cases ok
        · split at ok
          · exact ih _ _ known ok
          · next listed =>
            split at ok
            · cases ok
            · refine ih _ _ ?_ ok
              intro step inside
              rcases List.mem_append.mp inside with before | last
              · exact known step before
              · rw [List.mem_singleton.mp last]
                exact List.contains_iff_mem.mp (Decidable.of_not_not listed)
      · cases ok
    | _ => cases ok

theorem parseLlmPlan_planned {state : AgentState} {plan content : Option Json}
    {parsed : List Step} (ok : (parseLlmPlan py state plan content).2 = .ok parsed) :
    ∀ step ∈ parsed, step.toolName ∈ state.toolNames := by
  simp only [parseLlmPlan] at ok
  split at ok
  · cases ok
  · next entries _ =>
    split at ok
    · cases ok
    · exact parseSteps_planned 0 entries state.observations (by simp) ok
  · cases ok

theorem edited_observations (s : AgentState) (observations : List Text) :
    Edited s { s with observations := observations } :=
  ⟨rfl, rfl, rfl, id⟩

theorem edited_plan (s : AgentState) (observations : List Text) {plan : List Step}
    (planned : ∀ step ∈ plan, step.toolName ∈ s.toolNames) :
    Edited s { s with observations := observations, plan := plan } :=
  ⟨rfl, rfl, rfl, fun _ => planned⟩

theorem start_turn (state : AgentState) : Turn py backend state true (start py backend state) := by
  unfold start
  split
  · exact act_turn (edited_plan state state.observations (mockPlan_planned state)) true
  · exact .ask (Edited.refl state) rfl (Or.inl rfl)

theorem planned_turn (state : AgentState) (plan content : Option Json) (mayAsk : Bool) :
    Turn py backend state mayAsk (planned py state plan content) := by
  unfold planned
  split
  · next observations steps parsed =>
    refine act_turn (edited_plan state observations fun step listed => ?_) mayAsk
    exact parseLlmPlan_planned (congrArg Prod.snd parsed) step listed
  · exact .fail (edited_observations state _) _

theorem revise_turn {s t : AgentState} (edited : Edited s t) :
    Turn py backend s true (revise py backend t) := by
  unfold revise
  simp only
  split
  · exact act_turn edited true
  · exact .ask edited rfl (Or.inr ⟨_, rfl⟩)

theorem revised_edited (state : AgentState) (remainingBudget : Nat) (plan content : Option Json) :
    Edited state (revised py state remainingBudget plan content) := by
  unfold revised
  split
  · exact Edited.refl state
  · cases parsed : (parseLlmPlan py state plan content).2 with
    | ok steps =>
      have split : parseLlmPlan py state plan content =
        ((parseLlmPlan py state plan content).1, .ok steps) := Prod.ext rfl parsed
      rw [split]
      refine edited_plan state _ fun step listed => ?_
      exact parseLlmPlan_planned parsed step (List.mem_of_mem_take listed)
    | error exc =>
      have split : parseLlmPlan py state plan content =
        ((parseLlmPlan py state plan content).1, .error exc) := Prod.ext rfl parsed
      rw [split]
      exact edited_observations state _

def Awaiting.acting : Awaiting → Bool
  | .toolReply _ _ => true
  | _ => false

theorem unexpected_turn (c : Cortex) (mayAsk : Bool) (type : Text) :
    unexpected c type = (c, []) ∨ Turn py backend c.state mayAsk (unexpected c type) := by
  unfold unexpected
  split
  · exact Or.inr (.fail (Edited.refl _) _)
  · exact Or.inl rfl

theorem received_turn (c : Cortex) (msg : FromVita) :
    received py backend c msg = (c, []) ∨
      Turn py backend c.state c.awaiting.acting (received py backend c msg) := by
  obtain ⟨state, awaiting⟩ := c
  cases awaiting with
  | ended => exact Or.inl rfl
  | planReply requestId =>
    cases msg with
    | llmResponse rid plan content =>
      simp only [received]
      split
      · exact Or.inr (planned_turn state plan content false)
      · exact Or.inl rfl
    | _ => exact unexpected_turn _ _ _
  | toolReply callId step =>
    cases msg with
    | toolResponse cid result error =>
      simp only [received]
      split
      · exact Or.inr (revise_turn (edited_observations state _))
      · exact Or.inl rfl
    | _ => exact unexpected_turn _ _ _
  | reviseReply requestId remainingBudget =>
    cases msg with
    | llmResponse rid plan content =>
      simp only [received]
      split
      · exact Or.inr (act_turn (revised_edited state remainingBudget plan content) _)
      · exact Or.inl rfl
    | _ => exact unexpected_turn _ _ _

theorem raised_turn (c : Cortex) (mayAsk : Bool) (message : Text) :
    raised c message = (c, []) ∨ Turn py backend c.state mayAsk (raised c message) := by
  obtain ⟨state, awaiting⟩ := c
  cases awaiting with
  | ended => exact Or.inl rfl
  | _ => exact Or.inr (.fail (Edited.refl state) message)

theorem ended_resume {c : Cortex} (ended : c.awaiting = .ended) (arrival : Arrival) :
    resume py backend c arrival = (c, []) := by
  obtain ⟨state, awaiting⟩ := c
  obtain rfl : awaiting = .ended := ended
  cases arrival <;> rfl

theorem timeout_ends (c : Cortex) : (resume py backend c .timeout).1.awaiting = .ended := by
  obtain ⟨state, awaiting⟩ := c
  cases awaiting <;> rfl

/-- An arrival is ignored, or it is followed by one turn. -/
theorem resume_turn (c : Cortex) (arrival : Arrival) :
    resume py backend c arrival = (c, []) ∨
      Turn py backend c.state c.awaiting.acting (resume py backend c arrival) := by
  cases arrival with
  | message msg => exact received_turn c msg
  | timeout => exact raised_turn c _ _
  | closed => exact raised_turn c _ _
  | failed reason => exact raised_turn c _ reason

/-! ## Everything that is sent -/

def ToVita.closes : ToVita → Bool
  | .invokeComplete _ _ _ => true
  | .cortexError _ => true
  | _ => false

def ToVita.call? : ToVita → Option ToolCall
  | .toolCall id name args => some ⟨id, name, args⟩
  | _ => none

def toolCalls (sent : List ToVita) : List ToolCall := sent.filterMap ToVita.call?

def numberedId (taskId : Text) (n : Nat) : Text :=
  "call-".toList ++ nat n ++ "-".toList ++ taskId

/-- How many more turns the loop can take. -/
def turnsLeft (c : Cortex) : Nat :=
  match c.awaiting with
  | .ended => 0
  | .toolReply _ _ => 2 * (MAX_TOOL_CALLS - c.state.toolCallsMade) + 2
  | _ => 2 * (MAX_TOOL_CALLS - c.state.toolCallsMade) + 1

/-- The loop that was started on `origin` is in state `s`, and the frames sent so far are its calls
and requests. -/
structure Going (origin s : AgentState) (sent : List ToVita) : Prop where
  taskId : s.taskId = origin.taskId
  availableTools : s.availableTools = origin.availableTools
  planned : Planned s
  numbered : (toolCalls sent).map ToolCall.id =
    (List.range s.toolCallsMade).map (numberedId origin.taskId)
  named : ∀ call ∈ toolCalls sent, call.name ∈ origin.toolNames
  bounded : s.toolCallsMade ≤ MAX_TOOL_CALLS
  goesOn : ∀ f ∈ sent, f.closes = false

/-- What was sent up to a wait of the loop: it goes on, or one frame closed it. -/
inductive Said (origin : AgentState) (c : Cortex) : List ToVita → Prop where
  | going {sent : List ToVita} (waits : c.awaiting ≠ .ended) (going : Going origin c.state sent) :
      Said origin c sent
  | closed {body : List ToVita} {last : ToVita} (ended : c.awaiting = .ended)
      (going : Going origin c.state body) (closes : last.closes = true)
      (counted : ∀ output summary n, last = .invokeComplete output summary n →
        n = c.state.toolCallsMade) : Said origin c (body ++ [last])

theorem Edited.going {origin s t : AgentState} {sent : List ToVita} (edited : Edited s t)
    (going : Going origin s sent) : Going origin t sent where
  taskId := edited.taskId.trans going.taskId
  availableTools := edited.availableTools.trans going.availableTools
  planned := edited.planned going.planned
  numbered := edited.toolCallsMade ▸ going.numbered
  named := going.named
  bounded := edited.toolCallsMade ▸ going.bounded
  goesOn := going.goesOn

theorem closes_call {f : ToVita} (closes : f.closes = true) : f.call? = none := by
  cases f <;> first | rfl | cases closes

theorem toolCalls_snoc (sent : List ToVita) (f : ToVita) :
    toolCalls (sent ++ [f]) = toolCalls sent ++ f.call?.toList := by
  cases called : f.call? <;> simp [toolCalls, called]

theorem Going.asked {origin s : AgentState} {sent : List ToVita} (going : Going origin s sent)
    {f : ToVita} (asks : f.call? = none) (goesOn : f.closes = false) :
    Going origin s (sent ++ [f]) where
  taskId := going.taskId
  availableTools := going.availableTools
  planned := going.planned
  numbered := by simpa [toolCalls_snoc, asks] using going.numbered
  named := by simpa [toolCalls_snoc, asks] using going.named
  bounded := going.bounded
  goesOn := by
    intro g listed
    rcases List.mem_append.mp listed with before | last
    · exact going.goesOn g before
    · exact List.mem_singleton.mp last ▸ goesOn

theorem Going.called {origin s : AgentState} {sent : List ToVita} (going : Going origin s sent)
    {step : Step} {rest : List Step} (next : s.plan = step :: rest)
    (room : s.toolCallsMade < MAX_TOOL_CALLS) :
    Going origin { s with plan := rest, toolCallsMade := s.toolCallsMade + 1 }
      (sent ++ [.toolCall (callId s) step.toolName step.args]) where
  taskId := going.taskId
  availableTools := going.availableTools
  planned := fun other listed => going.planned other (next ▸ List.mem_cons_of_mem step listed)
  numbered := by
    have id : callId s = numberedId origin.taskId s.toolCallsMade := by
      rw [callId, numberedId, going.taskId]
    simp [toolCalls_snoc, ToVita.call?, going.numbered, List.range_succ, id]
  named := by
    have given : step.toolName ∈ origin.toolNames := by
      have known := going.planned step (next ▸ List.mem_cons_self)
      rwa [AgentState.toolNames, going.availableTools] at known
    intro call listed
    rw [toolCalls_snoc] at listed
    rcases List.mem_append.mp listed with before | last
    · exact going.named call before
    · obtain rfl := List.mem_singleton.mp last
      exact given
  bounded := room
  goesOn := by
    intro g listed
    rcases List.mem_append.mp listed with before | last
    · exact going.goesOn g before
    · exact List.mem_singleton.mp last ▸ rfl

theorem Turn.turnsLeft {s : AgentState} {mayAsk : Bool} {result : Cortex × List ToVita}
    (turn : Turn py backend s mayAsk result) :
    turnsLeft result.1 ≤ 2 * (MAX_TOOL_CALLS - s.toolCallsMade) + mayAsk.toNat := by
  cases turn with
  | call edited next room =>
    have count := edited.toolCallsMade
    simp only [AgentLoop.turnsLeft]
    omega
  | ask edited may waits =>
    have count := edited.toolCallsMade
    rcases waits with rfl | ⟨budget, rfl⟩
    · simp only [AgentLoop.turnsLeft, may, Bool.toNat_true]
      omega
    · simp only [AgentLoop.turnsLeft, may, Bool.toNat_true]
      omega
  | complete edited => exact Nat.zero_le _
  | fail edited message => exact Nat.zero_le _

theorem Turn.one_frame {s : AgentState} {mayAsk : Bool} {result : Cortex × List ToVita}
    (turn : Turn py backend s mayAsk result) : result.2.length = 1 := by
  cases turn <;> rfl

theorem Turn.said {origin s : AgentState} {mayAsk : Bool} {sent : List ToVita}
    {result : Cortex × List ToVita} (turn : Turn py backend s mayAsk result)
    (going : Going origin s sent) : Said origin result.1 (sent ++ result.2) := by
  cases turn with
  | call edited next room =>
    exact .going (by simp) ((edited.going going).called next room)
  | ask edited may waits =>
    refine .going ?_ ((edited.going going).asked rfl rfl)
    rcases waits with rfl | ⟨budget, rfl⟩ <;> simp
  | complete edited =>
    refine .closed rfl (edited.going going) rfl ?_
    rintro output summary n same
    cases same
    rfl
  | fail edited message =>
    refine .closed rfl (edited.going going) rfl ?_
    rintro output summary n same
    cases same

theorem resume_said {origin : AgentState} {c : Cortex} {sent : List ToVita}
    (said : Said origin c sent) (arrival : Arrival) :
    Said origin (resume py backend c arrival).1 (sent ++ (resume py backend c arrival).2) := by
  cases said with
  | going waits going =>
    rcases @resume_turn py backend c arrival with ignored | turn
    · rw [ignored, List.append_nil]
      exact .going waits going
    · exact turn.said going
  | closed ended going closes counted =>
    rw [ended_resume ended arrival, List.append_nil]
    exact .closed ended going closes counted

/-- A turn uses up one of those that are left. -/
theorem resume_turnsLeft (c : Cortex) (arrival : Arrival) :
    (resume py backend c arrival).2.length + turnsLeft (resume py backend c arrival).1 ≤
      turnsLeft c := by
  obtain ⟨state, awaiting⟩ := c
  rcases @resume_turn py backend ⟨state, awaiting⟩ arrival with ignored | turn
  · rw [ignored]
    exact Nat.le_of_eq (Nat.zero_add _)
  · have left := turn.turnsLeft
    have one := turn.one_frame
    cases awaiting with
    | ended =>
      rw [ended_resume rfl]
      exact Nat.le_of_eq (Nat.zero_add _)
    | toolReply callId step =>
      simp only [Awaiting.acting, Bool.toNat_true] at left
      simp only [turnsLeft] at left ⊢
      omega
    | planReply requestId =>
      simp only [Awaiting.acting, Bool.toNat_false] at left
      simp only [turnsLeft] at left ⊢
      omega
    | reviseReply requestId budget =>
      simp only [Awaiting.acting, Bool.toNat_false] at left
      simp only [turnsLeft] at left ⊢
      omega

/-- Everything that is sent over a run. -/
def sentOver (py : Library) (backend : Text) (state : AgentState) (arrivals : List Arrival) :
    List ToVita :=
  (start py backend state).2 ++
    (trace (resume py backend) (start py backend state).1 arrivals).flatMap Call.response

theorem start_said (py : Library) (backend taskId description : Text) (tools : List ToolSpec)
    (identity : Json) :
    let state := AgentState.new taskId description tools identity
    Said state (start py backend state).1 (start py backend state).2 := by
  intro state
  have going : Going state state [] := by
    refine ⟨rfl, rfl, ?_, rfl, ?_, Nat.zero_le _, ?_⟩ <;>
      simp [state, AgentState.new, Planned, toolCalls]
  exact (start_turn state).said going

theorem run_said {origin : AgentState} {c : Cortex} {sent : List ToVita}
    (said : Said origin c sent) (arrivals : List Arrival) :
    Said origin (final (resume py backend) c arrivals)
      (sent ++ (trace (resume py backend) c arrivals).flatMap Call.response) := by
  induction arrivals generalizing c sent with
  | nil => simpa [trace, final] using said
  | cons a rest ih =>
    have here : Said origin (resume py backend c a).1 (sent ++ (resume py backend c a).2) :=
      resume_said said a
    simpa [trace, final] using ih here

theorem run_turnsLeft (c : Cortex) (arrivals : List Arrival) :
    ((trace (resume py backend) c arrivals).flatMap Call.response).length +
        turnsLeft (final (resume py backend) c arrivals) ≤ turnsLeft c := by
  induction arrivals generalizing c with
  | nil => simp [trace, final]
  | cons a rest ih =>
    have here := @resume_turnsLeft py backend c a
    have later := ih (resume py backend c a).1
    simp only [trace, final, List.flatMap_cons, List.length_append]
    omega

/-- A frame that closes after a body that goes on is the last one. -/
theorem closing_last {body early late : List ToVita} {last f : ToVita}
    (goesOn : ∀ g ∈ body, g.closes = false) (split : body ++ [last] = early ++ f :: late)
    (closes : f.closes = true) : late = [] ∧ f = last := by
  rcases List.eq_nil_or_concat late with rfl | ⟨front, x, rfl⟩
  · exact ⟨rfl, (List.append_inj_right' split rfl |> List.cons.inj).1.symm⟩
  · have same : body ++ [last] = (early ++ f :: front) ++ [x] := by simp [split]
    have inside : f ∈ body := by
      rw [List.append_inj_left' same rfl]
      exact List.mem_append_right _ List.mem_cons_self
    exact absurd (goesOn f inside) (by simp [closes])

theorem Said.sound {origin : AgentState} {c : Cortex} {sent : List ToVita}
    (said : Said origin c sent) :
    (toolCalls sent).map ToolCall.id =
      (List.range (toolCalls sent).length).map (numberedId origin.taskId) ∧
    (toolCalls sent).length ≤ MAX_TOOL_CALLS ∧
    (∀ call ∈ toolCalls sent, call.name ∈ origin.toolNames) ∧
    ((∃ f ∈ sent, f.closes = true) ↔ c.awaiting = .ended) ∧
    ∀ early f late, sent = early ++ f :: late → f.closes = true → late = [] ∧
      ∀ output summary n, f = .invokeComplete output summary n → n = (toolCalls sent).length := by
  have count : ∀ {body : List ToVita}, Going origin c.state body →
      (toolCalls body).length = c.state.toolCallsMade := by
    intro body going
    simpa using congrArg List.length going.numbered
  cases said with
  | going waits going =>
    have made := count going
    refine ⟨made ▸ going.numbered, made ▸ going.bounded, going.named, ?_, ?_⟩
    · refine ⟨?_, fun ended => absurd ended waits⟩
      rintro ⟨f, listed, closes⟩
      exact absurd (going.goesOn f listed) (by simp [closes])
    · rintro early f late rfl closes
      have goesOn := going.goesOn f (List.mem_append_right _ List.mem_cons_self)
      exact absurd goesOn (by simp [closes])
  | @closed body last ended going closes counted =>
    have made := count going
    have same : toolCalls (body ++ [last]) = toolCalls body := by
      simp [toolCalls_snoc, closes_call closes]
    rw [same]
    refine ⟨made ▸ going.numbered, made ▸ going.bounded, going.named, ?_, ?_⟩
    · refine ⟨fun _ => ended, fun _ => ⟨last, ?_, closes⟩⟩
      exact List.mem_append_right _ (List.mem_singleton.mpr rfl)
    · intro early f late split closes
      obtain ⟨none, rfl⟩ := closing_last going.goesOn split closes
      exact ⟨none, fun output summary n done => made ▸ counted output summary n done⟩

/-- Whatever arrives: the calls are numbered from zero in the order they are sent, there are at most
`MAX_TOOL_CALLS` of them, each of a tool that was given. At most two frames are sent for each call
and two more; a frame that closes is the last one, is there when the loop has ended and only then,
and a completion tells the number of the calls. -/
theorem agent_loop_bounded (py : Library) (backend taskId description : Text)
    (tools : List ToolSpec) (identity : Json) (arrivals : List Arrival) :
    let state := AgentState.new taskId description tools identity
    let c := final (resume py backend) (start py backend state).1 arrivals
    let sent := sentOver py backend state arrivals
    (toolCalls sent).map ToolCall.id =
      (List.range (toolCalls sent).length).map (numberedId taskId) ∧
    (toolCalls sent).length ≤ MAX_TOOL_CALLS ∧
    (∀ call ∈ toolCalls sent, call.name ∈ tools.map ToolSpec.name) ∧
    sent.length ≤ 2 * MAX_TOOL_CALLS + 2 ∧
    ((∃ f ∈ sent, f.closes = true) ↔ c.awaiting = .ended) ∧
    ∀ early f late, sent = early ++ f :: late → f.closes = true → late = [] ∧
      ∀ output summary n, f = .invokeComplete output summary n → n = (toolCalls sent).length := by
  intro state c sent
  have opened := start_said py backend taskId description tools identity
  obtain ⟨numbered, bounded, named, ends, closing⟩ := (run_said opened arrivals).sound
  refine ⟨numbered, bounded, named, ?_, ends, closing⟩
  have first := (@start_turn py backend state).turnsLeft
  have one := (@start_turn py backend state).one_frame
  have more := @run_turnsLeft py backend (start py backend state).1 arrivals
  have fresh : state.toolCallsMade = 0 := rfl
  simp only [fresh, Bool.toNat_true] at first
  simp only [sent, sentOver, List.length_append]
  omega

end AgentLoop
