import AnimaOS.AgentTurns

/-!
# Vita and the cortex over their two streams

The cortex runs its agent loop and vita its message loop; frames queue up
between them, and either side, or the timer of the cortex, may move next. Vita
serves the calls in the order they were sent, at most once each, and the two
sides agree on their number; nothing waits forever.
-/

namespace CortexSession

open AgentLoop CortexBridge JsonGrammar Machine

/-! ## Vita's side -/

structure LlmPlanRequest where
  backend : Text
  purpose : Text
  description : Text
  tools : List ToolSpec
  observations : List Text
  remainingPlan : List Step
  identity : Json

structure LlmPlanResponse where
  plan : Option (List Step)
  content : Option Text

/-- A planner, whose answer may depend on everything it was asked before. -/
abbrev CortexPlanner := List LlmPlanRequest → LlmPlanRequest → LlmPlanResponse

def stepJson (step : Step) : Json :=
  .object [("tool_name".toList, .string step.toolName), ("args".toList, .string step.args),
    ("description".toList, .string step.description)]

def llmResponseFrame (requestId : Text) (response : LlmPlanResponse) : FromVita :=
  .llmResponse (some (.string requestId)) (response.plan.map fun steps =>
    .array (steps.map stepJson)) (response.content.map .string)

def toolResponse (callId : Text) : Except Text Text → FromVita
  | .ok result => .toolResponse callId result none
  | .error message => .toolResponse callId [] (some message)

/-- The calls served, the planning requests answered, and how the loop ended. -/
structure Vita where
  calls : Calls
  asked : List LlmPlanRequest
  ending : LoopEnd

def Vita.new : Vita := ⟨.none, [], .waiting⟩

variable (env : Surroundings) (planner : Option CortexPlanner)

def answer (asked : List LlmPlanRequest) (request : LlmPlanRequest) : LlmPlanResponse :=
  match planner with
  | some respond => respond asked request
  | none => ⟨none, none⟩

/-- One frame of `run_message_loop`; once the loop has ended nothing is read. -/
def handle (v : Vita) (f : ToVita) : Vita × List FromVita :=
  match v.ending, f with
  | .waiting, .toolCall callId toolName args =>
    match env.screen v.calls.made ⟨callId, toolName, args⟩ with
    | .error e => ({ v with ending := .failed e }, [])
    | .ok screening =>
      let served := serve env v.calls ⟨callId, toolName, args⟩ screening
      ({ v with calls := served.1 }, [toolResponse callId served.2])
  | .waiting, .llmRequest requestId backend purpose description tools identity observations
      remainingPlan =>
    let request := ⟨backend, purpose, description, tools, observations, remainingPlan, identity⟩
    ({ v with asked := v.asked ++ [request] },
      [llmResponseFrame requestId (answer planner v.asked request)])
  | .waiting, .invokeComplete output summary _ =>
    ({ v with ending := .complete output summary }, [])
  | .waiting, .cortexError message => ({ v with ending := .failed (.cortexFault message) }, [])
  | _, _ => (v, [])

/-- What the message loop makes of a frame of the cortex. -/
def frameOf : ToVita → Frame
  | .toolCall callId toolName args => .toolCall ⟨callId, toolName, args⟩
  | .llmRequest _ _ _ _ _ _ _ _ => .llmRequest
  | .invokeComplete output summary _ => .invokeComplete output summary
  | .cortexError message => .cortexError message

theorem ended_final {v : Vita} (ended : v.ending ≠ .waiting) (frames : List ToVita) :
    final (handle env planner) v frames = v := by
  induction frames with
  | nil => rfl
  | cons f rest ih =>
    have same : (handle env planner v f).1 = v := by
      unfold handle
      split <;> first | rfl | (next waits => exact absurd waits ended)
    rw [final, same]
    exact ih

/-- Frame by frame this is the message loop. -/
theorem handle_refines (v : Vita) (waiting : v.ending = .waiting) (sent : List Sent)
    (frames : List ToVita) :
    let w := final (handle env planner) v frames
    let m := messageLoop env ⟨v.calls, sent⟩ (frames.map fun f => .frame (frameOf f))
    m.1.calls = w.calls ∧ m.2 = w.ending := by
  induction frames generalizing v sent with
  | nil => exact ⟨rfl, waiting.symm⟩
  | cons f rest ih =>
    obtain ⟨calls, asked, ending⟩ := v
    obtain rfl : ending = .waiting := waiting
    cases f with
    | toolCall callId toolName args =>
      simp only [List.map_cons, frameOf, messageLoop, final, handle]
      cases screened : env.screen calls.made ⟨callId, toolName, args⟩ with
      | error e =>
        simp only
        rw [ended_final env planner (by simp)]
        exact ⟨rfl, rfl⟩
      | ok screening =>
        exact ih ⟨(serve env calls ⟨callId, toolName, args⟩ screening).1, asked, .waiting⟩ rfl _
    | llmRequest requestId backend purpose description tools identity observations remaining =>
      exact ih ⟨calls, asked ++ [⟨backend, purpose, description, tools, observations, remaining,
        identity⟩], .waiting⟩ rfl _
    | invokeComplete output summary n =>
      simp only [List.map_cons, frameOf, messageLoop, final, handle]
      rw [ended_final env planner (by simp)]
      exact ⟨rfl, rfl⟩
    | cortexError message =>
      simp only [List.map_cons, frameOf, messageLoop, final, handle]
      rw [ended_final env planner (by simp)]
      exact ⟨rfl, rfl⟩

/-- The calls served are the first of those that were read. While the loop runs they are all of
them, and when it is complete they are those before the frame that completed it. -/
theorem handle_served (v : Vita) (waiting : v.ending = .waiting) (read : List ToVita) :
    let w := final (handle env planner) v read
    w.calls.made <+: v.calls.made ++ toolCalls read ∧
    (w.ending = .waiting →
      w.calls.made = v.calls.made ++ toolCalls read ∧ ∀ f ∈ read, f.closes = false) ∧
    ∀ output summary, w.ending = .complete output summary →
      ∃ body n rest, read = body ++ .invokeComplete output summary n :: rest ∧
        w.calls.made = v.calls.made ++ toolCalls body := by
  induction read generalizing v with
  | nil =>
    refine ⟨by simp [final, toolCalls], fun _ => ⟨by simp [final, toolCalls], by simp⟩, ?_⟩
    intro output summary complete
    cases waiting.symm.trans complete
  | cons f rest ih =>
    obtain ⟨calls, asked, ending⟩ := v
    obtain rfl : ending = .waiting := waiting
    cases f with
    | toolCall callId toolName args =>
      simp only [final, handle]
      cases screened : env.screen calls.made ⟨callId, toolName, args⟩ with
      | error e =>
        simp only
        rw [ended_final env planner (by simp)]
        exact ⟨List.prefix_append _ _, by simp, by simp⟩
      | ok screening =>
        obtain ⟨first, running, complete⟩ :=
          ih ⟨(serve env calls ⟨callId, toolName, args⟩ screening).1, asked, .waiting⟩ rfl
        have made : (serve env calls ⟨callId, toolName, args⟩ screening).1.made =
            calls.made ++ [⟨callId, toolName, args⟩] := by
          unfold serve
          split <;> rfl
        simp only [made, List.append_assoc, List.singleton_append] at first running complete
        refine ⟨first, ?_, ?_⟩
        · intro waits
          obtain ⟨all, goesOn⟩ := running waits
          exact ⟨all, List.forall_mem_cons.mpr ⟨rfl, goesOn⟩⟩
        · intro output summary ended
          obtain ⟨body, n, late, rfl, all⟩ := complete output summary ended
          exact ⟨.toolCall callId toolName args :: body, n, late, rfl, all⟩
    | llmRequest requestId backend purpose description tools identity observations remaining =>
      obtain ⟨first, running, complete⟩ := ih ⟨calls, asked ++ [⟨backend, purpose, description,
        tools, observations, remaining, identity⟩], .waiting⟩ rfl
      refine ⟨first, ?_, ?_⟩
      · intro waits
        obtain ⟨all, goesOn⟩ := running waits
        exact ⟨all, List.forall_mem_cons.mpr ⟨rfl, goesOn⟩⟩
      · intro output summary ended
        obtain ⟨body, n, late, rfl, all⟩ := complete output summary ended
        exact ⟨_ :: body, n, late, rfl, all⟩
    | invokeComplete output summary n =>
      simp only [final, handle]
      rw [ended_final env planner (by simp)]
      refine ⟨List.prefix_append _ _, by simp, ?_⟩
      rintro _ _ ⟨⟩
      exact ⟨[], n, rest, rfl, by simp [toolCalls]⟩
    | cortexError message =>
      simp only [final, handle]
      rw [ended_final env planner (by simp)]
      exact ⟨List.prefix_append _ _, by simp, by simp⟩

/-! ## The session -/

/-- Both sides, what is under way to each, and everything the cortex has sent. -/
structure Session where
  cortex : Cortex
  vita : Vita
  toVita : List ToVita
  toCortex : List FromVita
  sent : List ToVita

/-- One side reads the next frame that is under way to it, or the timer of the cortex runs out. -/
inductive Event where
  | vitaReads
  | cortexReads
  | expire
  deriving DecidableEq, Repr

variable (py : Library) (backend : Text)

def opened (origin : AgentState) : Session :=
  let first := start py backend origin
  ⟨first.1, .new, first.2, [], first.2⟩

def Session.turn (s : Session) (result : Cortex × List ToVita) : Session :=
  { s with cortex := result.1, toVita := s.toVita ++ result.2, sent := s.sent ++ result.2 }

def Cortex.hasEnded (c : Cortex) : Bool :=
  match c.awaiting with
  | .ended => true
  | _ => false

/-- The session after an event, and whether there was anything to do. -/
def step (s : Session) : Event → Session × Bool
  | .vitaReads =>
    match s.toVita with
    | [] => (s, false)
    | f :: rest =>
      let handled := handle env planner s.vita f
      ({ s with vita := handled.1, toVita := rest, toCortex := s.toCortex ++ handled.2 }, true)
  | .cortexReads =>
    match s.toCortex with
    | [] => (s, false)
    | msg :: rest =>
      ({ s with toCortex := rest }.turn (resume py backend s.cortex (.message msg)), true)
  | .expire =>
    (s.turn (resume py backend s.cortex .timeout), !Cortex.hasEnded s.cortex)

/-- The frame asks for what the cortex waits for. -/
def Requests : Awaiting → ToVita → Prop
  | .toolReply callId step, f => f = .toolCall callId step.toolName step.args
  | .planReply requestId, f =>
    ∃ b p d t i o r, f = .llmRequest requestId b p d t i o r
  | .reviseReply requestId _, f =>
    ∃ b p d t i o r, f = .llmRequest requestId b p d t i o r
  | .ended, _ => False

/-- The message is what the cortex waits for. -/
def Replies : Awaiting → FromVita → Prop
  | .toolReply callId _, msg => ∃ result error, msg = .toolResponse callId result error
  | .planReply requestId, msg =>
    ∃ plan content, msg = .llmResponse (some (.string requestId)) plan content
  | .reviseReply requestId _, msg =>
    ∃ plan content, msg = .llmResponse (some (.string requestId)) plan content
  | .ended, _ => False

variable {env planner py backend}

theorem turn_requests {s : AgentState} {mayAsk : Bool} {result : Cortex × List ToVita}
    (turn : Turn py backend s mayAsk result) :
    result.1.awaiting = .ended ∨ ∃ f, result.2 = [f] ∧ Requests result.1.awaiting f := by
  cases turn with
  | call edited next room => exact Or.inr ⟨_, rfl, rfl⟩
  | ask edited may waits =>
    rcases waits with rfl | ⟨budget, rfl⟩
    · exact Or.inr ⟨_, rfl, _, _, _, _, _, _, _, rfl⟩
    · exact Or.inr ⟨_, rfl, _, _, _, _, _, _, _, rfl⟩
  | complete edited => exact Or.inl rfl
  | fail edited message => exact Or.inl rfl

/-- Vita replies to a request, or its loop has ended. -/
theorem handle_replies (v : Vita) {awaiting : Awaiting} {f : ToVita}
    (requests : Requests awaiting f) :
    (∃ msg, (handle env planner v f).2 = [msg] ∧ Replies awaiting msg) ∨
      (handle env planner v f).2 = [] ∧ (handle env planner v f).1.ending ≠ .waiting := by
  obtain ⟨calls, asked, ending⟩ := v
  cases ending with
  | complete output summary => exact Or.inr ⟨by simp [handle], by simp [handle]⟩
  | failed e => exact Or.inr ⟨by simp [handle], by simp [handle]⟩
  | waiting =>
    cases awaiting with
    | ended => cases requests
    | planReply requestId =>
      obtain ⟨b, p, d, t, i, o, r, rfl⟩ := requests
      exact Or.inl ⟨_, rfl, _, _, rfl⟩
    | reviseReply requestId budget =>
      obtain ⟨b, p, d, t, i, o, r, rfl⟩ := requests
      exact Or.inl ⟨_, rfl, _, _, rfl⟩
    | toolReply callId step =>
      obtain rfl := requests
      cases screened : env.screen calls.made ⟨callId, step.toolName, step.args⟩ with
      | error e => exact Or.inr ⟨by simp [handle, screened], by simp [handle, screened]⟩
      | ok screening =>
        refine Or.inl ⟨toolResponse callId
          (serve env calls ⟨callId, step.toolName, step.args⟩ screening).2, ?_, ?_⟩
        · simp [handle, screened]
        · cases (serve env calls ⟨callId, step.toolName, step.args⟩ screening).2
          · exact ⟨_, _, rfl⟩
          · exact ⟨_, _, rfl⟩

theorem handle_length (v : Vita) (f : ToVita) : (handle env planner v f).2.length ≤ 1 := by
  unfold handle
  split
  · split <;> simp
  · simp
  · simp
  · simp
  · simp

/-- What the cortex waits for is not ignored. -/
theorem reply_turn {c : Cortex} {msg : FromVita} (replies : Replies c.awaiting msg) :
    Turn py backend c.state c.awaiting.acting (resume py backend c (.message msg)) := by
  obtain ⟨state, awaiting⟩ := c
  cases awaiting with
  | ended => cases replies
  | planReply requestId =>
    obtain ⟨plan, content, rfl⟩ := replies
    simp only [resume, received, answers, decide_true, if_true]
    exact planned_turn state plan content false
  | reviseReply requestId budget =>
    obtain ⟨plan, content, rfl⟩ := replies
    simp only [resume, received, answers, decide_true, if_true]
    exact act_turn (revised_edited state budget plan content) false
  | toolReply callId step =>
    obtain ⟨result, error, rfl⟩ := replies
    simp only [resume, received, if_true]
    exact revise_turn (edited_observations state _)

/-! ## What holds between any two events -/

/-- One thing is outstanding while the cortex waits: its request, the reply, or neither, when vita
has ended. -/
def Outstanding (s : Session) : Prop :=
  (∃ f, s.toVita = [f] ∧ s.toCortex = [] ∧ Requests s.cortex.awaiting f) ∨
  (∃ msg, s.toVita = [] ∧ s.toCortex = [msg] ∧ Replies s.cortex.awaiting msg) ∨
  s.toVita = [] ∧ s.toCortex = [] ∧ s.vita.ending ≠ .waiting

structure Synced (env : Surroundings) (planner : Option CortexPlanner) (origin : AgentState)
    (s : Session) : Prop where
  said : Said origin s.cortex s.sent
  read : ∃ read, s.sent = read ++ s.toVita ∧ s.vita = final (handle env planner) .new read
  outstanding : s.cortex.awaiting ≠ .ended → Outstanding s

theorem opened_synced (taskId description : Text) (tools : List ToolSpec) (identity : Json) :
    let origin := AgentState.new taskId description tools identity
    Synced env planner origin (opened py backend origin) := by
  intro origin
  refine ⟨start_said py backend taskId description tools identity, ⟨[], rfl, rfl⟩, ?_⟩
  intro waits
  rcases turn_requests (@start_turn py backend origin) with ended | ⟨f, one, requests⟩
  · exact absurd ended waits
  · exact Or.inl ⟨f, one, rfl, requests⟩

/-- A turn of the cortex with nothing else outstanding leaves its request outstanding. -/
theorem turn_outstanding {s : Session} {old : AgentState} {mayAsk : Bool}
    {result : Cortex × List ToVita} (turn : Turn py backend old mayAsk result)
    (quiet : s.toVita = [] ∧ s.toCortex = []) (waits : result.1.awaiting ≠ .ended) :
    Outstanding (s.turn result) := by
  rcases turn_requests turn with ended | ⟨f, one, requests⟩
  · exact absurd ended waits
  · exact Or.inl ⟨f, by simp [Session.turn, quiet.1, one], quiet.2, requests⟩

theorem turn_read {s : Session} {read : List ToVita} (split : s.sent = read ++ s.toVita)
    (result : Cortex × List ToVita) : (s.turn result).sent = read ++ (s.turn result).toVita := by
  simp [Session.turn, split]

theorem step_synced {origin : AgentState} {s : Session} (synced : Synced env planner origin s)
    (e : Event) : Synced env planner origin (step env planner py backend s e).1 := by
  obtain ⟨said, ⟨read, split, served⟩, outstanding⟩ := synced
  cases e with
  | vitaReads =>
    cases queue : s.toVita with
    | nil => simpa [step, queue] using ⟨said, ⟨read, split, served⟩, outstanding⟩
    | cons f rest =>
      simp only [step, queue]
      refine ⟨said, ⟨read ++ [f], ?_, ?_⟩, ?_⟩
      · simp [split, queue]
      · simp [served, final_snoc]
      · intro waits
        rcases outstanding waits with ⟨g, one, none, requests⟩ | ⟨msg, none, -⟩ | ⟨none, -⟩
        · obtain ⟨rfl, rfl⟩ := List.cons.inj (queue.symm.trans one)
          rcases @handle_replies env planner s.vita _ _ requests with ⟨msg, reply, replies⟩ | silent
          · exact Or.inr (Or.inl ⟨msg, rfl, by simp [none, reply], replies⟩)
          · exact Or.inr (Or.inr ⟨rfl, by simp [none, silent.1], silent.2⟩)
        · cases queue.symm.trans none
        · cases queue.symm.trans none
  | cortexReads =>
    cases queue : s.toCortex with
    | nil => simpa [step, queue] using ⟨said, ⟨read, split, served⟩, outstanding⟩
    | cons msg rest =>
      simp only [step, queue]
      refine ⟨resume_said said _, ⟨read, turn_read split _, served⟩, ?_⟩
      intro waits
      by_cases ended : s.cortex.awaiting = .ended
      · have same := @ended_resume py backend _ ended (.message msg)
        exact absurd ended (by simpa [Session.turn, same] using waits)
      · rcases outstanding ended with ⟨g, -, none, -⟩ | ⟨m, none, one, replies⟩ | ⟨-, none, -⟩
        · cases queue.symm.trans none
        · obtain ⟨rfl, rfl⟩ := List.cons.inj (queue.symm.trans one)
          exact turn_outstanding (reply_turn replies) ⟨none, rfl⟩ waits
        · cases queue.symm.trans none
  | expire =>
    simp only [step]
    refine ⟨resume_said said _, ⟨read, turn_read split _, served⟩, ?_⟩
    exact fun waits => absurd (timeout_ends s.cortex) waits

theorem run_synced (py : Library) (backend : Text) (env : Surroundings)
    (planner : Option CortexPlanner) (taskId description : Text) (tools : List ToolSpec)
    (identity : Json) (events : List Event) :
    let origin := AgentState.new taskId description tools identity
    Synced env planner origin
      (final (step env planner py backend) (opened py backend origin) events) := by
  intro origin
  have keeps : ∀ s e, Synced env planner origin s →
      Synced env planner origin (step env planner py backend s e).1 :=
    fun s e synced => step_synced synced e
  exact final_invariant keeps (opened_synced taskId description tools identity) events

theorem Synced.agrees {origin : AgentState} {s : Session} (synced : Synced env planner origin s) :
    s.vita.calls.made <+: toolCalls s.sent ∧
    ∀ output summary, s.vita.ending = .complete output summary →
      s.vita.calls.made = toolCalls s.sent ∧ s.cortex.awaiting = .ended ∧
      s.sent.getLast? = some (.invokeComplete output summary s.vita.calls.made.length) := by
  obtain ⟨said, ⟨read, split, served⟩, -⟩ := synced
  obtain ⟨-, -, -, closes, closing⟩ := said.sound
  obtain ⟨first, -, complete⟩ := handle_served env planner .new rfl read
  rw [← served] at first complete
  have part : toolCalls read <+: toolCalls s.sent := by
    rw [split, toolCalls, toolCalls, List.filterMap_append]
    exact List.prefix_append _ _
  refine ⟨first.trans part, ?_⟩
  intro output summary ended
  obtain ⟨body, n, rest, rfl, all⟩ := complete output summary ended
  have whole : s.sent = body ++ .invokeComplete output summary n :: (rest ++ s.toVita) := by
    simpa using split
  obtain ⟨last, counted⟩ := closing _ _ _ whole rfl
  rw [last] at whole
  have made : s.vita.calls.made = toolCalls s.sent := by
    rw [whole, toolCalls_snoc]
    simpa [ToVita.call?, Vita.new, Calls.none] using all
  refine ⟨made, closes.mp ⟨_, whole ▸ List.mem_append_right _ List.mem_cons_self, rfl⟩, ?_⟩
  have number := counted output summary n rfl
  rw [made, ← number, whole, List.getLast?_concat]

theorem Synced.idle {origin : AgentState} {s : Session} (synced : Synced env planner origin s)
    (noFrame : s.toVita = []) (noMessage : s.toCortex = []) : s.vita.ending ≠ .waiting := by
  obtain ⟨said, ⟨read, split, served⟩, outstanding⟩ := synced
  intro waiting
  by_cases ended : s.cortex.awaiting = .ended
  · obtain ⟨-, -, -, closes, -⟩ := said.sound
    obtain ⟨f, listed, closing⟩ := closes.mpr ended
    obtain ⟨-, running, -⟩ := handle_served env planner .new rfl read
    rw [← served] at running
    have all : s.sent = read := by rw [split, noFrame, List.append_nil]
    have goesOn := (running waiting).2 f (all ▸ listed)
    exact absurd closing (by simp [goesOn])
  · rcases outstanding ended with ⟨f, one, -⟩ | ⟨msg, -, one, -⟩ | ⟨-, -, stopped⟩
    · cases noFrame.symm.trans one
    · cases noMessage.symm.trans one
    · exact stopped waiting

/-- However the two sides and the timer interleave: the calls that vita served are the first of
those the cortex sent, in order and each once; at most `MAX_TOOL_CALLS` were sent, and only of
tools that were given. When vita's loop is complete it has served all of them, and the cortex has
closed with that output and that number of calls. -/
theorem session_agrees (py : Library) (backend : Text) (env : Surroundings)
    (planner : Option CortexPlanner) (taskId description : Text) (tools : List ToolSpec)
    (identity : Json) (events : List Event) :
    let origin := AgentState.new taskId description tools identity
    let s := final (step env planner py backend) (opened py backend origin) events
    s.vita.calls.made <+: toolCalls s.sent ∧
    (toolCalls s.sent).length ≤ MAX_TOOL_CALLS ∧
    (∀ call ∈ toolCalls s.sent, call.name ∈ tools.map ToolSpec.name) ∧
    ∀ output summary, s.vita.ending = .complete output summary →
      s.vita.calls.made = toolCalls s.sent ∧ s.cortex.awaiting = .ended ∧
      s.sent.getLast? = some (.invokeComplete output summary s.vita.calls.made.length) := by
  intro origin s
  have synced := run_synced py backend env planner taskId description tools identity events
  obtain ⟨-, bounded, named, -, -⟩ := synced.said.sound
  exact ⟨synced.agrees.1, bounded, named, synced.agrees.2⟩

/-! ## Nothing waits forever -/

/-- What is left to do: turns of the cortex, and frames and messages to be read. -/
def potential (s : Session) : Nat :=
  3 * turnsLeft s.cortex + 2 * s.toVita.length + s.toCortex.length

theorem turnsLeft_pos {c : Cortex} (waits : Cortex.hasEnded c = false) : 0 < turnsLeft c := by
  obtain ⟨state, awaiting⟩ := c
  cases awaiting with
  | ended => cases waits
  | _ => exact Nat.succ_pos _

theorem step_potential (s : Session) (e : Event) :
    potential (step env planner py backend s e).1 +
      (step env planner py backend s e).2.toNat ≤ potential s := by
  cases e with
  | vitaReads =>
    cases queue : s.toVita with
    | nil => simp [step, queue]
    | cons f rest =>
      have replies := @handle_length env planner s.vita f
      simp only [step, queue, potential, List.length_append, List.length_cons, Bool.toNat_true]
      omega
  | cortexReads =>
    cases queue : s.toCortex with
    | nil => simp [step, queue]
    | cons msg rest =>
      have turn := @resume_turnsLeft py backend s.cortex (.message msg)
      simp only [step, queue, potential, Session.turn, List.length_append, List.length_cons,
        Bool.toNat_true]
      omega
  | expire =>
    have turn := @resume_turnsLeft py backend s.cortex .timeout
    cases ended : Cortex.hasEnded s.cortex with
    | true =>
      simp only [step, potential, Session.turn, List.length_append, ended, Bool.not_true,
        Bool.toNat_false]
      omega
    | false =>
      have some := turnsLeft_pos ended
      have done : turnsLeft (resume py backend s.cortex .timeout).1 = 0 := by
        rw [turnsLeft, timeout_ends]
      simp only [step, potential, Session.turn, List.length_append, ended, Bool.not_false,
        Bool.toNat_true]
      omega

theorem run_potential (s : Session) (events : List Event) :
    potential (final (step env planner py backend) s events) +
      (trace (step env planner py backend) s events).countP Call.response ≤ potential s := by
  induction events generalizing s with
  | nil => simp [final, trace]
  | cons e rest ih =>
    have here := @step_potential env planner py backend s e
    have later := ih (step env planner py backend s e).1
    have unit : ∀ b : Bool, (if b = true then 1 else 0) = b.toNat := by decide
    simp only [trace, final, List.countP_cons, unit]
    omega

/-- Whatever the schedule, all but a few of its events find nothing to do; and when nothing is under
way, vita's loop has ended. -/
theorem session_ends (py : Library) (backend : Text) (env : Surroundings)
    (planner : Option CortexPlanner) (taskId description : Text) (tools : List ToolSpec)
    (identity : Json) (events : List Event) :
    let origin := AgentState.new taskId description tools identity
    let s := final (step env planner py backend) (opened py backend origin) events
    (trace (step env planner py backend) (opened py backend origin) events).countP Call.response ≤
      3 * (2 * MAX_TOOL_CALLS + 1) + 2 ∧
    (s.toVita = [] → s.toCortex = [] → s.vita.ending ≠ .waiting) := by
  intro origin s
  have synced := run_synced py backend env planner taskId description tools identity events
  refine ⟨?_, synced.idle⟩
  have turn := @start_turn py backend origin
  have left := turn.turnsLeft
  have one := turn.one_frame
  have run := @run_potential env planner py backend (opened py backend origin) events
  have fresh : origin.toolCallsMade = 0 := rfl
  simp only [fresh, Bool.toNat_true] at left
  have total : potential (opened py backend origin) = 3 * turnsLeft (start py backend origin).1 +
    2 * (start py backend origin).2.length + 0 := rfl
  omega

end CortexSession
