import AnimaOS.ChannelGateway

/-!
# Rounds of the channel gateway

What one round does, as an equation: the first messages of each inbox are gone,
what passes the checks is at the end of the bridge's queue, and each message has
its outcome. Over a run the inboxes and the queue add up.
-/

namespace ChannelGateway

open EgressGuard Machine QueueDrain SensoryBridge
open SyscallRouter (arrive)

/-! ## One message -/

section Messages

variable (debug : String → String) (config : GatewayConfig) (bounds : HumanGuidance)

/-- Why a content is refused: a limit of the gateway, or what the bridge has against it. -/
def refusal : ChannelContent → Option String
  | .text text => textViolation debug bounds text
  | .image bytes mime _ =>
    if bytes.length > config.maxImageBytes then
      some ("image size " ++ toString bytes.length ++ " B exceeds gateway limit " ++
        toString config.maxImageBytes ++ " B")
    else imageViolation bounds bytes mime
  | .voice samples =>
    if samples.length > config.maxPcmSamples then
      some ("voice frame " ++ toString samples.length ++ " samples exceeds gateway limit " ++
        toString config.maxPcmSamples ++ " samples")
    else pcmViolation bounds samples

def packetOf : ChannelContent → PrioritizedPacket
  | .text text => ⟨.text text, config.textPriority, none, none, .operator⟩
  | .image bytes mime caption =>
    ⟨.image bytes mime caption, config.imagePriority, none, none, .operator⟩
  | .voice samples => ⟨.pcm samples, config.voicePriority, none, none, .operator⟩

def accepted (content : ChannelContent) : List PrioritizedPacket :=
  if refusal debug config bounds content = none then [packetOf config content] else []

def verdict (channelId : String) (msg : ChannelMessage) : PollOutcome :=
  let reason := refusal debug config bounds msg.content
  ⟨channelId, msg.sender, msg.content.modality, reason.isNone, reason⟩

end Messages

theorem arrive_arrive (b : Bridge) (xs ys : List PrioritizedPacket) :
    arrive (arrive b xs) ys = arrive b (xs ++ ys) := by
  simp only [arrive, List.append_assoc]

variable {debug : String → String} {config : GatewayConfig}

theorem push_outcome (b : Bridge) (violation : Option String) (packet : PrioritizedPacket)
    (channelId sender : String) (modality : Modality) :
    ((push b violation packet).1,
        outcomeFromResult channelId sender modality (push b violation packet).2) =
      (arrive b (if violation = none then [packet] else []),
        ⟨channelId, sender, modality, violation.isNone, violation⟩) := by
  rcases push_cases b violation packet with ⟨reason, rfl, pushed⟩ | ⟨rfl, pushed⟩
  · rw [pushed]
    simp [arrive, outcomeFromResult]
  · rw [pushed]
    simp [arrive, outcomeFromResult]

theorem ingest_eq (channelId : String) (b : Bridge) (msg : ChannelMessage) :
    ingest debug config channelId b msg =
      (arrive b (accepted debug config b.activeBounds msg.content),
        verdict debug config b.activeBounds channelId msg) := by
  obtain ⟨sender, content⟩ := msg
  cases content with
  | text body => exact push_outcome b _ _ channelId sender .text
  | image bytes mime caption =>
    by_cases large : bytes.length > config.maxImageBytes
    · simp [ingest, accepted, verdict, refusal, large, arrive, ChannelContent.modality]
    · simp only [ingest, accepted, verdict, refusal, if_neg large]
      exact push_outcome b _ _ channelId sender .image
  | voice samples =>
    by_cases long : samples.length > config.maxPcmSamples
    · simp [ingest, accepted, verdict, refusal, long, arrive, ChannelContent.modality]
    · simp only [ingest, accepted, verdict, refusal, if_neg long]
      exact push_outcome b _ _ channelId sender .voice

section Routed

variable (debug config) (caps : ModalityCapability)
  (transcribe : List Int → Except String String) (bounds : HumanGuidance)

/-- What of a content reaches the checks of a routed round. -/
def routedContent (content : ChannelContent) : Option ChannelContent :=
  (routeInbound caps transcribe content).delivered content

def routedAccepted (content : ChannelContent) : List PrioritizedPacket :=
  (routedContent caps transcribe content).toList.flatMap (accepted debug config bounds)

def routedVerdict (channelId : String) (msg : ChannelMessage) : RoutedOutcome :=
  let decision := routeInbound caps transcribe msg.content
  ⟨decision, inboundAudit channelId msg.sender decision,
    (routedContent caps transcribe msg.content).map fun content =>
      verdict debug config bounds channelId ⟨msg.sender, content⟩⟩

end Routed

theorem ingestRouted_eq (caps : ModalityCapability) (transcribe : List Int → Except String String)
    (channelId : String) (b : Bridge) (msg : ChannelMessage) :
    ingestRouted debug config caps transcribe channelId b msg =
      (arrive b (routedAccepted debug config caps transcribe b.activeBounds msg.content),
        routedVerdict debug config caps transcribe b.activeBounds channelId msg) := by
  simp only [ingestRouted, routedAccepted, routedVerdict, routedContent]
  cases (routeInbound caps transcribe msg.content).delivered msg.content with
  | none => simp [arrive]
  | some content => simp [ingest_eq]

/-! ## One round -/

/-- The messages a round takes, each with the channel it came over. -/
def batch (adapters : List ChannelAdapter) : List (String × ChannelMessage) :=
  adapters.flatMap fun a => (a.inbox.take roundLimit).map (a.id, ·)

def ChannelAdapter.served (a : ChannelAdapter) : ChannelAdapter :=
  { a with inbox := a.inbox.drop roundLimit }

section Rounds

variable {O : Type} {handle : String → Bridge → ChannelMessage → Bridge × O}
  {enter : HumanGuidance → ChannelContent → List PrioritizedPacket}
  {answer : HumanGuidance → String → ChannelMessage → O}

theorem drain_shape
    (shape : ∀ channelId b msg, handle channelId b msg =
      (arrive b (enter b.activeBounds msg.content), answer b.activeBounds channelId msg))
    (channelId : String) (b : Bridge) (msgs : List ChannelMessage) :
    final (handle channelId) b msgs =
        arrive b (msgs.flatMap fun m => enter b.activeBounds m.content) ∧
      responses (handle channelId) b msgs = msgs.map (answer b.activeBounds channelId) := by
  induction msgs generalizing b with
  | nil => exact ⟨by simp [final, arrive], rfl⟩
  | cons msg rest ih =>
    obtain ⟨left, answers⟩ := ih (handle channelId b msg).1
    have first := shape channelId b msg
    rw [first] at left answers
    constructor
    · rw [final, first, left, arrive_arrive]
      rfl
    · simp only [responses, trace, first, List.map_cons] at answers ⊢
      rw [answers]
      rfl

theorem pollAll_eq
    (shape : ∀ channelId b msg, handle channelId b msg =
      (arrive b (enter b.activeBounds msg.content), answer b.activeBounds channelId msg))
    (adapters : List ChannelAdapter) (b : Bridge) :
    pollAll handle adapters b =
      (arrive b ((batch adapters).flatMap fun m => enter b.activeBounds m.2.content),
        adapters.map ChannelAdapter.served,
        (batch adapters).map fun m => answer b.activeBounds m.1 m.2) := by
  induction adapters generalizing b with
  | nil => simp [pollAll, batch, arrive]
  | cons a rest ih =>
    obtain ⟨left, answers⟩ := drain_shape shape a.id b (a.inbox.take roundLimit)
    have split : batch (a :: rest) = (a.inbox.take roundLimit).map (a.id, ·) ++ batch rest := rfl
    simp only [pollAll, drain_eq, left, answers, ih, arrive_arrive, split,
      List.flatMap_append, List.flatMap_map, List.map_append, List.map_map]
    rfl

end Rounds

theorem runOnce_eq (gw : Gateway) :
    runOnce debug gw =
      ({ gw with
          adapters := gw.adapters.map ChannelAdapter.served
          bridge := arrive gw.bridge ((batch gw.adapters).flatMap fun m =>
            accepted debug gw.config gw.bridge.activeBounds m.2.content) },
        (batch gw.adapters).map fun m =>
          verdict debug gw.config gw.bridge.activeBounds m.1 m.2) := by
  simp only [runOnce, pollAll_eq ingest_eq]

theorem runOnceRouted_eq (gw : Gateway) (caps : ModalityCapability)
    (transcribe : List Int → Except String String) :
    runOnceRouted debug gw caps transcribe =
      ({ gw with
          adapters := gw.adapters.map ChannelAdapter.served
          bridge := arrive gw.bridge ((batch gw.adapters).flatMap fun m =>
            routedAccepted debug gw.config caps transcribe gw.bridge.activeBounds m.2.content) },
        (batch gw.adapters).map fun m =>
          routedVerdict debug gw.config caps transcribe gw.bridge.activeBounds m.1 m.2) := by
  simp only [runOnceRouted, pollAll_eq (ingestRouted_eq caps transcribe)]

/-! ## Inboxes and queue over a run -/

section Runs

variable (toLowercase : Text → Text) (debug : String → String)

def inboxAt (i : Nat) (gw : Gateway) : List ChannelMessage :=
  (gw.adapters[i]?).elim [] ChannelAdapter.inbox

def room : Event → Nat
  | .runOnce => roundLimit
  | .runOnceRouted _ _ => roundLimit
  | _ => 0

def arrived (i : Nat) (c : Step) : List ChannelMessage :=
  match c.request with
  | .arrive index messages =>
    if index = i ∧ i < c.before.adapters.length then messages else []
  | _ => []

def taken (i : Nat) (c : Step) : List ChannelMessage :=
  (inboxAt i c.before).take (room c.request)

/-- The packets a round puts at the end of the bridge's queue. -/
def polled (c : Step) : List PrioritizedPacket :=
  let bounds := c.before.bridge.activeBounds
  match c.request with
  | .runOnce =>
    (batch c.before.adapters).flatMap fun m => accepted debug c.before.config bounds m.2.content
  | .runOnceRouted caps transcribe =>
    (batch c.before.adapters).flatMap fun m =>
      routedAccepted debug c.before.config caps transcribe bounds m.2.content
  | _ => []

def queuedByOthers (c : Step) : List PrioritizedPacket :=
  match c.request with
  | .queued packets => packets
  | _ => []

def popped (c : Step) : List PrioritizedPacket :=
  match c.response with
  | .packet taken => taken.toList
  | _ => []

/-- A round answers each message it took, in order, with the verdict on it. -/
def Answered (c : Step) : Prop :=
  let bounds := c.before.bridge.activeBounds
  match c.request with
  | .runOnce =>
    c.response = .polled ((batch c.before.adapters).map fun m =>
      verdict debug c.before.config bounds m.1 m.2)
  | .runOnceRouted caps transcribe =>
    c.response = .routed ((batch c.before.adapters).map fun m =>
      routedVerdict debug c.before.config caps transcribe bounds m.1 m.2)
  | _ => True

theorem inboxAt_served (i : Nat) (gw : Gateway) (bridge : Bridge) :
    inboxAt i { gw with adapters := gw.adapters.map ChannelAdapter.served, bridge } =
      (inboxAt i gw).drop roundLimit := by
  simp only [inboxAt, List.getElem?_map]
  cases gw.adapters[i]? with
  | none => rfl
  | some a => rfl

theorem inboxAt_arrive (i index : Nat) (gw : Gateway) (messages : List ChannelMessage) :
    inboxAt i { gw with adapters := gw.adapters.modify index (·.arrive messages) } =
      inboxAt i gw ++ if index = i ∧ i < gw.adapters.length then messages else [] := by
  simp only [inboxAt, List.getElem?_modify]
  by_cases here : index = i
  · subst here
    cases found : gw.adapters[index]? with
    | none =>
      have outside : ¬ index < gw.adapters.length :=
        Nat.not_lt_of_le (List.getElem?_eq_none_iff.mp found)
      simp [outside]
    | some a =>
      have inside : index < gw.adapters.length := (List.getElem?_eq_some_iff.mp found).1
      simp [inside, ChannelAdapter.arrive]
  · cases gw.adapters[i]? <;> simp [here]

theorem step_inbox (i : Nat) (gw : Gateway) (e : Event) (response : Response) :
    inboxAt i (step toLowercase debug gw e).1 =
      (inboxAt i gw).drop (room e) ++ arrived i ⟨gw, e, response⟩ := by
  cases e with
  | arrive index messages => exact inboxAt_arrive i index gw messages
  | runOnce =>
    rw [step, runOnce_eq, inboxAt_served, room, arrived, List.append_nil]
  | runOnceRouted caps transcribe =>
    rw [step, runOnceRouted_eq, inboxAt_served, room, arrived, List.append_nil]
  | _ => simp [step, room, arrived, inboxAt]

theorem step_queue (gw : Gateway) (e : Event) :
    let c : Step := ⟨gw, e, (step toLowercase debug gw e).2⟩
    gw.bridge.queue ++ (polled debug c ++ queuedByOthers c) =
      popped c ++ (step toLowercase debug gw e).1.bridge.queue := by
  cases e with
  | runOnce => simp [step, runOnce_eq, polled, queuedByOthers, popped, arrive]
  | runOnceRouted caps transcribe =>
    simp [step, runOnceRouted_eq, polled, queuedByOthers, popped, arrive]
  | nextPacket =>
    cases queue : gw.bridge.queue with
    | nil => simp [step, polled, queuedByOthers, popped, SyscallRouter.nextPrioritizedPacket, queue]
    | cons p rest =>
      simp [step, polled, queuedByOthers, popped, SyscallRouter.nextPrioritizedPacket, queue]
  | _ => simp [step, polled, queuedByOthers, popped, setActiveBounds, arrive]

theorem step_answered (gw : Gateway) (e : Event) :
    Answered debug ⟨gw, e, (step toLowercase debug gw e).2⟩ := by
  cases e with
  | runOnce => simp only [Answered, step, runOnce_eq]
  | runOnceRouted caps transcribe => simp only [Answered, step, runOnceRouted_eq]
  | _ => trivial

/-- No message is lost, doubled or overtaken between an inbox and the rounds, nor a packet
between the rounds and the reader of the bridge; and `n` rounds take the first `50 * n`. -/
theorem gateway_accounts (gw : Gateway) (events : List Event) :
    let run := trace (step toLowercase debug) gw events
    let after := final (step toLowercase debug) gw events
    (∀ i, inboxAt i gw ++ run.flatMap (arrived i) = run.flatMap (taken i) ++ inboxAt i after ∧
      (inboxAt i gw).take (events.map room).sum <+: run.flatMap (taken i)) ∧
    (∀ c ∈ run, Answered debug c) ∧
    gw.bridge.queue ++ run.flatMap (fun c => polled debug c ++ queuedByOthers c) =
      run.flatMap popped ++ after.bridge.queue := by
  refine ⟨fun i => ⟨?_, ?_⟩, ?_, ?_⟩
  · refine trace_conserves (fun gw e => ?_) gw events
    rw [step_inbox toLowercase debug i gw e, taken, ← List.append_assoc, List.take_append_drop]
  · exact trace_drains (fun _ _ => rfl) (fun gw e => step_inbox toLowercase debug i gw e _)
      gw events
  · intro c member
    obtain ⟨_, _, -, -, responded⟩ := mem_trace member
    have answered := step_answered toLowercase debug c.before c.request
    rw [← responded] at answered
    exact answered
  · exact @trace_conserves _ _ _ _ _ (fun gw : Gateway => gw.bridge.queue) _ _
      (step_queue toLowercase debug) gw events

end Runs

end ChannelGateway
