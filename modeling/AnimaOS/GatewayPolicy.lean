import AnimaOS.GatewayRounds

/-!
# What passes the channel gateway

Inwards, a packet from a channel is within the limits of the gateway and the
bounds in force when it entered, and a round routed for a backend without vision
lets text alone through, captions too held against the bounds. Outwards, only
text leaves, over a live adapter whose service the egress guard allows, and the
audit has a record for each reply the service took.
-/

namespace ChannelGateway

open EgressGuard Machine SensoryBridge

/-! ## Packets from channels -/

/-- A packet as the gateway makes it: with the priority of its kind and no privilege. -/
structure Plain (config : GatewayConfig) (p : PrioritizedPacket) : Prop where
  origin : p.origin = .operator
  ungated : p.gateOverrideReason = none
  untagged : p.messageId = none
  priority : p.priority =
    match p.packet with
    | .text _ => config.textPriority
    | .image _ _ _ => config.imagePriority
    | .pcm _ => config.voicePriority

def Checked (config : GatewayConfig) (bounds : HumanGuidance) : SensoryPacket → Prop
  | .text text => text ≠ "" ∧ Within bounds text
  | .image bytes mime _ =>
    bytes ≠ [] ∧ bytes.length ≤ config.maxImageBytes ∧
      (∀ max ∈ bounds.maxImageBytes, bytes.length ≤ max) ∧ "image/".toList <+: mime.toList
  | .pcm samples =>
    samples ≠ [] ∧ samples.length ≤ config.maxPcmSamples ∧
      ∀ max ∈ bounds.maxPcmSamples, samples.length ≤ max

variable {debug : String → String} {config : GatewayConfig} {bounds : HumanGuidance}

theorem packetOf_plain (content : ChannelContent) : Plain config (packetOf config content) := by
  cases content <;> exact ⟨rfl, rfl, rfl, rfl⟩

theorem imageViolation_none {bytes : List UInt8} {mime : String}
    (passes : imageViolation bounds bytes mime = none) :
    bytes ≠ [] ∧ (∀ max ∈ bounds.maxImageBytes, bytes.length ≤ max) ∧
      "image/".toList <+: mime.toList := by
  unfold imageViolation at passes
  split at passes
  · cases passes
  next given =>
  split at passes
  · cases passes
  split at passes
  · cases passes
  next typed =>
  have started : "image/".toList.isPrefixOf mime.toList = true := by simpa using typed
  exact ⟨by simpa using given, overLimit_none passes, List.isPrefixOf_iff_prefix.mp started⟩

theorem pcmViolation_none {samples : List Int} (passes : pcmViolation bounds samples = none) :
    samples ≠ [] ∧ ∀ max ∈ bounds.maxPcmSamples, samples.length ≤ max := by
  unfold pcmViolation at passes
  split at passes
  · cases passes
  next given => exact ⟨by simpa using given, overLimit_none passes⟩

theorem textViolation_nonempty {text : String} (passes : textViolation debug bounds text = none) :
    text ≠ "" := by
  rintro rfl
  cases passes

theorem refusal_none {content : ChannelContent}
    (passes : refusal debug config bounds content = none) :
    Checked config bounds (packetOf config content).packet := by
  cases content with
  | text text => exact ⟨textViolation_nonempty passes, textViolation_none passes⟩
  | image bytes mime caption =>
    simp only [refusal] at passes
    split at passes
    · cases passes
    next small =>
    obtain ⟨given, within, typed⟩ := imageViolation_none passes
    exact ⟨given, Nat.le_of_not_gt small, within, typed⟩
  | voice samples =>
    simp only [refusal] at passes
    split at passes
    · cases passes
    next short =>
    obtain ⟨given, within⟩ := pcmViolation_none passes
    exact ⟨given, Nat.le_of_not_gt short, within⟩

theorem mem_accepted {content : ChannelContent} {p : PrioritizedPacket} :
    p ∈ accepted debug config bounds content ↔
      refusal debug config bounds content = none ∧ p = packetOf config content := by
  unfold accepted
  split
  · next passes => simp [passes]
  · next refused => simp [refused]

theorem accepted_checked {content : ChannelContent} {p : PrioritizedPacket}
    (entered : p ∈ accepted debug config bounds content) :
    Plain config p ∧ Checked config bounds p.packet := by
  obtain ⟨passes, rfl⟩ := mem_accepted.mp entered
  exact ⟨packetOf_plain content, refusal_none passes⟩

/-- Voice is delivered as its transcript; an image as itself only to a backend with vision. -/
theorem routedContent_kind {caps : ModalityCapability}
    {transcribe : List Int → Except String String} {content delivered : ChannelContent}
    (routed : routedContent caps transcribe content = some delivered) :
    (∃ text, delivered = .text text) ∨
      caps.vision = true ∧ ∃ bytes mime caption, delivered = .image bytes mime caption := by
  cases content with
  | text body =>
    cases routed
    exact .inl ⟨body, rfl⟩
  | image bytes mime caption =>
    simp only [routedContent, routeInbound] at routed
    split at routed
    · next vision =>
      cases routed
      exact .inr ⟨vision, bytes, mime, caption, rfl⟩
    · split at routed
      · next cap _ =>
        cases routed
        exact .inl ⟨cap, rfl⟩
      · cases routed
  | voice samples =>
    simp only [routedContent, routeInbound] at routed
    split at routed
    · cases routed
    · split at routed
      · next transcript _ =>
        cases routed
        exact .inl ⟨transcript, rfl⟩
      · cases routed

variable (toLowercase : Text → Text) (debug : String → String)

def Event.isRound : Event → Bool
  | .runOnce => true
  | .runOnceRouted _ _ => true
  | _ => false

theorem round_queue (gw : Gateway) {e : Event} (round : e.isRound = true) :
    (step toLowercase debug gw e).1.bridge.queue =
      gw.bridge.queue ++ polled debug ⟨gw, e, (step toLowercase debug gw e).2⟩ := by
  have grown := step_queue toLowercase debug gw e
  cases e with
  | runOnce => simpa [queuedByOthers, popped, step] using grown.symm
  | runOnceRouted caps transcribe => simpa [queuedByOthers, popped, step] using grown.symm
  | _ => cases round

/-- A round adds its packets to the queue and nothing else, and every one is plain and within the
limits and bounds of the moment; a routed round queues no voice, and without vision nothing but
text. -/
theorem gateway_admits (gw : Gateway) (events : List Event) :
    ∀ c ∈ trace (step toLowercase debug) gw events,
      (c.request.isRound = true → (step toLowercase debug c.before c.request).1.bridge.queue =
        c.before.bridge.queue ++ polled debug c) ∧
      ∀ p ∈ polled debug c,
        Plain c.before.config p ∧ Checked c.before.config c.before.bridge.activeBounds p.packet ∧
        ∀ caps transcribe, c.request = .runOnceRouted caps transcribe →
          (∀ samples, p.packet ≠ .pcm samples) ∧
          (caps.vision = false → ∃ text, p.packet = .text text) := by
  intro c _
  refine ⟨fun round => round_queue toLowercase debug c.before round, fun p entered => ?_⟩
  unfold polled at entered
  split at entered
  · next once =>
    obtain ⟨m, -, passed⟩ := List.mem_flatMap.mp entered
    obtain ⟨plain, checked⟩ := accepted_checked passed
    refine ⟨plain, checked, fun caps transcribe routed => ?_⟩
    rw [once] at routed
    cases routed
  · next caps transcribe routed =>
    obtain ⟨m, -, passed⟩ := List.mem_flatMap.mp entered
    obtain ⟨content, delivered, kept⟩ := List.mem_flatMap.mp passed
    obtain ⟨plain, checked⟩ := accepted_checked kept
    refine ⟨plain, checked, fun caps' transcribe' same => ?_⟩
    obtain ⟨rfl, rfl⟩ := Event.runOnceRouted.inj (routed.symm.trans same)
    obtain ⟨-, rfl⟩ := mem_accepted.mp kept
    rcases routedContent_kind (Option.mem_toList.mp delivered) with
      ⟨text, rfl⟩ | ⟨vision, bytes, mime, caption, rfl⟩
    · exact ⟨nofun, fun _ => ⟨text, rfl⟩⟩
    · refine ⟨nofun, fun blind => ?_⟩
      rw [vision] at blind
      cases blind
  · cases entered

/-- A channel with one greeting for the agent. -/
def greeted (live : Bool) : Gateway where
  adapters := [telegramAdapter [⟨"ann", .text "hi"⟩] live Guard.default]
  bridge := ⟨⟨none, none, [], none⟩, []⟩
  config := .default

theorem gateway_admits_greeting :
    let p : PrioritizedPacket := ⟨.text "hi", .normal, none, none, .operator⟩
    (step id id (greeted false) .runOnce).1.bridge.queue = [p] ∧
    Plain .default p ∧ Checked .default (greeted false).bridge.activeBounds p.packet :=
  have admitted := gateway_admits id id (greeted false) [.runOnce] _ List.mem_cons_self
  have greeting := admitted.2 ⟨.text "hi", .normal, none, none, .operator⟩ (by decide)
  ⟨(admitted.1 rfl).trans (by decide), greeting.1, greeting.2.1⟩

/-! ## Replies to channels -/

/-- What stays of an adapter over a run: all but its inbox. -/
def ChannelAdapter.emptied (a : ChannelAdapter) : ChannelAdapter := { a with inbox := [] }

theorem step_adapters (gw : Gateway) (e : Event) :
    (step toLowercase debug gw e).1.adapters.map ChannelAdapter.emptied =
      gw.adapters.map ChannelAdapter.emptied := by
  cases e with
  | arrive index messages =>
    simp only [step]
    refine List.ext_getElem? fun i => ?_
    simp only [List.getElem?_map, List.getElem?_modify]
    cases gw.adapters[i]? with
    | none => rfl
    | some a =>
      by_cases here : index = i
      · simp [here, ChannelAdapter.arrive, ChannelAdapter.emptied]
      · simp [here]
  | runOnce =>
    rw [step, runOnce_eq, List.map_map]
    rfl
  | runOnceRouted caps transcribe =>
    rw [step, runOnceRouted_eq, List.map_map]
    rfl
  | _ => rfl

/-- The adapters of any state of a run are those it began with, but for their inboxes. -/
theorem run_adapters (gw : Gateway) (events : List Event) {a : ChannelAdapter}
    (member : a ∈ (final (step toLowercase debug) gw events).adapters) :
    ∃ first ∈ gw.adapters, first.emptied = a.emptied := by
  have same : (final (step toLowercase debug) gw events).adapters.map ChannelAdapter.emptied =
      gw.adapters.map ChannelAdapter.emptied :=
    final_invariant
      (fun later e kept => (step_adapters toLowercase debug later e).trans kept) rfl events
  have listed : a.emptied ∈ gw.adapters.map ChannelAdapter.emptied :=
    same ▸ List.mem_map_of_mem member
  exact List.mem_map.mp listed

/-- A send posts nothing and fails, or it posts the text over a live, allowed adapter. -/
theorem send_cases (post : Post → Except ChannelError Unit) (a : ChannelAdapter)
    (msg : OutboundMessage) :
    (∃ e, a.send toLowercase debug post msg = (none, .error e)) ∨
      ∃ text, msg.content = .text text ∧ a.live = true ∧
        checkUrl toLowercase a.egressGuard a.apiBase = .allow ∧
        a.send toLowercase debug post msg =
          (some ⟨a.id, msg.recipient, text⟩, post ⟨a.id, msg.recipient, text⟩) := by
  unfold ChannelAdapter.send
  split
  · exact .inl ⟨_, rfl⟩
  next live =>
  cases content : msg.content with
  | text body =>
    simp only [outboundText, content, screenEgress]
    cases screened : checkUrl toLowercase a.egressGuard a.apiBase with
    | deny reason => exact .inl ⟨_, rfl⟩
    | allow => exact .inr ⟨body, rfl, by simpa using live, rfl, rfl⟩
  | image bytes mime caption =>
    simp only [outboundText, content]
    exact .inl ⟨_, rfl⟩
  | voice samples =>
    simp only [outboundText, content]
    exact .inl ⟨_, rfl⟩

theorem planOutbound_text {caps : ModalityCapability}
    {synthesise : String → Except String (List Int)} {text body : String}
    {pref : DeliveryPreference}
    (plain : (planOutbound caps synthesise text pref).intoContent = .text body) :
    body = text ∧ (planOutbound caps synthesise text pref).modality = .text := by
  unfold planOutbound at plain ⊢
  split at plain
  · cases plain
    exact ⟨rfl, rfl⟩
  split at plain
  · split at plain
    · cases plain
    · cases plain
      exact ⟨rfl, by simp [*, OutboundPlan.modality]⟩
  · cases plain
    exact ⟨rfl, by simp [*, OutboundPlan.modality]⟩

/-- What a reply over a gateway came to: what was posted, and whether an audit record is due. -/
structure Settled (gw : Gateway) (reply : Reply) (post : Post → Except ChannelError Unit)
    (posted : Option Post) (result : Except ChannelError RouteAudit) : Prop where
  screened : ∀ p ∈ posted, p = ⟨reply.channelId, reply.recipient, reply.text⟩ ∧
    ∃ a ∈ gw.adapters, a.id = reply.channelId ∧ a.live = true ∧
      checkUrl toLowercase a.egressGuard a.apiBase = .allow
  audited : ∀ audit, result = .ok audit ↔ (∃ p ∈ posted, post p = .ok ()) ∧
    audit = ⟨.sent, reply.channelId, reply.recipient, "text"⟩
  spoken : (planOutbound reply.caps reply.synthesise reply.text reply.pref).modality = .voice →
    posted = none

theorem settled_unsent (gw : Gateway) (reply : Reply) (post : Post → Except ChannelError Unit)
    (e : ChannelError) : Settled toLowercase gw reply post none (.error e) where
  screened := nofun
  audited := fun _ => ⟨nofun, fun ⟨⟨_, member, _⟩, _⟩ => nomatch member⟩
  spoken := fun _ => rfl

theorem sendRouted_settled (gw : Gateway) (reply : Reply) (post : Post → Except ChannelError Unit) :
    Settled toLowercase gw reply post (sendRouted toLowercase debug post gw reply).1
      (sendRouted toLowercase debug post gw reply).2 := by
  unfold sendRouted
  split
  · exact settled_unsent toLowercase gw reply post _
  next a found =>
  have member : a ∈ gw.adapters := List.mem_of_find?_eq_some found
  have named : a.id = reply.channelId := by simpa using List.find?_some found
  rcases send_cases toLowercase debug post a ⟨reply.recipient,
      (planOutbound reply.caps reply.synthesise reply.text reply.pref).intoContent⟩ with
    ⟨e, failed⟩ | ⟨body, plain, live, allowed, sent⟩
  · simp only [failed]
    exact settled_unsent toLowercase gw reply post e
  obtain ⟨rfl, written⟩ := planOutbound_text plain
  have screened : ∀ p ∈ some (Post.mk a.id reply.recipient reply.text),
      p = ⟨reply.channelId, reply.recipient, reply.text⟩ ∧
        ∃ a ∈ gw.adapters, a.id = reply.channelId ∧ a.live = true ∧
          checkUrl toLowercase a.egressGuard a.apiBase = .allow := by
    rintro p ⟨⟩
    exact ⟨by rw [named], a, member, named, live, allowed⟩
  have written_voice : (planOutbound reply.caps reply.synthesise reply.text reply.pref).modality =
      .voice → some (Post.mk a.id reply.recipient reply.text) = none := by
    rw [written]
    exact nofun
  simp only [sent]
  cases outcome : post ⟨a.id, reply.recipient, reply.text⟩ with
  | error e => exact ⟨screened, by simp [outcome], written_voice⟩
  | ok done =>
    refine ⟨screened, fun _ => ?_, written_voice⟩
    simp [outcome, outboundAudit, written, Modality.asStr, eq_comm]

/-- However a run went, a reply is posted over an adapter that was live and allowed from the
start or not at all, and is on record exactly when the service took it. -/
theorem gateway_sends (gw : Gateway) (events : List Event) :
    ∀ c ∈ trace (step toLowercase debug) gw events, ∀ reply post,
      c.request = .sendRouted reply post →
        ∃ posted result, c.response = .sent posted result ∧
          Settled toLowercase gw reply post posted result := by
  intro c member reply post asked
  obtain ⟨pre, rest, -, reached, responded⟩ := mem_trace member
  rw [asked] at responded
  refine ⟨_, _, responded, ?_⟩
  have settled := sendRouted_settled toLowercase debug c.before reply post
  refine ⟨fun p given => ?_, settled.audited, settled.spoken⟩
  obtain ⟨same, a, member, named, live, allowed⟩ := settled.screened p given
  rw [reached] at member
  obtain ⟨first, present, kept⟩ := run_adapters toLowercase debug gw pre member
  simp only [ChannelAdapter.emptied, ChannelAdapter.mk.injEq] at kept
  obtain ⟨sameId, -, sameLive, sameGuard, sameBase⟩ := kept
  refine ⟨same, first, present, sameId.trans named, sameLive.trans live, ?_⟩
  rw [sameGuard, sameBase]
  exact allowed

def thanks : Reply := ⟨⟨false, false, false⟩, fun _ => .ok [], "telegram", "ann", "thanks", .text⟩

theorem gateway_sends_thanks :
    ∃ posted result,
      (step id id (greeted true) (.sendRouted thanks fun _ => .ok ())).2 = .sent posted result ∧
        Settled id (greeted true) thanks (fun _ => .ok ()) posted result :=
  gateway_sends id id (greeted true) [.sendRouted thanks fun _ => .ok ()] _ List.mem_cons_self
    thanks _ rfl

end ChannelGateway
