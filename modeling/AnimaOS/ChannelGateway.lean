import Mathlib
import AnimaOS.EgressDispatch
import AnimaOS.QueueDrain
import AnimaOS.SyscallRouter

/-!
# The channel gateway

The gateway polls its adapters in rounds of at most fifty messages each, holds
what it gets against its limits and the bounds of the bridge, and answers over
the adapters when it is asked to. No message is lost or read twice, and none
enters past the checks.
-/

namespace ChannelGateway

open EgressGuard Machine QueueDrain SensoryBridge

/-! ## Messages and adapters -/

inductive Modality where
  | text
  | image
  | voice
  deriving DecidableEq, Repr

def Modality.asStr : Modality → String
  | .text => "text"
  | .image => "image"
  | .voice => "voice"

inductive ChannelContent where
  | text (body : String)
  | image (bytes : List UInt8) (mime : String) (caption : Option String)
  | voice (samples : List Int)
  deriving DecidableEq, Repr

def ChannelContent.modality : ChannelContent → Modality
  | .text _ => .text
  | .image _ _ _ => .image
  | .voice _ => .voice

structure ChannelMessage where
  sender : String
  content : ChannelContent
  deriving DecidableEq, Repr

structure OutboundMessage where
  recipient : String
  content : ChannelContent
  deriving DecidableEq, Repr

inductive ChannelError where
  | liveModeNotEnabled
  | apiError (e : String)
  | modalityUnsupported (modality : String)
  | transientFailure (e : String)
  deriving DecidableEq, Repr

/-- An adapter with the messages its channel has for it. -/
structure ChannelAdapter where
  id : String
  inbox : List ChannelMessage
  live : Bool
  egressGuard : Guard
  apiBase : Text

def telegramAdapter (inbox : List ChannelMessage) (live : Bool) (guard : Guard) :
    ChannelAdapter :=
  ⟨"telegram", inbox, live, guard, "https://api.telegram.org".toList⟩

def slackAdapter (inbox : List ChannelMessage) (live : Bool) (guard : Guard) : ChannelAdapter :=
  ⟨"slack", inbox, live, guard, "https://slack.com".toList⟩

structure GatewayConfig where
  textPriority : SensoryPriority
  imagePriority : SensoryPriority
  voicePriority : SensoryPriority
  maxImageBytes : Nat
  maxPcmSamples : Nat

def GatewayConfig.default : GatewayConfig :=
  ⟨.normal, .normal, .normal, 10 * 1024 * 1024, 16000 * 60⟩

structure Gateway where
  adapters : List ChannelAdapter
  bridge : Bridge
  config : GatewayConfig

/-! ## Ingestion -/

structure PollOutcome where
  channelId : String
  sender : String
  modality : Modality
  enqueued : Bool
  rejection : Option String
  deriving DecidableEq, Repr

def outcomeFromResult (channelId sender : String) (modality : Modality) :
    Except SensoryBridgeError Unit → PollOutcome
  | .ok () => ⟨channelId, sender, modality, true, none⟩
  | .error (.policyViolation reason) => ⟨channelId, sender, modality, false, some reason⟩
  | .error .invalidInput => ⟨channelId, sender, modality, false, some "invalid input"⟩

/-- `debug` writes a string as the derived formatter does. -/
def ingest (debug : String → String) (config : GatewayConfig) (channelId : String) (b : Bridge)
    (msg : ChannelMessage) : Bridge × PollOutcome :=
  let modality := msg.content.modality
  match msg.content with
  | .text text =>
    let (b, result) := packetizeTextFrom debug b text config.textPriority none .operator
    (b, outcomeFromResult channelId msg.sender modality result)
  | .image bytes mime caption =>
    if bytes.length > config.maxImageBytes then
      (b, ⟨channelId, msg.sender, modality, false,
        some ("image size " ++ toString bytes.length ++ " B exceeds gateway limit " ++
          toString config.maxImageBytes ++ " B")⟩)
    else
      let (b, result) :=
        packetizeImageFrom b bytes mime caption config.imagePriority .operator
      (b, outcomeFromResult channelId msg.sender modality result)
  | .voice samples =>
    if samples.length > config.maxPcmSamples then
      (b, ⟨channelId, msg.sender, modality, false,
        some ("voice frame " ++ toString samples.length ++ " samples exceeds gateway limit " ++
          toString config.maxPcmSamples ++ " samples")⟩)
    else
      let (b, result) := packetizePcmFrom b samples config.voicePriority .operator
      (b, outcomeFromResult channelId msg.sender modality result)

/-! ## Modality routing -/

structure ModalityCapability where
  vision : Bool
  stt : Bool
  tts : Bool
  deriving DecidableEq, Repr

inductive RouteAuditKind where
  | received
  | sent
  | unsupported
  deriving DecidableEq, Repr

structure RouteAudit where
  kind : RouteAuditKind
  channel : String
  peer : String
  modality : String
  deriving DecidableEq, Repr

inductive RouteDecision where
  | routed (modality : Modality)
  | routedFallback (original : Modality) (text : String)
  | routedViaStt (transcript : String)
  | unsupported (modality : Modality) (reason : String)
  deriving DecidableEq, Repr

def routeInbound (caps : ModalityCapability) (transcribe : List Int → Except String String) :
    ChannelContent → RouteDecision
  | .text _ => .routed .text
  | .image _ _ caption =>
    if caps.vision then .routed .image
    else
      match caption.filter fun c => !c.isEmpty with
      | some cap => .routedFallback .image cap
      | none =>
        .unsupported .image
          "backend has no vision capability and image has no caption to fall back to"
  | .voice samples =>
    if !caps.stt then
      .unsupported .voice "no speech-to-text provider available to transcribe inbound voice"
    else
      match transcribe samples with
      | .ok transcript => .routedViaStt transcript
      | .error e => .unsupported .voice ("speech-to-text failed: " ++ e)

def inboundAudit (channel sender : String) : RouteDecision → RouteAudit
  | .routed m => ⟨.received, channel, sender, m.asStr⟩
  | .routedFallback _ _ => ⟨.received, channel, sender, Modality.text.asStr⟩
  | .routedViaStt _ => ⟨.received, channel, sender, Modality.text.asStr⟩
  | .unsupported modality _ => ⟨.unsupported, channel, "", modality.asStr⟩

structure RoutedOutcome where
  decision : RouteDecision
  audit : RouteAudit
  poll : Option PollOutcome
  deriving DecidableEq, Repr

/-- What a decision lets through of a content: itself, a text in its place, or nothing. -/
def RouteDecision.delivered (content : ChannelContent) : RouteDecision → Option ChannelContent
  | .routed _ => some content
  | .routedFallback _ text => some (.text text)
  | .routedViaStt transcript => some (.text transcript)
  | .unsupported _ _ => none

def ingestRouted (debug : String → String) (config : GatewayConfig) (caps : ModalityCapability)
    (transcribe : List Int → Except String String) (channelId : String) (b : Bridge)
    (msg : ChannelMessage) : Bridge × RoutedOutcome :=
  let decision := routeInbound caps transcribe msg.content
  let audit := inboundAudit channelId msg.sender decision
  match decision.delivered msg.content with
  | some content =>
    let ingested := ingest debug config channelId b ⟨msg.sender, content⟩
    (ingested.1, ⟨decision, audit, some ingested.2⟩)
  | none => (b, ⟨decision, audit, none⟩)

/-! ## Rounds -/

def roundLimit : Nat := 50

/-- The loop over the adapters, each polled until it is empty or the limit is reached. -/
def pollAll {O : Type} (handle : String → Bridge → ChannelMessage → Bridge × O) :
    List ChannelAdapter → Bridge → Bridge × List ChannelAdapter × List O
  | [], b => (b, [], [])
  | adapter :: rest, b =>
    let (b, inbox, outcomes) := drain (handle adapter.id) roundLimit adapter.inbox b
    let (b, later, more) := pollAll handle rest b
    (b, { adapter with inbox } :: later, outcomes ++ more)

def runOnce (debug : String → String) (gw : Gateway) : Gateway × List PollOutcome :=
  let (bridge, adapters, outcomes) := pollAll (ingest debug gw.config) gw.adapters gw.bridge
  ({ gw with bridge, adapters }, outcomes)

def runOnceRouted (debug : String → String) (gw : Gateway) (caps : ModalityCapability)
    (transcribe : List Int → Except String String) : Gateway × List RoutedOutcome :=
  let (bridge, adapters, outcomes) :=
    pollAll (ingestRouted debug gw.config caps transcribe) gw.adapters gw.bridge
  ({ gw with bridge, adapters }, outcomes)

/-! ## Replies -/

inductive OutboundPlan where
  | text (body : String)
  | voice (pcm : List Int)
  deriving DecidableEq, Repr

def OutboundPlan.modality : OutboundPlan → Modality
  | .text _ => .text
  | .voice _ => .voice

def OutboundPlan.intoContent : OutboundPlan → ChannelContent
  | .text t => .text t
  | .voice pcm => .voice pcm

inductive DeliveryPreference where
  | text
  | voice
  deriving DecidableEq, Repr

def planOutbound (caps : ModalityCapability) (synthesise : String → Except String (List Int))
    (text : String) : DeliveryPreference → OutboundPlan
  | .text => .text text
  | .voice =>
    if caps.tts then
      match synthesise text with
      | .ok pcm => .voice pcm
      | .error _ => .text text
    else .text text

def outboundAudit (channel recipient : String) (plan : OutboundPlan) : RouteAudit :=
  ⟨.sent, channel, recipient, plan.modality.asStr⟩

def outboundText (msg : OutboundMessage) : Except ChannelError String :=
  match msg.content with
  | .text t => .ok t
  | other => .error (.modalityUnsupported other.modality.asStr)

def describe (debug : String → String) (reason : EgressDenialReason) : String :=
  String.ofList (EgressDispatch.description (fun t => (debug (String.ofList t)).toList) reason)

def screenEgress (toLowercase : Text → Text) (debug : String → String) (guard : Guard)
    (baseUrl : Text) : Except ChannelError Unit :=
  match checkUrl toLowercase guard baseUrl with
  | .allow => .ok ()
  | .deny reason => .error (.apiError ("egress-blocked: " ++ describe debug reason))

/-- A request to the channel's service. -/
structure Post where
  channelId : String
  recipient : String
  text : String
  deriving DecidableEq, Repr

/-- What an adapter posts and how the send ends; `post` is the service. -/
def ChannelAdapter.send (toLowercase : Text → Text) (debug : String → String)
    (post : Post → Except ChannelError Unit) (adapter : ChannelAdapter) (msg : OutboundMessage) :
    Option Post × Except ChannelError Unit :=
  if !adapter.live then (none, .error .liveModeNotEnabled)
  else
    match outboundText msg with
    | .error e => (none, .error e)
    | .ok text =>
      match screenEgress toLowercase debug adapter.egressGuard adapter.apiBase with
      | .error e => (none, .error e)
      | .ok () =>
        let request := ⟨adapter.id, msg.recipient, text⟩
        (some request, post request)

structure Reply where
  caps : ModalityCapability
  synthesise : String → Except String (List Int)
  channelId : String
  recipient : String
  text : String
  pref : DeliveryPreference

def sendRouted (toLowercase : Text → Text) (debug : String → String)
    (post : Post → Except ChannelError Unit) (gw : Gateway) (reply : Reply) :
    Option Post × Except ChannelError RouteAudit :=
  match gw.adapters.find? fun a => a.id == reply.channelId with
  | none =>
    (none, .error (.apiError ("no adapter registered for channel " ++ debug reply.channelId)))
  | some adapter =>
    let plan := planOutbound reply.caps reply.synthesise reply.text reply.pref
    let audit := outboundAudit reply.channelId reply.recipient plan
    match adapter.send toLowercase debug post ⟨reply.recipient, plan.intoContent⟩ with
    | (posted, .ok ()) => (posted, .ok audit)
    | (posted, .error e) => (posted, .error e)

/-! ## Runs -/

/-- The bridge is shared: others queue packets on it, bound it and take packets from it. -/
inductive Event where
  | arrive (index : Nat) (messages : List ChannelMessage)
  | runOnce
  | runOnceRouted (caps : ModalityCapability) (transcribe : List Int → Except String String)
  | sendRouted (reply : Reply) (post : Post → Except ChannelError Unit)
  | setActiveBounds (guidance : HumanGuidance)
  | queued (packets : List PrioritizedPacket)
  | nextPacket

inductive Response where
  | done
  | polled (outcomes : List PollOutcome)
  | routed (outcomes : List RoutedOutcome)
  | sent (posted : Option Post) (result : Except ChannelError RouteAudit)
  | packet (taken : Option PrioritizedPacket)

def ChannelAdapter.arrive (messages : List ChannelMessage) (a : ChannelAdapter) : ChannelAdapter :=
  { a with inbox := a.inbox ++ messages }

variable (toLowercase : Text → Text) (debug : String → String)

def step (gw : Gateway) : Event → Gateway × Response
  | .arrive index messages =>
    ({ gw with adapters := gw.adapters.modify index (·.arrive messages) }, .done)
  | .runOnce => ((runOnce debug gw).1, .polled (runOnce debug gw).2)
  | .runOnceRouted caps transcribe =>
    let polled := runOnceRouted debug gw caps transcribe
    (polled.1, .routed polled.2)
  | .sendRouted reply post =>
    let answered := sendRouted toLowercase debug post gw reply
    (gw, .sent answered.1 answered.2)
  | .setActiveBounds guidance =>
    ({ gw with bridge := setActiveBounds gw.bridge guidance }, .done)
  | .queued packets => ({ gw with bridge := SyscallRouter.arrive gw.bridge packets }, .done)
  | .nextPacket =>
    let popped := SyscallRouter.nextPrioritizedPacket gw.bridge
    ({ gw with bridge := popped.1 }, .packet popped.2)

abbrev Step := Call Gateway Event Response

end ChannelGateway
