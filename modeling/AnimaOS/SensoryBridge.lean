import AnimaOS.Machine
import AnimaOS.TextSplit

/-!
# Checked ingestion at the sensory bridge

The checked packetize methods, which hold what they are given against the active
bounds and queue it when it passes. A caption travels with its image past the
checks of text, so that a run admits no forbidden text exactly when each caption
it lets in would have passed them.
-/

namespace SensoryBridge

open TextSplit Machine

/-! ## Packets and bounds -/

inductive SensoryPriority where
  | low
  | normal
  | high
  | critical
  deriving DecidableEq, Repr

inductive SensoryPacket where
  | text (text : String)
  | pcm (samples : List Int)
  | image (bytes : List UInt8) (mime : String) (caption : Option String)
  deriving DecidableEq, Repr

inductive SensoryOrigin where
  | operator
  | internal
  deriving DecidableEq, Repr

def SensoryOrigin.isOperator : SensoryOrigin → Bool
  | .operator => true
  | .internal => false

structure PrioritizedPacket where
  packet : SensoryPacket
  priority : SensoryPriority
  gateOverrideReason : Option String
  messageId : Option String
  origin : SensoryOrigin
  deriving DecidableEq, Repr

structure HumanGuidance where
  maxTextLength : Option Nat
  maxPcmSamples : Option Nat
  blockedPrefixes : List String
  maxImageBytes : Option Nat
  deriving DecidableEq, Repr

inductive SensoryBridgeError where
  | invalidInput
  | policyViolation (reason : String)
  deriving DecidableEq, Repr

structure Bridge where
  activeBounds : HumanGuidance
  queue : List PrioritizedPacket
  deriving DecidableEq, Repr

/-! ## The checks -/

/-- The first limit that `size` is over, with the message about it. -/
def overLimit (limit : Option Nat) (size : Nat) (message : Nat → String) : Option String :=
  limit.bind fun max => if max < size then some (message max) else none

def blockedBy (bounds : HumanGuidance) (text : String) : Option String :=
  bounds.blockedPrefixes.find? fun p => p.toList.isPrefixOf text.toList

/-- Why a text is refused; `debug` writes a string as the derived formatter does. -/
def textViolation (debug : String → String) (bounds : HumanGuidance) (text : String) :
    Option String :=
  if text.isEmpty then some "text input must not be empty"
  else
    match overLimit bounds.maxTextLength text.utf8ByteSize fun max =>
      "text length " ++ toString text.utf8ByteSize ++ " exceeds policy limit " ++ toString max with
    | some reason => some reason
    | none =>
      (blockedBy bounds text).map fun found => "text starts with blocked prefix " ++ debug found

def overrideViolation (reason : String) : Option String :=
  if (trimWhitespace reason.toList).isEmpty then some "force override reason must not be empty"
  else if 512 < reason.utf8ByteSize then
    some ("force override reason length " ++ toString reason.utf8ByteSize ++ " exceeds limit 512")
  else none

def pcmViolation (bounds : HumanGuidance) (samples : List Int) : Option String :=
  if samples.isEmpty then some "PCM frame must not be empty"
  else
    overLimit bounds.maxPcmSamples samples.length fun max =>
      "PCM frame length " ++ toString samples.length ++ " exceeds policy limit " ++ toString max

def imageViolation (bounds : HumanGuidance) (bytes : List UInt8) (mime : String) : Option String :=
  if bytes.isEmpty then some "image payload must not be empty"
  else if mime.isEmpty then some "image MIME type must not be empty"
  else if !"image/".toList.isPrefixOf mime.toList then some "MIME type must start with 'image/'"
  else
    overLimit bounds.maxImageBytes bytes.length fun max =>
      "image size " ++ toString bytes.length ++ " B exceeds policy limit " ++ toString max ++ " B"

/-! ## The calls -/

/-- A packet is queued unless there is something against it. -/
def push (b : Bridge) (violation : Option String) (packet : PrioritizedPacket) :
    Bridge × Except SensoryBridgeError Unit :=
  match violation with
  | some reason => (b, .error (.policyViolation reason))
  | none => ({ b with queue := b.queue ++ [packet] }, .ok ())

def setActiveBounds (b : Bridge) (guidance : HumanGuidance) : Bridge :=
  { b with activeBounds := guidance }

def packetizeTextFrom (debug : String → String) (b : Bridge) (text : String)
    (priority : SensoryPriority) (messageId : Option String) (origin : SensoryOrigin) :
    Bridge × Except SensoryBridgeError Unit :=
  push b (textViolation debug b.activeBounds text) ⟨.text text, priority, none, messageId, origin⟩

def packetizeTextTagged (debug : String → String) (b : Bridge) (text : String)
    (priority : SensoryPriority) (messageId : Option String) :
    Bridge × Except SensoryBridgeError Unit :=
  packetizeTextFrom debug b text priority messageId .operator

/-- The reason is checked before the text. -/
def packetizeTextForcedTagged (debug : String → String) (b : Bridge) (text reason : String)
    (messageId : Option String) : Bridge × Except SensoryBridgeError Unit :=
  push b ((overrideViolation reason).or (textViolation debug b.activeBounds text))
    ⟨.text text, .critical, some reason, messageId, .operator⟩

def packetizePcmFrom (b : Bridge) (samples : List Int) (priority : SensoryPriority)
    (origin : SensoryOrigin) : Bridge × Except SensoryBridgeError Unit :=
  push b (pcmViolation b.activeBounds samples) ⟨.pcm samples, priority, none, none, origin⟩

def packetizeImageFrom (b : Bridge) (bytes : List UInt8) (mime : String) (caption : Option String)
    (priority : SensoryPriority) (origin : SensoryOrigin) :
    Bridge × Except SensoryBridgeError Unit :=
  push b (imageViolation b.activeBounds bytes mime)
    ⟨.image bytes mime caption, priority, none, none, origin⟩

inductive Request where
  | setActiveBounds (guidance : HumanGuidance)
  | textTagged (text : String) (priority : SensoryPriority) (messageId : Option String)
  | textForcedTagged (text reason : String) (messageId : Option String)
  | pcmChecked (samples : List Int) (priority : SensoryPriority)
  | imageChecked (bytes : List UInt8) (mime : String) (caption : Option String)
      (priority : SensoryPriority)

def step (debug : String → String) (b : Bridge) : Request → Bridge × Except SensoryBridgeError Unit
  | .setActiveBounds guidance => (setActiveBounds b guidance, .ok ())
  | .textTagged text priority messageId => packetizeTextTagged debug b text priority messageId
  | .textForcedTagged text reason messageId =>
    packetizeTextForcedTagged debug b text reason messageId
  | .pcmChecked samples priority => packetizePcmFrom b samples priority .operator
  | .imageChecked bytes mime caption priority =>
    packetizeImageFrom b bytes mime caption priority .operator

/-! ## What the bounds ask of operator text -/

def SensoryPacket.operatorText : SensoryPacket → List String
  | .text content => [content]
  | .pcm _ => []
  | .image _ _ caption => caption.toList

structure Within (bounds : HumanGuidance) (text : String) : Prop where
  short : ∀ max ∈ bounds.maxTextLength, text.utf8ByteSize ≤ max
  allowed : ∀ p ∈ bounds.blockedPrefixes, ¬ p.toList <+: text.toList

abbrev Step := Call Bridge Request (Except SensoryBridgeError Unit)

/-- The packets a call put into the queue. -/
def entered (debug : String → String) (c : Step) : List PrioritizedPacket :=
  (step debug c.before c.request).1.queue.drop c.before.queue.length

/-- All text that entered with the call is within the bounds in force at the call. -/
def Clean (debug : String → String) (c : Step) : Prop :=
  ∀ p ∈ entered debug c, ∀ text ∈ p.packet.operatorText, Within c.before.activeBounds text

/-- A caption of an image that passes its own checks is within the bounds of text. -/
def CaptionWithin (c : Step) : Prop :=
  match c.request with
  | .imageChecked bytes mime (some caption) _ =>
    imageViolation c.before.activeBounds bytes mime = none → Within c.before.activeBounds caption
  | _ => True

theorem overLimit_none {limit : Option Nat} {size : Nat} {message : Nat → String}
    (h : overLimit limit size message = none) : ∀ max ∈ limit, size ≤ max := by
  rintro max rfl
  by_contra large
  have exceeded : max < size := Nat.lt_of_not_le large
  simp [overLimit, exceeded] at h

theorem textViolation_none {debug : String → String} {bounds : HumanGuidance} {text : String}
    (h : textViolation debug bounds text = none) : Within bounds text := by
  rw [textViolation] at h
  split at h
  · cases h
  split at h
  · cases h
  · rename_i fits
    refine ⟨overLimit_none fits, ?_⟩
    intro p listed starts
    have found : blockedBy bounds text = none := Option.map_eq_none_iff.mp h
    have passes := List.find?_eq_none.mp found p listed
    exact passes (List.isPrefixOf_iff_prefix.mpr starts)

/-! ## Single calls -/

/-- A checked call refuses and leaves the bridge, or it queues its packet. -/
theorem push_cases (b : Bridge) (violation : Option String) (packet : PrioritizedPacket) :
    (∃ reason, violation = some reason ∧
      push b violation packet = (b, .error (.policyViolation reason))) ∨
    (violation = none ∧
      push b violation packet = ({ b with queue := b.queue ++ [packet] }, .ok ())) := by
  cases violation with
  | some reason => exact .inl ⟨reason, rfl, rfl⟩
  | none => exact .inr ⟨rfl, rfl⟩

/-- What a request has against it under the bounds, and the packet it is about. -/
def offer (debug : String → String) (bounds : HumanGuidance) :
    Request → Option (Option String × PrioritizedPacket)
  | .setActiveBounds _ => none
  | .textTagged text priority messageId =>
    some (textViolation debug bounds text, ⟨.text text, priority, none, messageId, .operator⟩)
  | .textForcedTagged text reason messageId =>
    some ((overrideViolation reason).or (textViolation debug bounds text),
      ⟨.text text, .critical, some reason, messageId, .operator⟩)
  | .pcmChecked samples priority =>
    some (pcmViolation bounds samples, ⟨.pcm samples, priority, none, none, .operator⟩)
  | .imageChecked bytes mime caption priority =>
    some (imageViolation bounds bytes mime,
      ⟨.image bytes mime caption, priority, none, none, .operator⟩)

theorem step_offer (debug : String → String) (b : Bridge) (r : Request) :
    (∃ guidance, offer debug b.activeBounds r = none ∧
      step debug b r = (setActiveBounds b guidance, .ok ())) ∨
    ∃ violation packet, offer debug b.activeBounds r = some (violation, packet) ∧
      step debug b r = push b violation packet := by
  cases r with
  | setActiveBounds guidance => exact .inl ⟨guidance, rfl, rfl⟩
  | textTagged text priority messageId => exact .inr ⟨_, _, rfl, rfl⟩
  | textForcedTagged text reason messageId => exact .inr ⟨_, _, rfl, rfl⟩
  | pcmChecked samples priority => exact .inr ⟨_, _, rfl, rfl⟩
  | imageChecked bytes mime caption priority => exact .inr ⟨_, _, rfl, rfl⟩

/-- The queue only grows, by what entered; nothing enters with a refused call. -/
theorem step_queue (debug : String → String) (b : Bridge) (r : Request)
    (response : Except SensoryBridgeError Unit) :
    (step debug b r).1.queue = b.queue ++ entered debug ⟨b, r, response⟩ ∧
      ∀ e, (step debug b r).2 = .error e → (step debug b r).1 = b := by
  rcases step_offer debug b r with ⟨guidance, -, same⟩ | ⟨violation, packet, -, same⟩
  · rw [entered, same]
    refine ⟨by simp [setActiveBounds], fun e refused => by cases refused⟩
  rcases push_cases b violation packet with ⟨reason, -, pushed⟩ | ⟨-, pushed⟩
  · rw [entered, same, pushed]
    exact ⟨by simp, fun _ _ => rfl⟩
  · rw [entered, same, pushed]
    exact ⟨by simp, fun e refused => by cases refused⟩

/-- What entered with a call is the packet of its request, and nothing was against it. -/
theorem mem_entered {debug : String → String} {c : Step} {p : PrioritizedPacket} :
    p ∈ entered debug c ↔ offer debug c.before.activeBounds c.request = some (none, p) := by
  rcases step_offer debug c.before c.request with
    ⟨guidance, unoffered, same⟩ | ⟨violation, packet, offered, same⟩
  · rw [entered, same, unoffered]
    simp [setActiveBounds]
  rcases push_cases c.before violation packet with ⟨reason, rfl, pushed⟩ | ⟨rfl, pushed⟩
  · rw [entered, same, pushed, offered]
    simp
  · rw [entered, same, pushed, offered]
    simp [eq_comm]

/-- A call is clean exactly when a caption it lets in is within the bounds. -/
theorem clean_iff (debug : String → String) (c : Step) : Clean debug c ↔ CaptionWithin c := by
  have offers (p : PrioritizedPacket) :
      p ∈ entered debug c ↔ offer debug c.before.activeBounds c.request = some (none, p) :=
    mem_entered
  simp only [Clean, CaptionWithin, offers]
  cases c.request with
  | setActiveBounds guidance => simp [offer]
  | textTagged text priority messageId =>
    simp only [offer, Option.some.injEq, Prod.mk.injEq, iff_true]
    rintro p ⟨passes, rfl⟩ content listed
    cases List.mem_singleton.mp listed
    exact textViolation_none passes
  | textForcedTagged text reason messageId =>
    simp only [offer, Option.some.injEq, Prod.mk.injEq, iff_true]
    rintro p ⟨passes, rfl⟩ content listed
    cases List.mem_singleton.mp listed
    exact textViolation_none (Option.or_eq_none_iff.mp passes).2
  | pcmChecked samples priority =>
    simp only [offer, Option.some.injEq, Prod.mk.injEq, iff_true]
    rintro p ⟨passes, rfl⟩ content listed
    cases listed
  | imageChecked bytes mime caption priority =>
    cases caption with
    | none =>
      simp only [offer, Option.some.injEq, Prod.mk.injEq, iff_true]
      rintro p ⟨passes, rfl⟩ content listed
      cases listed
    | some caption =>
      simp only [offer, Option.some.injEq, Prod.mk.injEq]
      constructor
      · intro clean passes
        exact clean _ ⟨passes, rfl⟩ caption List.mem_cons_self
      · rintro within p ⟨passes, rfl⟩ content listed
        cases List.mem_singleton.mp listed
        exact within passes

/-- The forced path refuses every text that the normal path refuses. -/
theorem forced_refuses {debug : String → String} {b : Bridge} {text : String}
    {priority : SensoryPriority} {messageId : Option String} {e : SensoryBridgeError}
    (refused : (packetizeTextTagged debug b text priority messageId).2 = .error e) (reason : String)
    (messageId' : Option String) :
    ∃ e', (packetizeTextForcedTagged debug b text reason messageId').2 = .error e' := by
  rw [packetizeTextTagged, packetizeTextFrom] at refused
  cases against : textViolation debug b.activeBounds text with
  | none =>
    rw [against] at refused
    cases refused
  | some found =>
    rw [packetizeTextForcedTagged, against]
    cases overrideViolation reason with
    | none => exact ⟨_, rfl⟩
    | some first => exact ⟨_, rfl⟩

/-! ## Runs -/

/-- After a run the queue holds what it held before and then what entered, call by call. -/
theorem run_queue (debug : String → String) (b : Bridge) (requests : List Request) :
    (final (step debug) b requests).queue =
      b.queue ++ (trace (step debug) b requests).flatMap (entered debug) := by
  induction requests generalizing b with
  | nil => simp [final, trace]
  | cons r rest ih =>
    have grown := (step_queue debug b r (step debug b r).2).1
    rw [final, ih, grown, trace, List.flatMap_cons, List.append_assoc]

/-- A run admits only text within the bounds exactly when every caption it lets in is within them;
the forced path refuses what the normal one refuses, and a refused call changes nothing. -/
theorem run_clean_iff (debug : String → String) (b : Bridge) (requests : List Request) :
    ((∀ c ∈ trace (step debug) b requests, Clean debug c) ↔
        ∀ c ∈ trace (step debug) b requests, CaptionWithin c) ∧
      (final (step debug) b requests).queue =
        b.queue ++ (trace (step debug) b requests).flatMap (entered debug) ∧
      (∀ c ∈ trace (step debug) b requests, ∀ e, c.response = .error e →
        (step debug c.before c.request).1 = c.before ∧ entered debug c = []) ∧
      ∀ text priority messageId e,
        (packetizeTextTagged debug (final (step debug) b requests) text priority messageId).2 =
          .error e →
        ∀ reason messageId', ∃ e',
          (packetizeTextForcedTagged debug (final (step debug) b requests) text reason
            messageId').2 = .error e' := by
  refine ⟨forall₂_congr fun c _ => clean_iff debug c, run_queue debug b requests, ?_, ?_⟩
  · intro c member e refused
    obtain ⟨-, -, -, -, responded⟩ := mem_trace member
    rw [responded] at refused
    obtain ⟨grown, unchanged⟩ := step_queue debug c.before c.request c.response
    have same := unchanged e refused
    refine ⟨same, ?_⟩
    rw [same] at grown
    exact List.self_eq_append_right.mp grown
  · intro text priority messageId e refused reason messageId'
    exact forced_refuses refused reason messageId'

/-- Bounds that forbid texts with a slash in front. -/
def noCommands : Bridge := ⟨⟨none, none, [String.ofList ['/']], none⟩, []⟩

def pngMime : String := String.ofList ['i', 'm', 'a', 'g', 'e', '/', 'p', 'n', 'g']

/-- Behind a one-byte image the forbidden text enters the queue. -/
theorem caption_unchecked :
    ¬ ∀ c ∈ trace (step id) noCommands
        [.imageChecked [0xff] pngMime (some (String.ofList ['/', 'x'])) .normal], Clean id c := by
  intro clean
  have within := (clean_iff id _).mp (clean _ List.mem_cons_self)
  have passes : imageViolation noCommands.activeBounds [0xff] pngMime = none := by decide
  have allowed := (within passes).allowed _ List.mem_cons_self
  exact allowed ⟨['x'], by simp⟩

end SensoryBridge
