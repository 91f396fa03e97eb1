import AnimaOS.ConsoleHub
import AnimaOS.CursorReplay
import Mathlib.Logic.Function.Basic

/-!
# The event stream of the console server

Processes follow one another over the same audit file. An operator gets the
snapshot of the hub, then what the hub sends, and comes back with the last id it
received.
-/

namespace ConsoleServer

open ConsoleHub CursorReplay FixedWidth

variable {Name Payload : Type}

/-- A direct publication, counted over all processes, or a line of the audit file. -/
inductive Origin where
  | direct (n : Nat)
  | line (n : Nat)
  deriving DecidableEq, Repr

abbrev Published (Payload : Type) := Tagged (Origin × Payload)

def mark (origin : Origin) : OperatorEvent Payload → OperatorEvent (Origin × Payload)
  | .vitals content => .vitals (origin, content)
  | .state content => .state (origin, content)
  | .heartbeat content => .heartbeat (origin, content)
  | .feed content => .feed (origin, content)

def content : OperatorEvent Payload → Payload
  | .vitals content => content
  | .state content => content
  | .heartbeat content => content
  | .feed content => content

def isFeed : OperatorEvent Payload → Bool
  | .feed _ => true
  | _ => false

def isVitals : OperatorEvent Payload → Bool
  | .vitals _ => true
  | _ => false

def origin (p : Published Payload) : Origin := (content p.2).1

@[simp] theorem origin_mark (n : Nat) (from' : Origin) (event : OperatorEvent Payload) :
    origin (n, mark from' event) = from' := by
  cases event <;> rfl

/-- A complete line of the audit file and what the tailer makes of it. -/
structure Line (Payload : Type) where
  bytes : Nat
  event : Option (OperatorEvent Payload)
  complete : 0 < bytes

/-- `read` counts what the server has taken from the snapshot and then from the channel. The last
two fields only record the replay buffer and the length of the session when the client came. -/
structure Connection (Payload : Type) where
  lastEventId : Option Nat
  id : Nat
  snapshot : List (Published Payload)
  read : Nat
  buffer : List (Published Payload)
  since : Nat

/-- `known` records what had been published when the client was last cut off. -/
structure Client (Payload : Type) where
  received : List (Published Payload)
  known : List (Published Payload)
  connection : Option (Connection Payload)

/-- What was published is kept apart for the running process and those before it. -/
structure World (Name Payload : Type) where
  file : List (Line Payload)
  position : Nat
  hub : HubInner (Origin × Payload)
  earlier : List (Published Payload)
  session : List (Published Payload)
  clients : Name → Client Payload

def World.published (w : World Name Payload) : List (Published Payload) := w.earlier ++ w.session

def World.start : World Name Payload := ⟨[], 0, .default, [], [], fun _ => ⟨[], [], none⟩⟩

/-- The offset at which the line ends. -/
def lineEnd (file : List (Line Payload)) (n : Nat) : Nat :=
  wrap 64 ((file.take (n + 1)).map (·.bytes)).sum

/-- `throttled` is the answer of the vitals clock. `deliver` takes the next event of a
connection. -/
inductive Move (Name Payload : Type) where
  | append (line : Line Payload)
  | publish (event : OperatorEvent Payload)
  | tail (throttled : Bool)
  | restart
  | connect (c : Name)
  | deliver (c : Name)
  | disconnect (c : Name)

def announce (w : World Name Payload) (p : Published Payload) : World Name Payload :=
  { w with hub := publishLocked w.hub p.1 p.2, session := w.session ++ [p] }

/-- What the tailer publishes for the line it is at. -/
def tailed (w : World Name Payload) (throttled : Bool) : Option (Published Payload) :=
  match w.file[w.position]? with
  | none => none
  | some line =>
    match line.event with
    | none => none
    | some event =>
      if isVitals event && throttled then none
      else some (lineEnd w.file w.position, mark (.line w.position) event)

/-- What a subscriber was sent. -/
def channel (hub : HubInner (Origin × Payload)) (id : Nat) : List (Published Payload) :=
  ((hub.subscribers.find? fun s => s.id = id).map fun s => s.tx.sent).getD []

/-- What a connection goes through: the snapshot, then the live events. -/
def stream (hub : HubInner (Origin × Payload)) (conn : Connection Payload) :
    List (Published Payload) :=
  conn.snapshot ++ channel hub conn.id

def receive (client : Client Payload) (conn : Connection Payload) (p : Published Payload) :
    Client Payload :=
  { client with
    received := if skips conn.lastEventId p.1 then client.received else client.received ++ [p]
    connection := some { conn with read := conn.read + 1 } }

def cutOff (published : List (Published Payload)) (client : Client Payload) : Client Payload :=
  match client.connection with
  | none => client
  | some _ => { client with known := published, connection := none }

variable [DecidableEq Name]

def step (w : World Name Payload) : Move Name Payload → World Name Payload
  | .append line => { w with file := w.file ++ [line] }
  | .publish event => announce w (w.hub.seq, mark (.direct w.published.length) event)
  | .tail throttled =>
    match w.file[w.position]? with
    | none => w
    | some _ => { (tailed w throttled).elim w (announce w) with position := w.position + 1 }
  | .restart =>
    ⟨w.file, 0, .default, w.published, [], fun c => cutOff w.published (w.clients c)⟩
  | .connect c =>
    match (w.clients c).connection with
    | some _ => w
    | none =>
      let subscribed := ConsoleHub.step w.hub .subscribe
      let conn : Connection Payload :=
        ⟨lastNumber Prod.fst (w.clients c).received, w.hub.nextId, subscribed.2, 0, w.hub.recent,
          w.session.length⟩
      { w with
        hub := subscribed.1
        clients := Function.update w.clients c { w.clients c with connection := some conn } }
  | .deliver c =>
    match (w.clients c).connection with
    | none => w
    | some conn =>
      match (stream w.hub conn)[conn.read]? with
      | none => w
      | some p => { w with clients := Function.update w.clients c (receive (w.clients c) conn p) }
  | .disconnect c =>
    match (w.clients c).connection with
    | none => w
    | some conn =>
      { w with
        hub := (ConsoleHub.step w.hub (.unsubscribe conn.id)).1
        clients := Function.update w.clients c (cutOff w.published (w.clients c)) }

def run (w : World Name Payload) (moves : List (Move Name Payload)) : World Name Payload :=
  moves.foldl step w

/-- What a move publishes. -/
def announcement (w : World Name Payload) : Move Name Payload → Option (Published Payload)
  | .publish event => some (w.hub.seq, mark (.direct w.published.length) event)
  | .tail throttled => tailed w throttled
  | _ => none

/-! ## Channels -/

omit [DecidableEq Name]

def heard (p : Published Payload) (s : Subscriber (Origin × Payload)) :
    Subscriber (Origin × Payload) :=
  { s with tx := { s.tx with sent := s.tx.sent ++ [p] } }

theorem fanOut_listening_all {subscribers : List (Subscriber (Origin × Payload))}
    (listening : ∀ s ∈ subscribers, s.tx.hungUp = false) (p : Published Payload) :
    fanOut subscribers p = subscribers.map (heard p) := by
  refine List.filterMap_eq_map_iff_forall_eq_some.mpr ?_
  intro s member
  simp [send, listening s member, heard]

theorem channel_publishLocked {hub : HubInner (Origin × Payload)}
    (listening : ∀ s ∈ hub.subscribers, s.tx.hungUp = false) {id : Nat}
    (listed : id ∈ hub.subscribers.map (·.id)) (p : Published Payload) :
    channel (publishLocked hub p.1 p.2) id = channel hub id ++ [p] := by
  obtain ⟨s, member, rfl⟩ := List.mem_map.mp listed
  rw [channel, publishLocked_subscribers, fanOut_listening_all listening, List.find?_map, channel]
  cases found : hub.subscribers.find? fun t => t.id = s.id with
  | none =>
    have missing := List.find?_eq_none.mp found s member
    simp at missing
  | some t =>
    have same : hub.subscribers.find? ((fun t => decide (t.id = s.id)) ∘ heard p) = some t := found
    rw [same]
    rfl

theorem channel_subscribe (hub : HubInner (Origin × Payload)) {id : Nat} (other : id ≠ hub.nextId) :
    channel (ConsoleHub.step hub .subscribe).1 id = channel hub id := by
  simp [channel, ConsoleHub.step, List.find?_append, other.symm]

theorem channel_new {hub : HubInner (Origin × Payload)}
    (below : ∀ s ∈ hub.subscribers, s.id < hub.nextId) :
    channel (ConsoleHub.step hub .subscribe).1 hub.nextId = [] := by
  have unused : (hub.subscribers.find? fun s => s.id = hub.nextId) = none := by
    refine List.find?_eq_none.mpr fun s member => ?_
    have := below s member
    simp only [decide_eq_true_eq]
    omega
  simp [channel, ConsoleHub.step, List.find?_append, unused]

theorem channel_unsubscribe (hub : HubInner (Origin × Payload)) {id other : Nat}
    (apart : id ≠ other) :
    channel (ConsoleHub.step hub (.unsubscribe other)).1 id = channel hub id := by
  simp only [channel, ConsoleHub.step, List.find?_filter]
  congr 3
  funext s
  by_cases own : s.id = id
  · simp [own, apart]
  · simp [own]

end ConsoleServer
