import AnimaOS.FixedWidth
import AnimaOS.Machine

/-!
# The console hub

One lock guards the hub, so its calls run one after another. A channel is kept
as what was sent into it and whether its receiver is still held.
-/

namespace ConsoleHub

open FixedWidth Machine

variable {Payload : Type}

/-- The kinds the hub tells apart; `feed` stands for every other kind. -/
inductive OperatorEvent (Payload : Type) where
  | vitals (content : Payload)
  | state (content : Payload)
  | heartbeat (content : Payload)
  | feed (content : Payload)
  deriving DecidableEq, Repr

/-- An event with its publish sequence number. -/
abbrev Tagged (Payload : Type) := Nat × OperatorEvent Payload

structure Sender (Payload : Type) where
  sent : List (Tagged Payload)
  hungUp : Bool
  deriving DecidableEq, Repr

structure Subscriber (Payload : Type) where
  id : Nat
  tx : Sender Payload
  deriving DecidableEq, Repr

structure HubInner (Payload : Type) where
  subscribers : List (Subscriber Payload)
  recent : List (Tagged Payload)
  lastState : Option (Tagged Payload)
  lastVitals : Option (Tagged Payload)
  seq : Nat
  nextId : Nat
  deriving DecidableEq, Repr

def HubInner.default : HubInner Payload := ⟨[], [], none, none, 0, 0⟩

def replayCapacity : Nat := 256

def send (tx : Sender Payload) (event : Tagged Payload) : Option (Sender Payload) :=
  if tx.hungUp then none else some { tx with sent := tx.sent ++ [event] }

/-- Keeps the latest snapshot of the two current values and the rolling buffer of the others. -/
def remember (inner : HubInner Payload) (seq : Nat) (event : OperatorEvent Payload) :
    HubInner Payload :=
  match event with
  | .state _ => { inner with lastState := some (seq, event) }
  | .vitals _ => { inner with lastVitals := some (seq, event) }
  | .heartbeat _ => inner
  | .feed _ =>
    let recent := inner.recent ++ [(seq, event)]
    { inner with recent := recent.drop (recent.length - replayCapacity) }

def fanOut (subscribers : List (Subscriber Payload)) (event : Tagged Payload) :
    List (Subscriber Payload) :=
  subscribers.filterMap fun s => (send s.tx event).map fun tx => { s with tx := tx }

def publishLocked (inner : HubInner Payload) (seq : Nat) (event : OperatorEvent Payload) :
    HubInner Payload :=
  let inner := { inner with seq := max inner.seq (wrap 64 (seq + 1)) }
  let inner := remember inner seq event
  { inner with subscribers := fanOut inner.subscribers (seq, event) }

/-- The replay snapshot of a subscriber that comes now. -/
def snapshot (inner : HubInner Payload) : List (Tagged Payload) :=
  (inner.lastVitals.toList ++ inner.lastState.toList ++ inner.recent).mergeSort
    fun a b => a.1 ≤ b.1

inductive Publication (Payload : Type) where
  | publish (event : OperatorEvent Payload)
  | publishAt (seq : Fin (2 ^ 64)) (event : OperatorEvent Payload)

/-- `hangUp` drops a receiver without telling the hub. -/
inductive Action (Payload : Type) where
  | publication (p : Publication Payload)
  | subscribe
  | unsubscribe (id : Nat)
  | hangUp (id : Nat)

/-- The number a publication gets when the counter stands at `counter`. -/
def Publication.number (counter : Nat) : Publication Payload → Nat
  | .publish _ => counter
  | .publishAt seq _ => seq

def Publication.event : Publication Payload → OperatorEvent Payload
  | .publish event => event
  | .publishAt _ event => event

def hangUp (id : Nat) (s : Subscriber Payload) : Subscriber Payload :=
  if s.id = id then { s with tx := { s.tx with hungUp := true } } else s

/-- A call on the hub; `subscribe` returns its snapshot. -/
def step (inner : HubInner Payload) : Action Payload → HubInner Payload × List (Tagged Payload)
  | .publication p => (publishLocked inner (p.number inner.seq) p.event, [])
  | .subscribe =>
    ({ inner with
        subscribers := inner.subscribers ++ [⟨inner.nextId, ⟨[], false⟩⟩]
        nextId := inner.nextId + 1 },
      snapshot inner)
  | .unsubscribe id =>
    ({ inner with subscribers := inner.subscribers.filter fun s => s.id ≠ id }, [])
  | .hangUp id => ({ inner with subscribers := inner.subscribers.map (hangUp id) }, [])

/-- The hub after the calls, from its creation. -/
def hubAfter (calls : List (Action Payload)) : HubInner Payload := final step .default calls

/-! ## What is published -/

def Action.publication? : Action Payload → Option (Publication Payload)
  | .publication p => some p
  | .subscribe => none
  | .unsubscribe _ => none
  | .hangUp _ => none

def publications (calls : List (Action Payload)) : List (Publication Payload) :=
  calls.filterMap Action.publication?

theorem publishLocked_seq (inner : HubInner Payload) (seq : Nat) (event : OperatorEvent Payload) :
    (publishLocked inner seq event).seq = max inner.seq (wrap 64 (seq + 1)) := by
  cases event with
  | vitals content => rfl
  | state content => rfl
  | heartbeat content => rfl
  | feed content => simp only [publishLocked, remember]

theorem publishLocked_subscribers (inner : HubInner Payload) (seq : Nat)
    (event : OperatorEvent Payload) :
    (publishLocked inner seq event).subscribers = fanOut inner.subscribers (seq, event) := by
  cases event with
  | vitals content => rfl
  | state content => rfl
  | heartbeat content => rfl
  | feed content => simp only [publishLocked, remember]

theorem mem_fanOut {subscribers : List (Subscriber Payload)} {event : Tagged Payload}
    {s : Subscriber Payload} (listed : s ∈ fanOut subscribers event) :
    ∃ t ∈ subscribers, s = { t with tx := { t.tx with sent := t.tx.sent ++ [event] } } := by
  obtain ⟨t, member, sent⟩ := List.mem_filterMap.mp listed
  refine ⟨t, member, ?_⟩
  rw [send] at sent
  split at sent
  · cases sent
  · exact (Option.some.inj sent).symm

end ConsoleHub
