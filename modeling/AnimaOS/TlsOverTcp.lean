import AnimaOS.TlsAgreement

/-!
# The hellos over TCP

`tcp_send_all`, `tcp_recv_n` and `run_tls_over_smoltcp_test` of the micro-VM: two loops
with a budget of polls move a record through a stack that takes and gives any number of
bytes at a time. The stack itself is taken as given.
-/

namespace TlsOverTcp

open ByteReader TlsRecords TlsTraffic TlsChannel TlsHandshake TlsAgreement

/-- The socket that connects and the socket that listens. -/
inductive Side where
  | client
  | server
  deriving DecidableEq

def Side.peer : Side → Side
  | .client => .server
  | .server => .client

/-- The interface with its two sockets, from the calls of `connect` and `listen` on. -/
structure Tcp where
  Net : Type
  initial : Net
  poll : Net → Int → Net
  maySend : Net → Side → Bool
  mayRecv : Net → Side → Bool
  canRecv : Net → Side → Bool
  sendSlice : Net → Side → List UInt8 → Option (Net × Nat)
  recvSlice : Net → Side → Nat → Option (Net × List UInt8)

section Loops

variable (tcp : Tcp)

/-- The network and `time_ms`. -/
abbrev State := tcp.Net × Int

/-- `iface.poll` at the current time, which moves on by a millisecond. -/
def tick (s : State tcp) : State tcp := (tcp.poll s.1 s.2, s.2 + 1)

/-- At most that many polls until both ends are up. -/
def establish : Nat → State tcp → State tcp
  | 0, s => s
  | polls + 1, s =>
    let s := tick tcp s
    if tcp.maySend s.1 .client && tcp.mayRecv s.1 .server then s else establish polls s

def sendLoop (side : Side) (data : List UInt8) :
    Nat → State tcp → Nat → Except Stop (State tcp × Nat)
  | 0, s, sent => .ok (s, sent)
  | polls + 1, s, sent =>
    let s := tick tcp s
    -- not yet connected: keep polling
    if ¬ tcp.maySend s.1 side then sendLoop side data polls s sent
    else
      match tcp.sendSlice s.1 side (data.drop sent) with
      | none => .error (.error "tcp_send_all: send_slice failed")
      | some (net, n) =>
        if data.length ≤ sent + n then .ok ((net, s.2), sent + n)
        else sendLoop side data polls (net, s.2) (sent + n)

def tcpSendAll (side : Side) (data : List UInt8) (s : State tcp) : Except Stop (State tcp) := do
  let (s, sent) ← sendLoop tcp side data 2000 s 0
  check (¬ sent < data.length) "tcp_send_all: not all bytes sent within budget"
  return s

/-- What stands in the receive buffer, up to the room that is left. -/
def recvSome (side : Side) (room : Nat) (s : State tcp) : Option (State tcp × List UInt8) :=
  if tcp.canRecv s.1 side then
    match tcp.recvSlice s.1 side room with
    | none => none
    | some (net, bytes) => some ((net, s.2), bytes)
  else some (s, [])

def recvLoop (side : Side) (want start : Nat) :
    Nat → State tcp → List UInt8 → Except Stop (State tcp × List UInt8)
  | 0, s, out => .ok (s, out)
  | polls + 1, s, out =>
    match recvSome tcp side (want - (out.length - start)) (tick tcp s) with
    | none => .error (.error "tcp_recv_n: recv_slice failed")
    | some (s, bytes) =>
      if want ≤ (out ++ bytes).length - start then .ok (s, out ++ bytes)
      else recvLoop side want start polls s (out ++ bytes)

def tcpRecvN (side : Side) (want : Nat) (out : List UInt8) (s : State tcp) :
    Except Stop (State tcp × List UInt8) := do
  let (s, received) ← recvLoop tcp side want out.length 2000 s out
  check (¬ received.length - out.length < want)
    "tcp_recv_n: not enough bytes received within budget"
  return (s, received)

end Loops

/-- The body of the handshake message in the record that came through. -/
def readTransported (data : List UInt8) (msgType : UInt8) (wrongOuter wrongType : String) :
    Except Stop (List UInt8) :=
  match readRecord data 0 with
  | (_, .error fault) => .error (raised fault)
  | (_, .ok (ct, payload)) => do
    check (ct = CT_HANDSHAKE) wrongOuter
    check (4 ≤ payload.length ∧ payload.head? = some msgType) wrongType
    return payload.drop 4

def runTlsOverSmoltcpTest (suite : Suite) (tcp : Tcp) (rdrandAvailable : Bool)
    (d : Draws suite) : Except Stop Unit := do
  check (rdrandAvailable = true) "RDRAND not available on this CPU — cannot run TLS/TCP test"
  let clientPk := suite.publicKey d.clientSecret
  let chRecord := writeRecord [] CT_HANDSHAKE (clientHello suite d.clientRandom clientPk)
  let shRecord := writeRecord [] CT_HANDSHAKE
    (serverHello suite d.serverRandom (suite.publicKey d.serverSecret))
  let s := establish tcp 300 (tcp.initial, 0)
  check (tcp.maySend s.1 .client = true)
    "TLS/TCP: TCP connection not established within 300 iterations"
  let s ← tcpSendAll tcp .client chRecord s
  let (s, chRecv) ← tcpRecvN tcp .server chRecord.length [] s
  check (chRecv = chRecord) "TLS/TCP: ClientHello bytes corrupted in TCP transit"
  let chBody ← readTransported chRecv 0x01
    "TLS/TCP: expected CT_HANDSHAKE outer type in ClientHello"
    "TLS/TCP: expected ClientHello handshake type"
  let clientPkParsed ← checked (TlsClientHello.extractClientKeyShare suite.fromSec1Bytes chBody)
  check (suite.toSec1Point clientPkParsed = suite.toSec1Point clientPk)
    "TLS/TCP: client key share mismatch after TCP round-trip"
  let s ← tcpSendAll tcp .server shRecord s
  let (_, shRecv) ← tcpRecvN tcp .client shRecord.length [] s
  check (shRecv = shRecord) "TLS/TCP: ServerHello bytes corrupted in TCP transit"
  let shBody ← readTransported shRecv 0x02
    "TLS/TCP: expected CT_HANDSHAKE outer type in ServerHello"
    "TLS/TCP: expected ServerHello handshake type"
  let serverPkParsed ← checked (TlsServerHello.extractServerKeyShare suite.fromSec1Bytes shBody)
  check (suite.diffieHellman d.clientSecret serverPkParsed =
      suite.diffieHellman d.serverSecret clientPkParsed)
    "TLS/TCP: ECDHE shared secrets do not match — key exchange failed"

/-! ## What the loops move -/

/-- A reliable stream: what one side was given is, in order, what it hands to the other,
and only a send or a receive of a side adds to either. -/
structure ByteStream (tcp : Tcp) where
  wrote : tcp.Net → Side → List UInt8
  took : tcp.Net → Side → List UInt8
  fresh : ∀ side, wrote tcp.initial side = []
  ordered : ∀ net (side : Side), took net side <+: wrote net side.peer
  poll_wrote : ∀ net time, wrote (tcp.poll net time) = wrote net
  poll_took : ∀ net time, took (tcp.poll net time) = took net
  sends : ∀ {net side data net' n}, tcp.sendSlice net side data = some (net', n) →
    n ≤ data.length ∧ wrote net' side = wrote net side ++ data.take n ∧
      wrote net' side.peer = wrote net side.peer ∧ took net' = took net
  receives : ∀ {net side room net' bytes}, tcp.recvSlice net side room = some (net', bytes) →
    bytes.length ≤ room ∧ took net' side = took net side ++ bytes ∧
      took net' side.peer = took net side.peer ∧ wrote net' = wrote net

section Moved

variable {tcp : Tcp} (stream : ByteStream tcp)

/-- Between two states one side was given those bytes, and nothing else moved. -/
structure Sent (side : Side) (bytes : List UInt8) (s s' : State tcp) : Prop where
  own : stream.wrote s'.1 side = stream.wrote s.1 side ++ bytes
  other : stream.wrote s'.1 side.peer = stream.wrote s.1 side.peer
  took : stream.took s'.1 = stream.took s.1

/-- Between two states one side took those bytes, and nothing else moved. -/
structure Taken (side : Side) (bytes : List UInt8) (s s' : State tcp) : Prop where
  own : stream.took s'.1 side = stream.took s.1 side ++ bytes
  other : stream.took s'.1 side.peer = stream.took s.1 side.peer
  wrote : stream.wrote s'.1 = stream.wrote s.1

theorem Sent.tick (side : Side) (s : State tcp) : Sent stream side [] s (tick tcp s) where
  own := by rw [TlsOverTcp.tick, stream.poll_wrote, List.append_nil]
  other := by rw [TlsOverTcp.tick, stream.poll_wrote]
  took := stream.poll_took _ _

theorem Taken.tick (side : Side) (s : State tcp) : Taken stream side [] s (tick tcp s) where
  own := by rw [TlsOverTcp.tick, stream.poll_took, List.append_nil]
  other := by rw [TlsOverTcp.tick, stream.poll_took]
  wrote := stream.poll_wrote _ _

variable {stream}

theorem Sent.trans {side : Side} {first second : List UInt8} {s s' s'' : State tcp}
    (one : Sent stream side first s s') (two : Sent stream side second s' s'') :
    Sent stream side (first ++ second) s s'' where
  own := by rw [two.own, one.own, List.append_assoc]
  other := two.other.trans one.other
  took := two.took.trans one.took

theorem Taken.trans {side : Side} {first second : List UInt8} {s s' s'' : State tcp}
    (one : Taken stream side first s s') (two : Taken stream side second s' s'') :
    Taken stream side (first ++ second) s s'' where
  own := by rw [two.own, one.own, List.append_assoc]
  other := two.other.trans one.other
  wrote := two.wrote.trans one.wrote

variable (stream)

theorem establish_idle (polls : Nat) (s : State tcp) :
    Sent stream .client [] s (establish tcp polls s) := by
  induction polls generalizing s with
  | zero => exact ⟨by rw [establish, List.append_nil], rfl, rfl⟩
  | succ polls ih =>
    have ticked := Sent.tick stream .client s
    rw [establish]
    split
    · exact ticked
    · exact ticked.trans (ih (tick tcp s))

/-- The loop sends a further part of the data, from where it stood. -/
theorem sendLoop_ok {side : Side} {data : List UInt8} {polls : Nat} {s s' : State tcp}
    {sent sent' : Nat} (within : sent ≤ data.length)
    (ran : sendLoop tcp side data polls s sent = .ok (s', sent')) :
    sent ≤ sent' ∧ sent' ≤ data.length ∧
      Sent stream side ((data.drop sent).take (sent' - sent)) s s' := by
  induction polls generalizing s sent with
  | zero =>
    cases ran
    refine ⟨Nat.le_refl _, within, ?_, rfl, rfl⟩
    rw [Nat.sub_self, List.take_zero, List.append_nil]
  | succ polls ih =>
    have ticked := Sent.tick stream side s
    rw [sendLoop] at ran
    split at ran
    · obtain ⟨forward, inside, moved⟩ := ih within ran
      exact ⟨forward, inside, ticked.trans moved⟩
    · split at ran
      · cases ran
      · rename_i net n accepted
        obtain ⟨short, own, other, took⟩ := stream.sends accepted
        rw [List.length_drop] at short
        have pushed : Sent stream side ((data.drop sent).take n) s (net, (tick tcp s).2) :=
          ticked.trans ⟨own, other, took⟩
        split at ran
        · cases ran
          refine ⟨Nat.le_add_right _ _, by omega, ?_⟩
          rw [Nat.add_sub_cancel_left]
          exact pushed
        · obtain ⟨forward, inside, moved⟩ := ih (by omega) ran
          refine ⟨by omega, inside, ?_⟩
          have whole := pushed.trans moved
          rw [← List.drop_drop, ← List.take_add] at whole
          rw [show sent' - sent = n + (sent' - (sent + n)) by omega]
          exact whole

theorem tcpSendAll_ok {side : Side} {data : List UInt8} {s s' : State tcp}
    (ran : tcpSendAll tcp side data s = .ok s') : Sent stream side data s s' := by
  obtain ⟨⟨after, sent⟩, looped, ran⟩ := run_ok_iff.mp ran
  obtain ⟨_, complete, ran⟩ := run_ok_iff.mp ran
  cases ran
  obtain ⟨-, inside, moved⟩ := sendLoop_ok stream (Nat.zero_le _) looped
  have all : sent = data.length := by
    by_contra missing
    rw [check, if_neg (by omega)] at complete
    cases complete
  rw [all, List.drop_zero, Nat.sub_zero, List.take_length] at moved
  exact moved

theorem recvSome_ok {side : Side} {room : Nat} {s s' : State tcp} {bytes : List UInt8}
    (read : recvSome tcp side room s = some (s', bytes)) :
    bytes.length ≤ room ∧ Taken stream side bytes s s' := by
  unfold recvSome at read
  split at read
  · split at read
    · cases read
    · rename_i net got received
      cases read
      obtain ⟨short, own, other, wrote⟩ := stream.receives received
      exact ⟨short, own, other, wrote⟩
  · cases read
    exact ⟨Nat.zero_le _, by rw [List.append_nil], rfl, rfl⟩

theorem recvLoop_ok {side : Side} {want start polls : Nat} {s s' : State tcp}
    {out out' : List UInt8} (behind : start ≤ out.length) (within : out.length - start ≤ want)
    (ran : recvLoop tcp side want start polls s out = .ok (s', out')) :
    ∃ bytes, out' = out ++ bytes ∧ out'.length - start ≤ want ∧
      Taken stream side bytes s s' := by
  induction polls generalizing s out with
  | zero =>
    cases ran
    exact ⟨[], by rw [List.append_nil], within, by rw [List.append_nil], rfl, rfl⟩
  | succ polls ih =>
    have ticked := Taken.tick stream side s
    rw [recvLoop] at ran
    split at ran
    · cases ran
    · rename_i after bytes read
      obtain ⟨short, moved⟩ := recvSome_ok stream read
      have further := ticked.trans moved
      have length : (out ++ bytes).length = out.length + bytes.length := List.length_append
      split at ran
      · cases ran
        exact ⟨bytes, rfl, by omega, further⟩
      · obtain ⟨later, joined, inside, rest⟩ := ih (by omega) (by omega) ran
        refine ⟨bytes ++ later, ?_, inside, further.trans rest⟩
        rw [joined, List.append_assoc]

theorem tcpRecvN_ok {side : Side} {want : Nat} {s s' : State tcp} {received : List UInt8}
    (ran : tcpRecvN tcp side want [] s = .ok (s', received)) :
    received.length = want ∧ Taken stream side received s s' := by
  obtain ⟨⟨after, got⟩, looped, ran⟩ := run_ok_iff.mp ran
  obtain ⟨_, complete, ran⟩ := run_ok_iff.mp ran
  cases ran
  obtain ⟨bytes, joined, inside, moved⟩ :=
    recvLoop_ok stream (Nat.le_refl _) (Nat.zero_le _) looped
  rw [List.nil_append] at joined
  refine ⟨?_, joined ▸ moved⟩
  by_contra missing
  rw [List.length_nil, Nat.sub_zero] at inside
  rw [check, List.length_nil, Nat.sub_zero, if_neg (by omega)] at complete
  cases complete

/-- What one side sends in full the other receives unchanged, where nothing stands
before it on the way. -/
theorem transported {side : Side} {data received : List UInt8} {s s' s'' : State tcp}
    (idle : stream.wrote s.1 side = [])
    (sent : tcpSendAll tcp side data s = .ok s')
    (got : tcpRecvN tcp side.peer data.length [] s' = .ok (s'', received)) : received = data := by
  have pushed := tcpSendAll_ok stream sent
  obtain ⟨length, taken⟩ := tcpRecvN_ok stream got
  have nothing : stream.took s'.1 side.peer = [] := by
    have before := stream.ordered s.1 side.peer
    rw [← pushed.took] at before
    cases side with
    | client => exact List.prefix_nil.mp (idle ▸ before)
    | server => exact List.prefix_nil.mp (idle ▸ before)
  have order := stream.ordered s''.1 side.peer
  rw [taken.own, nothing, List.nil_append, taken.wrote] at order
  have given : stream.wrote s'.1 side.peer.peer = data := by
    have own := pushed.own
    rw [idle, List.nil_append] at own
    cases side with
    | client => exact own
    | server => exact own
  rw [given] at order
  exact order.eq_of_length length

end Moved

/-! ## What the test can report -/

/-- The reports that are about the connection and the budget. -/
def undelivered : List String :=
  ["TLS/TCP: TCP connection not established within 300 iterations",
    "tcp_send_all: send_slice failed",
    "tcp_send_all: not all bytes sent within budget",
    "tcp_recv_n: recv_slice failed",
    "tcp_recv_n: not enough bytes received within budget"]

/-- The call returned, or stopped at the connection or the budget. -/
def Delivers {α : Type} (x : Except Stop α) : Prop :=
  ∀ stop, x = .error stop → ∃ message ∈ undelivered, stop = .error message

section Reports

variable {tcp : Tcp}

theorem check_delivers {holds : Prop} [Decidable holds] {message : String}
    (listed : message ∈ undelivered) : Delivers (check holds message) := by
  intro stop stopped
  unfold check at stopped
  split at stopped
  · cases stopped
  · cases stopped
    exact ⟨message, listed, rfl⟩

theorem Delivers.bind {α β : Type} {x : Except Stop α} {f : α → Except Stop β}
    (first : Delivers x) (later : ∀ a, x = .ok a → Delivers (f a)) : Delivers (x >>= f) := by
  cases x with
  | error stop =>
    intro other stopped
    cases stopped
    exact first stop rfl
  | ok a => exact later a rfl

theorem delivers_ok {α : Type} (a : α) : Delivers (.ok a : Except Stop α) := by
  intro stop stopped
  cases stopped

theorem sendLoop_delivers (side : Side) (data : List UInt8) (polls : Nat) (s : State tcp)
    (sent : Nat) : Delivers (sendLoop tcp side data polls s sent) := by
  induction polls generalizing s sent with
  | zero => exact delivers_ok _
  | succ polls ih =>
    rw [sendLoop]
    split
    · exact ih _ _
    · split
      · intro stop stopped
        cases stopped
        exact ⟨_, by simp [undelivered], rfl⟩
      · split
        · exact delivers_ok _
        · exact ih _ _

theorem tcpSendAll_delivers (side : Side) (data : List UInt8) (s : State tcp) :
    Delivers (tcpSendAll tcp side data s) := by
  apply Delivers.bind (sendLoop_delivers side data 2000 s 0)
  intro sent _
  apply Delivers.bind (check_delivers (by simp [undelivered]))
  intro _ _
  exact delivers_ok _

theorem recvLoop_delivers (side : Side) (want start polls : Nat) (s : State tcp)
    (out : List UInt8) : Delivers (recvLoop tcp side want start polls s out) := by
  induction polls generalizing s out with
  | zero => exact delivers_ok _
  | succ polls ih =>
    rw [recvLoop]
    split
    · intro stop stopped
      cases stopped
      exact ⟨_, by simp [undelivered], rfl⟩
    · split
      · exact delivers_ok _
      · exact ih _ _

theorem tcpRecvN_delivers (side : Side) (want : Nat) (s : State tcp) :
    Delivers (tcpRecvN tcp side want [] s) := by
  apply Delivers.bind (recvLoop_delivers side want 0 2000 s [])
  intro received _
  apply Delivers.bind (check_delivers (by simp [undelivered]))
  intro _ _
  exact delivers_ok _

theorem readTransported_record {body : List UInt8} (small : body.length < 65532)
    (msgType : UInt8) (wrongOuter wrongType : String) :
    readTransported (writeRecord [] CT_HANDSHAKE (writeHandshake [] msgType body)) msgType
      wrongOuter wrongType = .ok body := by
  have length : (writeHandshake [] msgType body).length = body.length + 4 := by
    simp [be24]
  have read := @readRecord_whole _ [] [] (CT_HANDSHAKE, writeHandshake [] msgType body)
    (by simp only; omega) rfl
  rw [List.length_nil, List.append_nil] at read
  have named : (writeHandshake [] msgType body).head? = some msgType := by
    rw [writeHandshake_nil]
    rfl
  have content : (writeHandshake [] msgType body).drop 4 = body := by
    rw [writeHandshake_nil]
    rfl
  simp only [readTransported, read]
  rw [check_run trivial, check_run ⟨by omega, named⟩, content]
  rfl

variable {suite : Suite} (lawful : suite.Lawful)
include lawful

/-- However the stack splits what it takes and gives: the test succeeds, or it reports
the connection or the budget. No byte is corrupted, no record or key is refused, and
the two shared secrets agree. -/
theorem tls_over_tcp_intact (stream : ByteStream tcp) (d : Draws suite) :
    runTlsOverSmoltcpTest suite tcp true d = .ok () ∨
      ∃ message ∈ undelivered,
        runTlsOverSmoltcpTest suite tcp true d = .error (.error message) := by
  have delivers : Delivers (runTlsOverSmoltcpTest suite tcp true d) := by
    have up := establish_idle stream 300 (tcp.initial, 0)
    have client_idle : stream.wrote (establish tcp 300 (tcp.initial, 0)).1 .client = [] := by
      rw [up.own, stream.fresh]
      rfl
    have server_idle : stream.wrote (establish tcp 300 (tcp.initial, 0)).1 .server = [] :=
      up.other.trans (stream.fresh .server)
    rw [runTlsOverSmoltcpTest, check_run rfl]
    apply Delivers.bind (check_delivers (by simp [undelivered]))
    intro _ _
    apply Delivers.bind (tcpSendAll_delivers _ _ _)
    intro sent sent_ok
    apply Delivers.bind (tcpRecvN_delivers _ _ _)
    rintro ⟨received, chRecv⟩ received_ok
    have same : chRecv = _ := transported stream client_idle sent_ok received_ok
    have still_idle : stream.wrote received.1 .server = [] := by
      have pushed := tcpSendAll_ok stream sent_ok
      obtain ⟨-, taken⟩ := tcpRecvN_ok stream received_ok
      rw [taken.wrote]
      exact pushed.other.trans server_idle
    dsimp only
    rw [check_run same, same, clientHello, run_ok (readTransported_record
      (clientHello_length _ _) 0x01 _ _), run_ok (client_key_read lawful _ _), check_run rfl]
    apply Delivers.bind (tcpSendAll_delivers _ _ _)
    intro answered answered_ok
    apply Delivers.bind (tcpRecvN_delivers _ _ _)
    rintro ⟨_, shRecv⟩ answer_ok
    have same' : shRecv = _ := transported stream still_idle answered_ok answer_ok
    dsimp only
    rw [check_run same', same', serverHello, run_ok (readTransported_record
      (serverHello_length _ _) 0x02 _ _), run_ok (server_key_read lawful _ _)]
    rw [check, if_pos (lawful.agrees _ _)]
    exact delivers_ok _
  cases result : runTlsOverSmoltcpTest suite tcp true d with
  | ok _ => exact .inl rfl
  | error stop =>
    obtain ⟨message, listed, stopped⟩ := delivers stop result
    exact .inr ⟨message, listed, by rw [stopped]⟩

end Reports

/-! ## A loopback that takes and gives whole slices -/

/-- Both directions of the connection, and whether it has come up. -/
structure Pipes where
  up : Bool
  wrote : Side → List UInt8
  took : Side → List UInt8
  ordered : ∀ side : Side, took side <+: wrote side.peer

theorem nothing_ordered (side : Side) :
    (fun _ : Side => ([] : List UInt8)) side <+: (fun _ : Side => ([] : List UInt8)) side.peer :=
  List.prefix_refl _

def Pipes.initial : Pipes := ⟨false, fun _ => [], fun _ => [], nothing_ordered⟩

theorem Pipes.wrote_ordered (pipes : Pipes) (side : Side) (data : List UInt8) (other : Side) :
    pipes.took other <+:
      (Function.update pipes.wrote side (pipes.wrote side ++ data)) other.peer := by
  by_cases same : other.peer = side
  · rw [same, Function.update_self]
    exact (same ▸ pipes.ordered other).trans (List.prefix_append _ _)
  · rw [Function.update_of_ne same]
    exact pipes.ordered other

def Pipes.send (pipes : Pipes) (side : Side) (data : List UInt8) : Pipes :=
  { pipes with
    wrote := Function.update pipes.wrote side (pipes.wrote side ++ data)
    ordered := pipes.wrote_ordered side data }

/-- What stands in the receive buffer. -/
def Pipes.waiting (pipes : Pipes) (side : Side) : List UInt8 :=
  (pipes.wrote side.peer).drop (pipes.took side).length

theorem Pipes.took_ordered (pipes : Pipes) (side : Side) (room : Nat) (other : Side) :
    (Function.update pipes.took side (pipes.took side ++ (pipes.waiting side).take room)) other
      <+: pipes.wrote other.peer := by
  by_cases same : other = side
  · rw [same, Function.update_self]
    obtain ⟨rest, whole⟩ := pipes.ordered side
    rw [Pipes.waiting, ← whole, List.drop_left]
    exact (List.prefix_append_right_inj _).mpr (List.take_prefix _ _)
  · rw [Function.update_of_ne same]
    exact pipes.ordered other

def Pipes.receive (pipes : Pipes) (side : Side) (room : Nat) : Pipes :=
  { pipes with
    took := Function.update pipes.took side
      (pipes.took side ++ (pipes.waiting side).take room)
    ordered := pipes.took_ordered side room }

def loopbackTcp : Tcp where
  Net := Pipes
  initial := Pipes.initial
  poll pipes _ := { pipes with up := true }
  maySend pipes _ := pipes.up
  mayRecv pipes _ := pipes.up
  canRecv pipes side := !(pipes.waiting side).isEmpty
  sendSlice pipes side data := some (pipes.send side data, data.length)
  recvSlice pipes side room := some (pipes.receive side room, (pipes.waiting side).take room)

theorem peer_ne (side : Side) : side.peer ≠ side := by
  cases side with
  | client => decide
  | server => decide

def loopbackStream : ByteStream loopbackTcp where
  wrote := Pipes.wrote
  took := Pipes.took
  fresh _ := rfl
  ordered := Pipes.ordered
  poll_wrote _ _ := rfl
  poll_took _ _ := rfl
  sends := by
    intro pipes side data pipes' n sent
    cases sent
    refine ⟨Nat.le_refl _, ?_, Function.update_of_ne (peer_ne side) _ _, rfl⟩
    rw [List.take_length]
    exact Function.update_self _ _ _
  receives := by
    intro pipes side room pipes' bytes received
    cases received
    refine ⟨List.length_take_le _ _, Function.update_self _ _ _,
      Function.update_of_ne (peer_ne side) _ _, rfl⟩

/-- The two hellos of the known run, over that loopback. -/
theorem tls_over_tcp_intact_loopback :
    runTlsOverSmoltcpTest knownSuite loopbackTcp true knownDraws = .ok () ∨
      ∃ message ∈ undelivered,
        runTlsOverSmoltcpTest knownSuite loopbackTcp true knownDraws = .error (.error message) :=
  tls_over_tcp_intact knownSuite_lawful loopbackStream knownDraws

end TlsOverTcp
