import AnimaOS.TlsRecords
import AnimaOS.TlsTraffic

/-!
# Encrypted handshake messages

`write_handshake`, `send_encrypted_handshake` and `read_decrypt_handshake` of the
micro-VM's TLS code: a message is sealed with its content type behind it, framed as
one record, read from a cursor, opened and checked for the type that is due.
-/

namespace TlsChannel

open ByteReader TlsRecords TlsTraffic

/-- TLS content type: handshake (22). -/
def CT_HANDSHAKE : UInt8 := 22

/-- TLS content type: application data (23). -/
def CT_APP_DATA : UInt8 := 23

/-- `len >> 16`, `len >> 8` and `len` of a `u32` length, each cut to one byte. -/
def be24 (n : Nat) : List UInt8 :=
  [UInt8.ofNat (n % 2 ^ 32 / 65536), UInt8.ofNat (n % 2 ^ 32 / 256), UInt8.ofNat (n % 2 ^ 32)]

def writeHandshake (buf : List UInt8) (msgType : UInt8) (body : List UInt8) : List UInt8 :=
  buf ++ [msgType] ++ be24 body.length ++ body

@[simp] theorem writeHandshake_nil (msgType : UInt8) (body : List UInt8) :
    writeHandshake [] msgType body = msgType :: (be24 body.length ++ body) := by
  simp [writeHandshake]

/-- `record_header`, as the array that is authenticated. -/
def outerHeader (payloadLen : Nat) : Header :=
  ⟨(recordHeader CT_APP_DATA payloadLen).toArray, rfl⟩

/-- The message with its content type behind it is sealed and framed; the keys after the
call, and the buffer. -/
def sendInner (cipher : Aes128Gcm) (buf : List UInt8) (keys : TrafficKeys) (innerType : UInt8)
    (msg : List UInt8) : TrafficKeys × Except Stop (List UInt8) :=
  let inner := msg ++ [innerType]
  match keys.seal cipher (outerHeader (inner.length + 16)) inner with
  | (keys, .error stop) => (keys, .error stop)
  | (keys, .ok sealed) => (keys, .ok (writeRecord buf CT_APP_DATA sealed))

def sendEncryptedHandshake (cipher : Aes128Gcm) (buf : List UInt8) (keys : TrafficKeys)
    (msg : List UInt8) : TrafficKeys × Except Stop (List UInt8) :=
  sendInner cipher buf keys CT_HANDSHAKE msg

def raised : Fault → Stop
  | .outOfRange => .panicked "index out of range"
  | .error message => .error message

structure Reader where
  pos : Nat
  keys : TrafficKeys
  deriving DecidableEq

/-- The record at the cursor is read and opened. -/
def openNext (cipher : Aes128Gcm) (data : List UInt8) (r : Reader) (wrongOuter : String) :
    Reader × Except Stop (List UInt8) :=
  match readRecord data r.pos with
  | (pos, .error f) => ({ r with pos := pos }, .error (raised f))
  | (pos, .ok (ct, payload)) =>
    if ct ≠ CT_APP_DATA then ({ r with pos := pos }, .error (.error wrongOuter))
    else
      match r.keys.open cipher (outerHeader payload.length) payload with
      | (keys, .error stop) => (⟨pos, keys⟩, .error stop)
      | (keys, .ok inner) => (⟨pos, keys⟩, .ok inner)

/-- The inner content type is popped and checked. -/
def popped (empty wrongInner : String) (innerType : UInt8) (inner : List UInt8) :
    Except Stop (List UInt8) :=
  match inner.getLast? with
  | none => .error (.error empty)
  | some innerCt => if innerCt ≠ innerType then .error (.error wrongInner) else .ok inner.dropLast

/-- The message's own type is checked behind it. -/
def stripped (expectedType : UInt8) (inner : List UInt8) : Except Stop (List UInt8) :=
  match popped "decrypted record empty"
      "read_decrypt_handshake: inner content type is not handshake" CT_HANDSHAKE inner with
  | .error stop => .error stop
  | .ok msg =>
    if msg.head? ≠ some expectedType then
      .error (.error "read_decrypt_handshake: unexpected handshake message type")
    else .ok msg

def readDecryptHandshake (cipher : Aes128Gcm) (data : List UInt8) (r : Reader)
    (expectedType : UInt8) : Reader × Except Stop (List UInt8) :=
  match openNext cipher data r "read_decrypt_handshake: expected CT_APP_DATA outer type" with
  | (r, .error stop) => (r, .error stop)
  | (r, .ok inner) => (r, stripped expectedType inner)

/-! ## One message -/

/-- AES-GCM takes any message of at most `2^36` bytes and keeps its length. -/
structure Lawful (cipher : Aes128Gcm) : Prop extends cipher.Ideal where
  encrypts : ∀ nonce header inner, inner.length ≤ 2 ^ 36 →
    ∃ ct tag, cipher.encrypt nonce header inner = some (ct, tag) ∧ ct.length = inner.length

theorem popped_message (empty wrongInner : String) (innerType : UInt8) (msg : List UInt8) :
    popped empty wrongInner innerType (msg ++ [innerType]) = .ok msg := by
  simp [popped]

theorem popped_ok {empty wrongInner : String} {innerType : UInt8} {inner msg : List UInt8}
    (read : popped empty wrongInner innerType inner = .ok msg) : inner = msg ++ [innerType] := by
  unfold popped at read
  split at read
  · cases read
  · rename_i innerCt last
    split at read
    · cases read
    · rename_i same
      cases read
      have whole := List.dropLast_append_getLast? innerCt last
      rw [not_not.mp same] at whole
      exact whole.symm

theorem stripped_message {msg : List UInt8} {expectedType : UInt8}
    (named : msg.head? = some expectedType) :
    stripped expectedType (msg ++ [CT_HANDSHAKE]) = .ok msg := by
  simp only [stripped, popped_message, named, ne_eq, not_true_eq_false, if_false]

theorem stripped_ok {inner msg : List UInt8} {expectedType : UInt8}
    (read : stripped expectedType inner = .ok msg) :
    inner = msg ++ [CT_HANDSHAKE] ∧ msg.head? = some expectedType := by
  unfold stripped at read
  split at read
  · cases read
  · rename_i plain whole
    split at read
    · cases read
    · rename_i named
      cases read
      exact ⟨popped_ok whole, not_not.mp named⟩

/-- What the cipher makes of a nonce, a header and a message: the payload of a record. -/
def SealedAs (cipher : Aes128Gcm) (entry : Nonce × Header × List UInt8) (payload : List UInt8) :
    Prop :=
  ∃ ct tag, cipher.encrypt entry.1 entry.2.1 entry.2.2 = some (ct, tag) ∧
    payload = ct ++ Vector.toList tag

/-- What is sent is one record behind the buffer, which the receiver at the sender's
counter opens. -/
theorem sendInner_opened {cipher : Aes128Gcm} (lawful : Lawful cipher) (buf : List UInt8)
    {keys : TrafficKeys} (innerType : UInt8) {msg : List UInt8}
    (small : msg.length + 17 < 65536) (room : keys.seq ≠ u64Max) :
    ∃ payload,
      SealedAs cipher (keys.nonce, outerHeader (msg.length + 17), msg ++ [innerType]) payload ∧
      sendInner cipher buf keys innerType msg =
        ({ keys with seq := keys.seq + 1 }, .ok (writeRecord buf CT_APP_DATA payload)) ∧
      ∀ rest wrongOuter,
        openNext cipher (writeRecord buf CT_APP_DATA payload ++ rest) ⟨buf.length, keys⟩
            wrongOuter =
          (⟨(writeRecord buf CT_APP_DATA payload).length, { keys with seq := keys.seq + 1 }⟩,
            .ok (msg ++ [innerType])) := by
  obtain ⟨ct, tag, encrypted, same_length⟩ := lawful.encrypts keys.nonce
    (outerHeader (msg.length + 17)) (msg ++ [innerType]) (by simp; omega)
  have inner_length : (msg ++ [innerType]).length = msg.length + 1 := by simp
  have length : (ct ++ tag.toList).length = msg.length + 17 := by
    simp [same_length]
  refine ⟨ct ++ tag.toList, ⟨ct, tag, encrypted, rfl⟩, ?_, ?_⟩
  · simp only [sendInner, TrafficKeys.seal, if_neg room, inner_length, Nat.add_assoc, encrypted]
  · intro rest wrongOuter
    have read : readRecord (writeRecord buf CT_APP_DATA (ct ++ tag.toList) ++ rest) buf.length =
        ((writeRecord buf CT_APP_DATA (ct ++ tag.toList)).length,
          .ok (CT_APP_DATA, ct ++ tag.toList)) :=
      @readRecord_whole _ buf rest (CT_APP_DATA, ct ++ tag.toList) (by simp only; omega) rfl
    rw [← length] at encrypted
    have opened := open_sealed lawful.toIdeal room encrypted
    simp only [openNext, read, ne_eq, not_true_eq_false, if_false, opened]

theorem read_opened {cipher : Aes128Gcm} {data msg : List UInt8} {r after : Reader}
    (opened : ∀ wrongOuter, openNext cipher data r wrongOuter = (after, .ok (msg ++ [CT_HANDSHAKE])))
    {expectedType : UInt8} (named : msg.head? = some expectedType) :
    readDecryptHandshake cipher data r expectedType = (after, .ok msg) := by
  simp only [readDecryptHandshake, opened, stripped_message named]

/-! ## A sequence of messages -/

/-- The keys after `n` more records. -/
def advance (keys : TrafficKeys) (n : Nat) : TrafficKeys :=
  { keys with seq := keys.seq + UInt64.ofNat n }

def sendAll (cipher : Aes128Gcm) (buf : List UInt8) (keys : TrafficKeys) :
    List (List UInt8) → TrafficKeys × Except Stop (List UInt8)
  | [] => (keys, .ok buf)
  | msg :: msgs =>
    match sendEncryptedHandshake cipher buf keys msg with
    | (keys, .error stop) => (keys, .error stop)
    | (keys, .ok buf) => sendAll cipher buf keys msgs

structure Received where
  reader : Reader
  messages : List (List UInt8)
  stop : Option Stop

/-- One read for each type that is due, up to the first that fails. -/
def receiveAll (cipher : Aes128Gcm) (data : List UInt8) (r : Reader) :
    List UInt8 → Received
  | [] => ⟨r, [], none⟩
  | expectedType :: types =>
    match readDecryptHandshake cipher data r expectedType with
    | (r, .error stop) => ⟨r, [], some stop⟩
    | (r, .ok msg) =>
      let later := receiveAll cipher data r types
      { later with messages := msg :: later.messages }

/-- What is handed to the cipher for each message. -/
def sealings (keys : TrafficKeys) (msgs : List (List UInt8)) :
    List (Nonce × Header × List UInt8) :=
  msgs.mapIdx fun i msg => ((advance keys i).nonce, outerHeader (msg.length + 17),
    msg ++ [CT_HANDSHAKE])

/-- Every record of application data in the bytes that opens at all opens to something
the sender sealed, under the nonce and the header it was sealed under. -/
def Unforged (cipher : Aes128Gcm) (sent : List (Nonce × Header × List UInt8))
    (data : List UInt8) : Prop :=
  ∀ pos cursor payload, readRecord data pos = (cursor, .ok (CT_APP_DATA, payload)) →
    ∀ nonce ct tag inner, payload = ct ++ Vector.toList tag →
      cipher.decrypt nonce (outerHeader payload.length) ct tag = some inner →
      (nonce, outerHeader payload.length, inner) ∈ sent

theorem advance_zero (keys : TrafficKeys) : advance keys 0 = keys := by
  simp [advance]

theorem advance_toNat {keys : TrafficKeys} {n : Nat} (room : keys.seq.toNat + n < 2 ^ 64) :
    (advance keys n).seq.toNat = keys.seq.toNat + n := by
  simp only [advance, UInt64.toNat_add, UInt64.toNat_ofNat']
  omega

theorem advance_room {keys : TrafficKeys} {n : Nat} (room : keys.seq.toNat + n + 1 < 2 ^ 64) :
    (advance keys n).seq ≠ u64Max := by
  intro full
  have last := congrArg UInt64.toNat full
  rw [advance_toNat (by omega)] at last
  have bound : u64Max.toNat = 2 ^ 64 - 1 := rfl
  omega

theorem advance_next (keys : TrafficKeys) (n : Nat) :
    { advance keys n with seq := (advance keys n).seq + 1 } = advance keys (n + 1) := by
  simp only [advance, TrafficKeys.mk.injEq, true_and]
  rw [UInt64.ofNat_add]
  exact UInt64.add_assoc _ _ _

theorem advance_advance (keys : TrafficKeys) (m n : Nat) :
    advance (advance keys m) n = advance keys (m + n) := by
  simp only [advance, TrafficKeys.mk.injEq, true_and]
  rw [UInt64.ofNat_add]
  exact UInt64.add_assoc _ _ _

theorem sealings_cons (keys : TrafficKeys) (msg : List UInt8) (msgs : List (List UInt8)) :
    sealings keys (msg :: msgs) =
      (keys.nonce, outerHeader (msg.length + 17), msg ++ [CT_HANDSHAKE]) ::
        sealings (advance keys 1) msgs := by
  simp only [sealings, List.mapIdx_cons, advance_zero, advance_advance, Nat.add_comm]

/-- The messages become records in their order, and are read back in it. -/
theorem sendAll_received {cipher : Aes128Gcm} (lawful : Lawful cipher) {keys : TrafficKeys}
    {msgs : List (List UInt8)} (small : ∀ msg ∈ msgs, msg.length + 17 < 65536)
    (room : keys.seq.toNat + msgs.length < 2 ^ 64) (buf : List UInt8) :
    ∃ payloads, List.Forall₂ (SealedAs cipher) (sealings keys msgs) payloads ∧
      sendAll cipher buf keys msgs =
        (advance keys msgs.length, .ok (writeAll buf (payloads.map (Prod.mk CT_APP_DATA)))) ∧
      ∀ rest types, msgs.map List.head? = types.map some →
        receiveAll cipher (writeAll buf (payloads.map (Prod.mk CT_APP_DATA)) ++ rest)
            ⟨buf.length, keys⟩ types =
          ⟨⟨(writeAll buf (payloads.map (Prod.mk CT_APP_DATA))).length,
            advance keys msgs.length⟩, msgs, none⟩ := by
  induction msgs generalizing keys buf with
  | nil =>
    refine ⟨[], .nil, by simp [sendAll, advance_zero, writeAll], ?_⟩
    intro rest types named
    have none_due : types = [] := by simpa using named.symm
    simp [none_due, receiveAll, advance_zero, writeAll]
  | cons msg msgs ih =>
    simp only [List.length_cons] at room
    have next : { keys with seq := keys.seq + 1 } = advance keys 1 := rfl
    obtain ⟨payload, sealed_as, sent, opened⟩ := sendInner_opened lawful buf CT_HANDSHAKE
      (small msg List.mem_cons_self)
      (show keys.seq ≠ u64Max from
        (congrArg TrafficKeys.seq (advance_zero keys)) ▸ advance_room (by omega))
    have later_room : (advance keys 1).seq.toNat + msgs.length < 2 ^ 64 := by
      rw [advance_toNat (by omega)]
      omega
    obtain ⟨payloads, all_sealed, all_sent, all_read⟩ := ih
      (fun m listed => small m (List.mem_cons_of_mem _ listed))
      later_room (writeRecord buf CT_APP_DATA payload)
    rw [advance_advance, Nat.add_comm] at all_sent all_read
    refine ⟨payload :: payloads, ?_, ?_, ?_⟩
    · rw [sealings_cons]
      exact .cons sealed_as all_sealed
    · simp only [sendAll, sendEncryptedHandshake, sent, next, all_sent, List.map_cons,
        writeAll_cons, List.length_cons]
    · intro rest types named
      obtain _ | ⟨expectedType, types⟩ := types
      · cases named
      obtain ⟨first, others⟩ := List.cons.inj named
      obtain ⟨behind, written⟩ := writeAll_behind (writeRecord buf CT_APP_DATA payload)
        (payloads.map (Prod.mk CT_APP_DATA))
      have now := read_opened (opened (behind ++ rest)) first
      have later := all_read rest types others
      rw [← List.append_assoc, ← written, next] at now
      simp only [receiveAll, List.map_cons, writeAll_cons, now, later, List.length_cons]

/-! ## Bytes from anywhere -/

theorem open_ok {cipher : Aes128Gcm} {keys after : TrafficKeys} {header : Header}
    {record inner : List UInt8}
    (opened : keys.open cipher header record = (after, .ok inner)) :
    after = { keys with seq := keys.seq + 1 } ∧ ∃ ct tag, record = ct ++ Vector.toList tag ∧
      cipher.decrypt keys.nonce header ct tag = some inner := by
  unfold TrafficKeys.open at opened
  split at opened
  · cases opened
  · rename_i long
    split at opened
    · cases opened
    · split at opened
      · cases opened
      · rename_i decrypted
        cases opened
        refine ⟨rfl, _, _, ?_, decrypted⟩
        exact (List.take_append_drop (record.length - 16) record).symm

theorem openNext_ok {cipher : Aes128Gcm} {data inner : List UInt8} {r after : Reader}
    {wrongOuter : String} (opened : openNext cipher data r wrongOuter = (after, .ok inner)) :
    ∃ cursor payload, readRecord data r.pos = (cursor, .ok (CT_APP_DATA, payload)) ∧
      after.keys = { r.keys with seq := r.keys.seq + 1 } ∧
      ∃ ct tag, payload = ct ++ Vector.toList tag ∧
        cipher.decrypt r.keys.nonce (outerHeader payload.length) ct tag = some inner := by
  unfold openNext at opened
  split at opened
  · cases opened
  · rename_i cursor ct payload framed
    split at opened
    · cases opened
    · rename_i outer
      rw [not_not.mp outer] at framed
      split at opened
      · cases opened
      · rename_i whole
        cases opened
        exact ⟨cursor, payload, framed, open_ok whole⟩

theorem mem_sealings {keys : TrafficKeys} {msgs : List (List UInt8)} {nonce : Nonce}
    {header : Header} {inner : List UInt8} (listed : (nonce, header, inner) ∈ sealings keys msgs) :
    ∃ i msg, msgs[i]? = some msg ∧ nonce = (advance keys i).nonce ∧
      inner = msg ++ [CT_HANDSHAKE] := by
  obtain ⟨i, inside, entry⟩ := List.mem_mapIdx.mp listed
  simp only [Prod.mk.injEq] at entry
  exact ⟨i, msgs[i], List.getElem?_eq_getElem inside, entry.1.symm, entry.2.2.symm⟩

theorem advance_nonce_inj {keys : TrafficKeys} {m n : Nat} (first : keys.seq.toNat + m < 2 ^ 64)
    (second : keys.seq.toNat + n < 2 ^ 64)
    (same : (advance keys m).nonce = (advance keys n).nonce) : m = n := by
  have counters := congrArg UInt64.toNat (@nonce_inj keys.iv _ _ same)
  have left := advance_toNat first
  have right := advance_toNat second
  simp only [advance] at left right
  omega

/-- An accepted read at the sender's counter returns the message sent under it. -/
theorem genuine_read {cipher : Aes128Gcm} {keys : TrafficKeys} {msgs : List (List UInt8)}
    (room : keys.seq.toNat + msgs.length < 2 ^ 64) {data : List UInt8}
    (unforged : Unforged cipher (sealings keys msgs) data) {n pos : Nat} (within : n ≤ msgs.length)
    {expectedType : UInt8} {r : Reader} {msg : List UInt8}
    (read : readDecryptHandshake cipher data ⟨pos, advance keys n⟩ expectedType = (r, .ok msg)) :
    msgs[n]? = some msg ∧ msg.head? = some expectedType ∧ r.keys = advance keys (n + 1) := by
  unfold readDecryptHandshake at read
  split at read
  · cases read
  · rename_i after inner opened
    obtain ⟨reader_eq, message⟩ := Prod.mk.inj read
    obtain ⟨inner_eq, named⟩ := stripped_ok message
    obtain ⟨cursor, payload, framed, counted, ciphertext, tag, whole, decrypted⟩ :=
      openNext_ok opened
    have sent := unforged pos cursor payload framed _ _ _ _ whole decrypted
    obtain ⟨i, origin, listed, nonce, plain⟩ := mem_sealings sent
    obtain ⟨inside, _⟩ := List.getElem?_eq_some_iff.mp listed
    have index : n = i := advance_nonce_inj (by omega) (by omega) nonce
    rw [index, listed]
    refine ⟨?_, named, ?_⟩
    · rw [inner_eq] at plain
      exact congrArg some (List.append_cancel_right plain).symm
    · rw [← reader_eq, counted, ← index]
      exact advance_next keys n

theorem receiveAll_genuine {cipher : Aes128Gcm} {keys : TrafficKeys} {msgs : List (List UInt8)}
    (room : keys.seq.toNat + msgs.length < 2 ^ 64) {data : List UInt8}
    (unforged : Unforged cipher (sealings keys msgs) data) {n : Nat} (within : n ≤ msgs.length)
    (pos : Nat) (types : List UInt8) :
    let received := receiveAll cipher data ⟨pos, advance keys n⟩ types
    received.messages <+: msgs.drop n ∧
      received.messages.map List.head? = (types.take received.messages.length).map some ∧
      (received.stop = none → received.messages.length = types.length) := by
  induction types generalizing n pos with
  | nil => exact ⟨List.nil_prefix, rfl, fun _ => rfl⟩
  | cons expectedType types ih =>
    intro received
    cases read : readDecryptHandshake cipher data ⟨pos, advance keys n⟩ expectedType with
    | mk r result =>
      cases result with
      | error stop =>
        have refused : received = ⟨r, [], some stop⟩ := by
          simp only [received, receiveAll, read]
        rw [refused]
        exact ⟨List.nil_prefix, rfl, fun halted => by cases halted⟩
      | ok msg =>
        obtain ⟨listed, named, counted⟩ := genuine_read room unforged within read
        obtain ⟨inside, found⟩ := List.getElem?_eq_some_iff.mp listed
        obtain ⟨ordered, typed, all_due⟩ := ih (n := n + 1) inside r.pos
        have goes_on : received.messages =
            msg :: (receiveAll cipher data ⟨r.pos, advance keys (n + 1)⟩ types).messages ∧
            received.stop = (receiveAll cipher data ⟨r.pos, advance keys (n + 1)⟩ types).stop := by
          rw [← counted]
          simp only [received, receiveAll, read, and_self]
        rw [goes_on.1, goes_on.2, List.drop_eq_getElem_cons inside, found]
        refine ⟨List.prefix_cons_inj msg |>.mpr ordered, ?_, ?_⟩
        · simp only [List.map_cons, List.length_cons, List.take_succ_cons, named, typed]
        · intro finished
          simp only [List.length_cons, all_due finished]

/-- Messages sent are read back whole and in order, whatever follows them; and from any
bytes in which nothing is forged, what is accepted is a first part of what was sent,
each message of the type that was due. -/
theorem encrypted_handshake_in_order {cipher : Aes128Gcm} (lawful : Lawful cipher)
    (keys : TrafficKeys) (msgs : List (List UInt8))
    (small : ∀ msg ∈ msgs, msg.length + 17 < 65536)
    (room : keys.seq.toNat + msgs.length < 2 ^ 64) :
    (∀ buf, ∃ payloads, List.Forall₂ (SealedAs cipher) (sealings keys msgs) payloads ∧
      sendAll cipher buf keys msgs =
        (advance keys msgs.length, .ok (writeAll buf (payloads.map (Prod.mk CT_APP_DATA)))) ∧
      ∀ rest types, msgs.map List.head? = types.map some →
        receiveAll cipher (writeAll buf (payloads.map (Prod.mk CT_APP_DATA)) ++ rest)
            ⟨buf.length, keys⟩ types =
          ⟨⟨(writeAll buf (payloads.map (Prod.mk CT_APP_DATA))).length,
            advance keys msgs.length⟩, msgs, none⟩) ∧
      ∀ data, Unforged cipher (sealings keys msgs) data → ∀ pos types,
        let received := receiveAll cipher data ⟨pos, keys⟩ types
        received.messages <+: msgs ∧
          received.messages.map List.head? = (types.take received.messages.length).map some ∧
          (received.stop = none → received.messages.length = types.length) := by
  refine ⟨sendAll_received lawful small room, ?_⟩
  intro data unforged pos types
  have genuine := receiveAll_genuine room unforged (Nat.zero_le _) pos types
  rw [advance_zero, List.drop_zero] at genuine
  exact genuine

/-! ## A cipher known at some records -/

structure Known where
  nonce : Nonce
  header : Header
  inner : List UInt8
  ct : List UInt8
  tag : Tag
  same_length : ct.length = inner.length
  tagged : tag ≠ Vector.replicate 16 0

def Known.encrypt (header : Header) (inner : List UInt8) : Option Known → List UInt8 × Tag
  | some k =>
    if k.header = header ∧ k.inner = inner then (k.ct, k.tag)
    else (inner, Vector.replicate 16 0)
  | none => (inner, Vector.replicate 16 0)

def Known.decrypt (header : Header) (ct : List UInt8) (tag : Tag) :
    Option Known → Option (List UInt8)
  | some k =>
    if (k.header = header ∧ k.ct = ct) ∧ k.tag = tag then some k.inner
    else if tag = Vector.replicate 16 0 ∧ ¬ (k.header = header ∧ k.inner = ct) then some ct
    else none
  | none => if tag = Vector.replicate 16 0 then some ct else none

/-- The records given, and elsewhere the message itself under a tag of zeros. -/
def knownCipher (records : List Known) : Aes128Gcm where
  encrypt nonce header inner :=
    some (Known.encrypt header inner (records.find? fun k => k.nonce == nonce))
  decrypt nonce header ct tag :=
    Known.decrypt header ct tag (records.find? fun k => k.nonce == nonce)

theorem Known.opens (known : Option Known) (header : Header) (inner ct : List UInt8) (tag : Tag) :
    Known.decrypt header ct tag known = some inner ↔
      Known.encrypt header inner known = (ct, tag) := by
  cases known with
  | none =>
    simp only [Known.decrypt, Known.encrypt, Option.ite_none_right_eq_some, Option.some.injEq,
      Prod.mk.injEq]
    constructor
    · rintro ⟨zeros, same⟩
      exact ⟨same.symm, zeros.symm⟩
    · rintro ⟨same, zeros⟩
      exact ⟨zeros.symm, same.symm⟩
  | some k =>
    have tagged := k.tagged
    by_cases listed : k.header = header ∧ k.inner = inner
    · rw [Known.encrypt, if_pos listed, Known.decrypt, Prod.mk.injEq]
      constructor
      · intro opened
        split at opened
        · rename_i found
          exact ⟨found.1.2, found.2⟩
        · split at opened
          · rename_i elsewhere
            cases opened
            exact absurd listed elsewhere.2
          · cases opened
      · rintro ⟨same, tag_eq⟩
        rw [if_pos ⟨⟨listed.1, same⟩, tag_eq⟩, listed.2]
    · rw [Known.encrypt, if_neg listed, Known.decrypt, Prod.mk.injEq]
      constructor
      · intro opened
        split at opened
        · rename_i found
          exact absurd ⟨found.1.1, Option.some.inj opened⟩ listed
        · split at opened
          · rename_i elsewhere
            exact ⟨(Option.some.inj opened).symm, elsewhere.1.symm⟩
          · cases opened
      · rintro ⟨rfl, rfl⟩
        rw [if_neg (fun found => tagged found.2), if_pos ⟨rfl, listed⟩]

theorem knownCipher_lawful (records : List Known) : Lawful (knownCipher records) where
  opens nonce header inner ct tag := by
    simp only [knownCipher, Option.some.injEq]
    exact Known.opens _ header inner ct tag
  encrypts nonce header inner _ := by
    refine ⟨_, _, rfl, ?_⟩
    cases records.find? fun k => k.nonce == nonce with
    | none => rfl
    | some k =>
      simp only
      split
      · rename_i listed
        rw [k.same_length, listed.2]
      · rfl

theorem readRecord_within {data : List UInt8} {pos cursor : Nat} {record : Record}
    (read : readRecord data pos = (cursor, .ok record)) : record.2 <:+: data := by
  unfold readRecord at read
  split at read
  · cases read
  · split at read
    · cases read
    · split at read
      · cases read
      · split at read
        · cases read
        · split at read
          · cases read
          · rename_i payload sliced
            cases read
            rw [(slice_ok sliced).2.2]
            exact (List.take_prefix _ _).isInfix.trans (List.drop_suffix _ _).isInfix

/-- Bytes without a run of sixteen zeros open under the known cipher only where one of
its records does. -/
theorem known_unforged {records : List Known} {sent : List (Nonce × Header × List UInt8)}
    {data : List UInt8} (listed : ∀ k ∈ records, (k.nonce, k.header, k.inner) ∈ sent)
    (no_zeros : ¬ List.replicate 16 0 <:+: data) : Unforged (knownCipher records) sent data := by
  intro pos cursor payload framed nonce ct tag inner whole decrypted
  have tagged : tag ≠ Vector.replicate 16 0 := by
    intro zeros
    have last : List.replicate 16 0 <:+ payload := by
      rw [whole, zeros]
      exact List.suffix_append ct _
    exact no_zeros (last.isInfix.trans (readRecord_within framed))
  cases found : records.find? (fun k => k.nonce == nonce) with
  | none =>
    simp only [knownCipher, found, Known.decrypt, if_neg tagged] at decrypted
    cases decrypted
  | some k =>
    simp only [knownCipher, found, Known.decrypt] at decrypted
    split at decrypted
    · rename_i same
      cases decrypted
      have nonce_eq : k.nonce = nonce := by simpa using List.find?_some found
      rw [← nonce_eq, ← same.1.1]
      exact listed k (List.mem_of_find?_eq_some found)
    · rw [if_neg fun elsewhere => tagged elsewhere.1] at decrypted
      cases decrypted

/-- EncryptedExtensions without extensions, as a handshake message. -/
def emptyExtensions : List UInt8 := writeHandshake [] 0x08 [0x00, 0x00]

/-- A Certificate without a context and without entries. -/
def emptyCertificate : List UInt8 := writeHandshake [] 0x0b [0x00, 0x00, 0x00, 0x00]

/-- AES-128-GCM under the all-zero key and IV, on the first message. -/
def firstRecord : Known where
  nonce := Vector.replicate 12 0
  header := #v[23, 3, 3, 0, 23]
  inner := [8, 0, 0, 2, 0, 0, 22]
  ct := [11, 136, 218, 204, 96, 182, 181]
  tag := #v[238, 24, 209, 120, 113, 166, 40, 45, 13, 135, 237, 209, 156, 74, 149, 33]
  same_length := rfl
  tagged := by decide

/-- The same on the second message, with the next nonce. -/
def secondRecord : Known where
  nonce := #v[0, 0, 0, 0, 0, 0, 0, 0, 0, 0, 0, 1]
  header := #v[23, 3, 3, 0, 25]
  inner := [11, 0, 0, 4, 0, 0, 0, 0, 22]
  ct := [101, 1, 217, 52, 7, 136, 114, 189, 77]
  tag := #v[110, 136, 113, 12, 106, 153, 132, 151, 255, 5, 95, 31, 94, 53, 167, 119]
  same_length := rfl
  tagged := by decide

def zeroKeys : TrafficKeys := ⟨Vector.replicate 12 0, 0⟩

def Known.bytes (k : Known) : List UInt8 := k.header.toList ++ k.ct ++ k.tag.toList

theorem records_unforged {data : List UInt8} (no_zeros : ¬ List.replicate 16 0 <:+: data) :
    Unforged (knownCipher [firstRecord, secondRecord])
      (sealings zeroKeys [emptyExtensions, emptyCertificate]) data :=
  known_unforged (by decide) no_zeros

/-- The stream holds two genuine records, which are read in their order; where they have changed
places the second message is not accepted for the first. -/
theorem encrypted_handshake_in_order_two :
    let receive (data : List UInt8) (types : List UInt8) :=
      (receiveAll (knownCipher [firstRecord, secondRecord]) data ⟨0, zeroKeys⟩ types).messages
    (∀ types, receive (firstRecord.bytes ++ secondRecord.bytes) types <+:
        [emptyExtensions, emptyCertificate]) ∧
      (∀ types, receive (secondRecord.bytes ++ firstRecord.bytes) types <+:
        [emptyExtensions, emptyCertificate]) ∧
      receive (firstRecord.bytes ++ secondRecord.bytes) [0x08, 0x0b] =
        [emptyExtensions, emptyCertificate] ∧
      receive (secondRecord.bytes ++ firstRecord.bytes) [0x0b, 0x08] = [] := by
  intro receive
  have genuine := (encrypted_handshake_in_order
    (knownCipher_lawful [firstRecord, secondRecord]) zeroKeys [emptyExtensions, emptyCertificate]
    (by decide) (by decide)).2
  have inOrder := genuine (firstRecord.bytes ++ secondRecord.bytes) (records_unforged (by decide)) 0
  have swapped := genuine (secondRecord.bytes ++ firstRecord.bytes) (records_unforged (by decide)) 0
  exact ⟨fun types => (inOrder types).1, fun types => (swapped types).1, by decide +kernel,
    by decide +kernel⟩

end TlsChannel
