import AnimaOS.TlsHandshake

/-!
# Agreement of the handshake

For every draw the loopback handshake succeeds and leaves both sides with one
transcript and one set of secrets; and a client that accepts, whatever bytes it was
given, has read the server's own messages.
-/

namespace TlsAgreement

open ByteReader TlsRecords TlsTraffic TlsChannel TlsHandshake

/-! ## What the server sends -/

section Server

variable {suite : Suite}

/-- What the client checks of a flight. -/
structure Proven (suite : Suite) (sHsTs : Secret) (hellos : List UInt8) (flight : Flight) :
    Prop where
  named : flight.messages.map List.head? = [0x08, 0x0b, 0x0f, 0x14].map some
  small : ∀ msg ∈ flight.messages, msg.length + 17 < 65536
  verified : verifyCertificate suite (suite.sha256 (hellos ++ flight.eeMsg ++ flight.certMsg))
    flight.cvMsg = .ok ()
  finished : ∃ mac, computeFinishedMac suite sHsTs
      (suite.sha256 (hellos ++ flight.eeMsg ++ flight.certMsg ++ flight.cvMsg)) = .ok mac ∧
    flight.sfinMsg = writeHandshake [] 0x14 mac.toList

theorem cvMsg_parts (sigBytes : List UInt8) :
    writeHandshake [] 0x0f (certificateVerifyBody sigBytes) =
      (0x0f :: be24 (certificateVerifyBody sigBytes).length) ++
        (be16 0x0403 ++ (be16 sigBytes.length ++ sigBytes)) := by
  rw [writeHandshake_nil]
  rfl

theorem cvMsg_length (sigBytes : List UInt8) :
    (writeHandshake [] 0x0f (certificateVerifyBody sigBytes)).length = 8 + sigBytes.length := by
  simp [certificateVerifyBody, be24]
  omega

variable (lawful : suite.Lawful) {signingKey : suite.SigningKey}
  (loaded : suite.fromPkcs8Der suite.KEY_DER = some signingKey)
include lawful loaded

/-- The signature over a transcript is the one the client verifies over it. -/
theorem certificate_verified (transcriptHash : Vector UInt8 32) :
    verifyCertificate suite transcriptHash (writeHandshake [] 0x0f (certificateVerifyBody
      (suite.asBytes (suite.sign signingKey (certificateVerifyInput transcriptHash))))) =
      .ok () := by
  have signed := lawful.verifies signingKey (certificateVerifyInput transcriptHash)
  generalize suite.sign signingKey (certificateVerifyInput transcriptHash) = sig at signed ⊢
  have short := lawful.short sig
  have parts := cvMsg_parts (suite.asBytes sig)
  have length := cvMsg_length (suite.asBytes sig)
  generalize writeHandshake [] 0x0f (certificateVerifyBody (suite.asBytes sig)) = cvMsg at *
  have alg : checked (u16At cvMsg 4) = .ok 0x0403 :=
    congrArg checked (u16At_at (by decide) parts rfl)
  have behind : cvMsg = ((0x0f :: be24 (certificateVerifyBody (suite.asBytes sig)).length) ++
      be16 0x0403) ++ (be16 (suite.asBytes sig).length ++ suite.asBytes sig) := by
    rw [parts, List.append_assoc]
  have len : checked (u16At cvMsg 6) = .ok (suite.asBytes sig).length :=
    congrArg checked (u16At_at (by omega) behind rfl)
  have last : cvMsg = (((0x0f :: be24 (certificateVerifyBody (suite.asBytes sig)).length) ++
      be16 0x0403) ++ be16 (suite.asBytes sig).length) ++ (suite.asBytes sig ++ []) := by
    rw [behind, List.append_nil, List.append_assoc _ (be16 _) (suite.asBytes sig)]
  have bytes : checked (slice cvMsg 8 (8 + (suite.asBytes sig).length)) =
      .ok (suite.asBytes sig) :=
    congrArg checked (slice_at last rfl rfl)
  rw [verifyCertificate, check_run (by omega), run_ok alg, check_run rfl, run_ok len,
    check_run (by omega), run_ok bytes]
  simp only [loaded, lawful.reads]
  exact if_pos signed

theorem serverFlight_ok (small : suite.CERT_DER.length < 65506) (sHsTs : Secret)
    (hellos : List UInt8) :
    ∃ flight, serverFlight suite sHsTs hellos = .ok flight ∧ Proven suite sHsTs hellos flight := by
  let eeMsg := writeHandshake [] 0x08 [0x00, 0x00]
  let certMsg := writeHandshake [] 0x0b (certificateBody suite)
  let sig := suite.sign signingKey
    (certificateVerifyInput (suite.sha256 (hellos ++ eeMsg ++ certMsg)))
  let cvMsg := writeHandshake [] 0x0f (certificateVerifyBody (suite.asBytes sig))
  obtain ⟨mac, maced⟩ := computeFinishedMac_ok lawful sHsTs
    (suite.sha256 (hellos ++ eeMsg ++ certMsg ++ cvMsg))
  refine ⟨⟨eeMsg, certMsg, cvMsg, writeHandshake [] 0x14 mac.toList⟩, ?_, ?_⟩
  · simp only [serverFlight, loaded]
    exact run_ok maced
  · have short := lawful.short sig
    have certLength : certMsg.length = suite.CERT_DER.length + 13 := by
      simp [certMsg, certificateBody, be24]
    have cvLength : cvMsg.length = 8 + (suite.asBytes sig).length := cvMsg_length _
    constructor
    case named =>
      simp [Flight.messages, eeMsg, certMsg, cvMsg]
    case small =>
      intro msg listed
      simp only [Flight.messages, List.mem_cons, List.not_mem_nil, or_false] at listed
      rcases listed with rfl | rfl | rfl | rfl
      · decide
      · omega
      · omega
      · simp [be24]
    case verified => exact certificate_verified lawful loaded _
    case finished => exact ⟨mac, maced, rfl⟩

end Server

/-! ## The two sides together -/

section Together

variable {suite : Suite}

theorem receiveAll_cons {cipher : Aes128Gcm} {data msg : List UInt8} {r after : Reader}
    {expectedType : UInt8} {types : List UInt8} {msgs : List (List UInt8)}
    (received : receiveAll cipher data r (expectedType :: types) = ⟨after, msg :: msgs, none⟩) :
    ∃ r', readDecryptHandshake cipher data r expectedType = (r', .ok msg) ∧
      receiveAll cipher data r' types = ⟨after, msgs, none⟩ := by
  rw [receiveAll] at received
  split at received
  · cases received
  · rename_i r' read_msg read
    simp only [Received.mk.injEq, List.cons.injEq] at received
    obtain ⟨reader, ⟨rfl, later⟩, finished⟩ := received
    refine ⟨r', read, ?_⟩
    cases rest : receiveAll cipher data r' types with
    | mk reader' messages stop =>
      rw [rest] at reader later finished
      simp only at reader later finished
      rw [reader, later, finished]

theorem fresh : (0 : UInt64) ≠ u64Max := by
  decide

/-- What the server holds and has sent after its Finished. -/
structure Answers (suite : Suite) (d : Draws suite) (chMsg : List UInt8)
    (server : Answered suite) : Prop where
  pos : server.c2sPos = (writeRecord [] CT_HANDSHAKE chMsg).length
  hello : server.shMsg = serverHello suite d.serverRandom (suite.publicKey d.serverSecret)
  derived : handshakeSecrets suite
      (suite.diffieHellman d.serverSecret (suite.publicKey d.clientSecret))
      (suite.sha256 (chMsg ++ server.shMsg)) = .ok server.secrets
  keyed : fromSecret suite server.secrets.cHsTs = .ok server.clientHsKeys
  proven : Proven suite server.secrets.sHsTs (chMsg ++ server.shMsg) server.flight
  sent : ∃ key iv behind after,
    fromSecret suite server.secrets.sHsTs = .ok (suite.aes128Gcm key, ⟨iv, 0⟩) ∧
      server.s2c = writeRecord [] CT_HANDSHAKE server.shMsg ++ behind ∧
      receiveAll (suite.aes128Gcm key) server.s2c
          ⟨(writeRecord [] CT_HANDSHAKE server.shMsg).length, ⟨iv, 0⟩⟩ [0x08, 0x0b, 0x0f, 0x14] =
        ⟨after, server.flight.messages, none⟩

variable (lawful : suite.Lawful)
include lawful

theorem serverAnswers_ok {signingKey : suite.SigningKey}
    (loaded : suite.fromPkcs8Der suite.KEY_DER = some signingKey)
    (small : suite.CERT_DER.length < 65506) (d : Draws suite) {chMsg : List UInt8}
    (hello : chMsg = clientHello suite d.clientRandom (suite.publicKey d.clientSecret)) :
    ∃ server, serverAnswers suite d chMsg (writeRecord [] CT_HANDSHAKE chMsg) = .ok server ∧
      Answers suite d chMsg server := by
  have read := readHello_record
    (clientHello_length d.clientRandom (suite.publicKey d.clientSecret)) 0x01 []
    "server: expected ClientHello handshake message type"
    "server: ClientHello handshake msg too short"
  rw [List.append_nil, ← clientHello, ← hello] at read
  have key_read := client_key_read lawful d.clientRandom (suite.publicKey d.clientSecret)
  let shMsg := serverHello suite d.serverRandom (suite.publicKey d.serverSecret)
  obtain ⟨secrets, derived⟩ := handshakeSecrets_ok lawful
    (suite.diffieHellman d.serverSecret (suite.publicKey d.clientSecret))
    (suite.sha256 (chMsg ++ shMsg))
  obtain ⟨key, iv, serverKeyed⟩ := fromSecret_ok lawful secrets.sHsTs
  obtain ⟨clientKey, clientIv, clientKeyed⟩ := fromSecret_ok lawful secrets.cHsTs
  obtain ⟨flight, built, proven⟩ := serverFlight_ok lawful loaded small secrets.sHsTs
    (chMsg ++ shMsg)
  have room : (TrafficKeys.mk iv 0).seq.toNat + flight.messages.length < 2 ^ 64 := by
    simp [Flight.messages]
  obtain ⟨payloads, -, all_sent, all_read⟩ := sendAll_received (lawful.seals key) proven.small
    room (writeRecord [] CT_HANDSHAKE shMsg)
  obtain ⟨behind, written⟩ := writeAll_behind (writeRecord [] CT_HANDSHAKE shMsg)
    (payloads.map (Prod.mk CT_APP_DATA))
  have received := all_read [] [0x08, 0x0b, 0x0f, 0x14] proven.named
  rw [List.append_nil] at received
  refine ⟨⟨(writeRecord [] CT_HANDSHAKE chMsg).length, shMsg, secrets,
    (suite.aes128Gcm clientKey, ⟨clientIv, 0⟩), flight,
    writeAll (writeRecord [] CT_HANDSHAKE shMsg) (payloads.map (Prod.mk CT_APP_DATA))⟩, ?_, ?_⟩
  · rw [serverAnswers, run_ok read]
    dsimp only
    rw [run_ok key_read, run_ok derived, run_ok serverKeyed, run_ok clientKeyed, run_ok built,
      run_ok (settled_ok all_sent)]
    rfl
  · constructor
    case pos => rfl
    case hello => rfl
    case derived => exact derived
    case keyed => exact clientKeyed
    case proven => exact proven
    case sent => exact ⟨key, iv, behind, _, serverKeyed, written, received⟩

theorem clientFollows_ok {d : Draws suite} {chMsg : List UInt8} {server : Answered suite}
    (answers : Answers suite d chMsg server) :
    ∃ client, clientFollows suite d.clientSecret chMsg server.shMsg server.s2c = .ok client ∧
      client.secrets = server.secrets ∧ client.clientSendKeys = server.clientHsKeys ∧
      client.transcript = server.transcript chMsg := by
  obtain ⟨key, iv, behind, after, keyed, written, received⟩ := answers.sent
  have read := readHello_record
    (serverHello_length d.serverRandom (suite.publicKey d.serverSecret)) 0x02 behind
    "client: expected ServerHello" "client: ServerHello handshake msg too short"
  rw [← serverHello, ← answers.hello, ← written] at read
  have key_read := server_key_read lawful d.serverRandom (suite.publicKey d.serverSecret)
  have derived := answers.derived
  rw [← lawful.agrees] at derived
  obtain ⟨r₁, ee, received⟩ := receiveAll_cons received
  obtain ⟨r₂, cert, received⟩ := receiveAll_cons received
  obtain ⟨r₃, cv, received⟩ := receiveAll_cons received
  obtain ⟨r₄, sfin, _⟩ := receiveAll_cons received
  obtain ⟨mac, maced, finished⟩ := answers.proven.finished
  have long : 4 ≤ server.flight.sfinMsg.length := by
    simp [finished, be24]
  have same : server.flight.sfinMsg.drop 4 = mac.toList := by
    rw [finished, writeHandshake_nil]
    rfl
  refine ⟨⟨server.secrets, server.clientHsKeys, chMsg ++ server.shMsg ++ server.flight.eeMsg ++
    server.flight.certMsg ++ server.flight.cvMsg ++ server.flight.sfinMsg⟩, ?_, rfl, rfl, ?_⟩
  · rw [clientFollows, run_ok read]
    dsimp only
    rw [run_ok key_read, run_ok derived, run_ok keyed, run_ok answers.keyed, run_ok (settled_ok ee)]
    dsimp only
    rw [run_ok (settled_ok cert)]
    dsimp only
    rw [run_ok (settled_ok cv)]
    dsimp only
    rw [run_ok answers.proven.verified, run_ok (settled_ok sfin)]
    dsimp only
    rw [check_run long, run_ok maced, check_run same]
    rfl
  · simp [Answered.transcript, Flight.messages]

/-- The client's Finished, behind the ClientHello, is the one the server expects. -/
theorem finished_accepted {chMsg : List UInt8} {server : Answered suite} {client : Followed suite}
    (pos : server.c2sPos = (writeRecord [] CT_HANDSHAKE chMsg).length)
    (keyed : fromSecret suite server.secrets.cHsTs = .ok server.clientHsKeys)
    (secrets : client.secrets = server.secrets)
    (keys : client.clientSendKeys = server.clientHsKeys)
    (transcript : client.transcript = server.transcript chMsg) :
    ∃ c2s, clientFinishes suite client (writeRecord [] CT_HANDSHAKE chMsg) = .ok c2s ∧
      serverChecksFinished suite server chMsg c2s = .ok c2s.length := by
  obtain ⟨key, iv, made⟩ := fromSecret_ok lawful server.secrets.cHsTs
  have same := Except.ok.inj (keyed.symm.trans made)
  obtain ⟨mac, maced⟩ := computeFinishedMac_ok lawful server.secrets.cHsTs
    (suite.sha256 (server.transcript chMsg))
  have length : (writeHandshake [] 0x14 mac.toList).length = 36 := by
    simp [be24]
  have named : (writeHandshake [] 0x14 mac.toList).head? = some 0x14 := by
    rw [writeHandshake_nil]
    rfl
  have content : (writeHandshake [] 0x14 mac.toList).drop 4 = mac.toList := by
    rw [writeHandshake_nil]
    rfl
  obtain ⟨payload, -, sent, opened⟩ := @sendInner_opened _ (lawful.seals key)
    (writeRecord [] CT_HANDSHAKE chMsg) ⟨iv, 0⟩ CT_HANDSHAKE (writeHandshake [] 0x14 mac.toList)
    (by omega) fresh
  have read := opened [] "server: expected encrypted client Finished (CT_APP_DATA outer type)"
  rw [List.append_nil] at read
  refine ⟨writeRecord (writeRecord [] CT_HANDSHAKE chMsg) CT_APP_DATA payload, ?_, ?_⟩
  · rw [clientFinishes, secrets, transcript, run_ok maced, keys, same]
    exact run_ok (settled_ok sent)
  · rw [serverChecksFinished, same, pos, run_ok (settled_ok read)]
    dsimp only
    rw [run_ok (popped_message _ _ CT_HANDSHAKE _), check_run ⟨by omega, named⟩, run_ok maced,
      check_run content]
    rfl

/-- Both sides derive the same keys for the client's data, and the PING arrives. -/
theorem ping_accepted (hs : suite.Hkdf) (transcriptHash : Vector UInt8 32) (c2s : List UInt8) :
    ∃ keys after c2s', applicationKeys suite hs transcriptHash = .ok keys ∧
      sendInner keys.1 c2s keys.2 CT_APP_DATA ping = (after, .ok c2s') ∧
      serverReadsPing keys c2s' c2s.length = .ok () := by
  obtain ⟨key, iv, keyed⟩ := applicationKeys_ok lawful hs transcriptHash
  obtain ⟨payload, -, sent, opened⟩ := @sendInner_opened _ (lawful.seals key) c2s ⟨iv, 0⟩
    CT_APP_DATA ping (by decide) fresh
  have read := opened [] "server: expected encrypted PING record (CT_APP_DATA outer type)"
  rw [List.append_nil] at read
  refine ⟨_, _, _, keyed, sent, ?_⟩
  rw [serverReadsPing, run_ok (settled_ok read)]
  dsimp only
  rw [run_ok (popped_message _ _ CT_APP_DATA _)]
  exact if_pos rfl

theorem loopback_ok {signingKey : suite.SigningKey}
    (loaded : suite.fromPkcs8Der suite.KEY_DER = some signingKey)
    (small : suite.CERT_DER.length < 65506) (d : Draws suite) :
    ∃ session, loopback suite d = .ok session ∧
      session.client.secrets = session.server.secrets ∧
      session.client.transcript = session.server.transcript session.chMsg ∧
      session.clientAppSend = session.serverAppRecv := by
  let chMsg := clientHello suite d.clientRandom (suite.publicKey d.clientSecret)
  obtain ⟨server, answered, answers⟩ := serverAnswers_ok lawful loaded small d (rfl : chMsg = _)
  obtain ⟨client, followed, secrets, keys, transcript⟩ := clientFollows_ok lawful answers
  obtain ⟨c2s, finished, accepted⟩ := finished_accepted lawful answers.pos answers.keyed secrets
    keys transcript
  obtain ⟨appKeys, after, c2s', keyed, sent, arrived⟩ := ping_accepted lawful server.secrets.hs
    (suite.sha256 (server.transcript chMsg)) c2s
  refine ⟨⟨chMsg, server, client, appKeys, appKeys⟩, ?_, secrets, transcript, rfl⟩
  rw [loopback]
  dsimp only
  rw [run_ok answered, run_ok followed, run_ok finished, run_ok accepted, secrets, transcript,
    run_ok keyed, run_ok keyed, run_ok (settled_ok sent)]
  dsimp only
  rw [run_ok arrived]
  rfl

/-- For every draw the handshake and the PING behind it succeed, and the two sides hold
the same secrets, the same transcript and the same keys. -/
theorem loopback_completes {signingKey : suite.SigningKey}
    (loaded : suite.fromPkcs8Der suite.KEY_DER = some signingKey)
    (small : suite.CERT_DER.length < 65506) (d : Draws suite) :
    runTlsLoopbackTest suite true d = .ok () ∧ ∃ session, loopback suite d = .ok session ∧
      session.client.secrets = session.server.secrets ∧
      session.client.transcript = session.server.transcript session.chMsg ∧
      session.clientAppSend = session.serverAppRecv := by
  obtain ⟨session, ran, agreed⟩ := loopback_ok lawful loaded small d
  refine ⟨?_, session, ran, agreed⟩
  simp only [runTlsLoopbackTest, not_true_eq_false, if_false, ran]

/-- What a client that accepts has read. -/
structure FollowedFlight (suite : Suite) (secrets : Secrets suite) (hellos : List UInt8)
    (msgs : List (List UInt8)) (client : Followed suite) (flight : Flight) : Prop where
  agreed : client.secrets = secrets
  genuine : flight.messages <+: msgs
  named : flight.messages.map List.head? = [0x08, 0x0b, 0x0f, 0x14].map some
  verified : verifyCertificate suite (suite.sha256 (hellos ++ flight.eeMsg ++ flight.certMsg))
    flight.cvMsg = .ok ()
  finished : ∃ mac, computeFinishedMac suite secrets.sHsTs
      (suite.sha256 (hellos ++ flight.eeMsg ++ flight.certMsg ++ flight.cvMsg)) = .ok mac ∧
    flight.sfinMsg.drop 4 = mac.toList
  transcript : client.transcript = hellos ++ flight.messages.flatten

/-- Behind the server's hello, whatever bytes stand there: where nothing is forged, a
client that accepts has the server's secrets and has read the first four messages the
server sealed, in their order, with the signature and the MAC over that transcript. -/
theorem client_follows_server (clientSecret serverSecret : suite.EphemeralSecret)
    (serverRandom : Vector UInt8 32) {chMsg shMsg tail : List UInt8} {secrets : Secrets suite}
    {cipher : Aes128Gcm} {keys : TrafficKeys} {msgs : List (List UInt8)} {client : Followed suite}
    (hello : shMsg = serverHello suite serverRandom (suite.publicKey serverSecret))
    (derived : handshakeSecrets suite
      (suite.diffieHellman serverSecret (suite.publicKey clientSecret))
      (suite.sha256 (chMsg ++ shMsg)) = .ok secrets)
    (keyed : fromSecret suite secrets.sHsTs = .ok (cipher, keys))
    (room : msgs.length < 2 ^ 64)
    (unforged : Unforged cipher (sealings keys msgs) (writeRecord [] CT_HANDSHAKE shMsg ++ tail))
    (accepted : clientFollows suite clientSecret chMsg shMsg
      (writeRecord [] CT_HANDSHAKE shMsg ++ tail) = .ok client) :
    ∃ flight, FollowedFlight suite secrets (chMsg ++ shMsg) msgs client flight := by
  have read := readHello_record
    (serverHello_length serverRandom (suite.publicKey serverSecret)) 0x02 tail
    "client: expected ServerHello" "client: ServerHello handshake msg too short"
  rw [← serverHello, ← hello] at read
  have key_read := server_key_read lawful serverRandom (suite.publicKey serverSecret)
  rw [← lawful.agrees] at derived
  obtain ⟨key, iv, made⟩ := fromSecret_ok lawful secrets.sHsTs
  have same := Except.ok.inj (keyed.symm.trans made)
  have zero : keys.seq.toNat = 0 := by
    rw [(Prod.mk.inj same).2]
    rfl
  have counted : keys.seq.toNat + msgs.length < 2 ^ 64 := by omega
  rw [clientFollows, run_ok read] at accepted
  dsimp only at accepted
  rw [run_ok key_read, run_ok derived, run_ok keyed] at accepted
  obtain ⟨clientSendKeys, -, accepted⟩ := run_ok_iff.mp accepted
  obtain ⟨⟨first, ee⟩, ee_read, accepted⟩ := run_ok_iff.mp accepted
  obtain ⟨⟨second, cert⟩, cert_read, accepted⟩ := run_ok_iff.mp accepted
  obtain ⟨⟨third, cv⟩, cv_read, accepted⟩ := run_ok_iff.mp accepted
  obtain ⟨_, verified, accepted⟩ := run_ok_iff.mp accepted
  obtain ⟨⟨fourth, sfin⟩, sfin_read, accepted⟩ := run_ok_iff.mp accepted
  obtain ⟨_, -, accepted⟩ := run_ok_iff.mp accepted
  obtain ⟨mac, maced, accepted⟩ := run_ok_iff.mp accepted
  obtain ⟨_, matched, accepted⟩ := run_ok_iff.mp accepted
  cases accepted
  -- each read stands at the counter of the message before it plus one
  have start := settled_ok_iff.mp ee_read
  dsimp only at start cert_read cv_read sfin_read
  rw [← advance_zero keys] at start
  obtain ⟨ee_sent, ee_named, ee_keys⟩ := genuine_read counted unforged (Nat.zero_le _) start
  obtain ⟨one, ee_at⟩ := List.getElem?_eq_some_iff.mp ee_sent
  rw [show first = ⟨first.pos, advance keys 1⟩ by rw [← ee_keys]] at cert_read
  obtain ⟨cert_sent, cert_named, cert_keys⟩ :=
    genuine_read counted unforged one (settled_ok_iff.mp cert_read)
  obtain ⟨two, cert_at⟩ := List.getElem?_eq_some_iff.mp cert_sent
  rw [show second = ⟨second.pos, advance keys 2⟩ by rw [← cert_keys]] at cv_read
  obtain ⟨cv_sent, cv_named, cv_keys⟩ :=
    genuine_read counted unforged two (settled_ok_iff.mp cv_read)
  obtain ⟨three, cv_at⟩ := List.getElem?_eq_some_iff.mp cv_sent
  rw [show third = ⟨third.pos, advance keys 3⟩ by rw [← cv_keys]] at sfin_read
  obtain ⟨sfin_sent, sfin_named, -⟩ :=
    genuine_read counted unforged three (settled_ok_iff.mp sfin_read)
  obtain ⟨four, sfin_at⟩ := List.getElem?_eq_some_iff.mp sfin_sent
  refine ⟨⟨ee, cert, cv, sfin⟩, ?_⟩
  constructor
  case agreed => rfl
  case genuine =>
    refine ⟨msgs.drop 4, ?_⟩
    have whole := List.drop_zero (l := msgs)
    rw [List.drop_eq_getElem_cons one, List.drop_eq_getElem_cons two,
      List.drop_eq_getElem_cons three, List.drop_eq_getElem_cons four, ee_at, cert_at, cv_at,
      sfin_at] at whole
    exact whole
  case named =>
    simp [Flight.messages, ee_named, cert_named, cv_named, sfin_named]
  case verified => exact verified
  case finished => exact ⟨mac, maced, of_not_not fun differs => by
    rw [check, if_neg differs] at matched
    cases matched⟩
  case transcript => simp [Flight.messages]

end Together

/-! ## A run with known values

SHA-256, HMAC, AES-128-GCM, P-256 and ECDSA at what one run hands them: the secret
scalars are 2 and 3, the randoms are constant, and an empty DER sequence stands for the
certificate, which neither side parses.
-/

section KnownRun

theorem bytes_size (n v : Nat) : (toBeBytes n v).toArray.size = n := by
  simp

/-- `n` bytes written as one number. -/
def bytes (n v : Nat) : Vector UInt8 n := ⟨(toBeBytes n v).toArray, bytes_size n v⟩

inductive Scalar where
  | two
  | three
  deriving DecidableEq

theorem uncompressed_size (x y : Nat) :
    ([0x04] ++ toBeBytes 32 x ++ toBeBytes 32 y).toArray.size = 65 := by
  simp

/-- The uncompressed encoding of a point. -/
def uncompressed (x y : Nat) : Vector UInt8 65 :=
  ⟨([0x04] ++ toBeBytes 32 x ++ toBeBytes 32 y).toArray, uncompressed_size x y⟩

/-- The points `2G` and `3G`. -/
def knownPoint : Scalar → Vector UInt8 65
  | .two => uncompressed
    0x7cf27b188d034f7e8a52380304b51ac3c08969e277f21b35a60b48fc47669978
    0x07775510db8ed040293d9ac69f7430dbba7dade63ce982299e04b79d227873d1
  | .three => uncompressed
    0x5ecbe4d1a6330a44c8f7ef951d4bf165e6c6b721efada985fb41661bc6e7fd6c
    0x8734640c4998ff7e374b06ce1a64a2ecd82ab036384fb83d9a79b127a27d5032

/-- The first coordinates of `4G`, `6G` and `9G`. -/
def knownShared : Scalar → Scalar → Vector UInt8 32
  | .two, .two => bytes 32 0xe2534a3532d08fbba02dde659ee62bd0031fe2db785596ef509302446b030852
  | .three, .three => bytes 32 0xea68d7b6fedf0b71878938d51d71f8729e0acb8c2c6df8b3d79e8a4b90949ee0
  | _, _ => bytes 32 0xb01a172a76a4602c92d3242cb897dde3024c740debb215b4c6b0aae93c2291a9

def knownClientHello : List UInt8 :=
  writeHandshake [] 0x01
    (TlsClientHello.buildClientHello (Vector.replicate 32 0x11).toList
      (knownPoint .two).toList)

def knownServerHello : List UInt8 :=
  writeHandshake [] 0x02
    (TlsServerHello.buildServerHello (Vector.replicate 32 0x22).toList
      (knownPoint .three).toList)

/-- `SEQUENCE {}`. -/
def knownCertificate : List UInt8 := [0x30, 0x00]

/-- PKCS #8 of a P-256 key, without its public half. -/
def knownKey : List UInt8 :=
  toBeBytes 35 0x3041020100301306072a8648ce3d020106082a8648ce3d030107042730250201010420 ++
    toBeBytes 32 0xc9afa9d845ba75166b5c215767b1d6934e50c3db36e89b127b8a622b120f6721

def knownSignature : List UInt8 :=
  toBeBytes 32 0x3045022100d114a0f8832e44f93b77c28adcaed341ba91a82ef1a6f0388790c0 ++
    toBeBytes 32 0x74e14582b20220017a183c8857503e9ab0299245e76e9aa7724637a704fbb1f5 ++
    toBeBytes 7 0x865247dde61acc

def knownExtensions : List UInt8 := writeHandshake [] 0x08 [0x00, 0x00]

def knownCertificateMessage : List UInt8 :=
  writeHandshake [] 0x0b ([0x00] ++ be24 7 ++ be24 2 ++ knownCertificate ++ [0x00, 0x00])

def knownVerify : List UInt8 := writeHandshake [] 0x0f (certificateVerifyBody knownSignature)

/-- The MAC of the server's Finished. -/
def knownMac : Vector UInt8 32 :=
  bytes 32 0x5d7b8f3c616fb9ffb3f6b5274b54c32dbfb33ae1368a39e8c8a3a7663d8f78e8

def knownFinished : List UInt8 := writeHandshake [] 0x14 knownMac.toList

def knownHellos : List UInt8 := knownClientHello ++ knownServerHello

def knownCertified : List UInt8 := knownHellos ++ knownExtensions ++ knownCertificateMessage

/-- The hashes of the run's transcripts, which their lengths tell apart. -/
def knownSha256 (data : List UInt8) : Vector UInt8 32 :=
  match data.length with
  | 0 => bytes 32 0xe3b0c44298fc1c149afbf4c8996fb92427ae41e4649b934ca495991b7852b855
  | 268 => bytes 32 0x17e2930c7603a501da3f70cc7a5734276abc9025fe46b60e71f2b47cc76295df
  | 289 => bytes 32 0x93a04732616cecf5f9edba54e5b2764e3b7f3bc10f2f6d4bb31e70031cce0dd3
  | 368 => bytes 32 0xe89ce4bee52f8fcb57a8a31929852afec38afc156db72e8cedcbff9f05f5c8cb
  | 404 => bytes 32 0xe01188a94ca20612d546c740f8b5f2437167f064ef1bec38a754b3dc47f9b40d
  | _ => Vector.replicate 32 0

/-- A key, a message and their HMAC-SHA256. -/
structure KnownMac where
  key : List UInt8
  message : List UInt8
  mac : Vector UInt8 32

/-- The input of the first block of HKDF-Expand. -/
def firstBlock (label : String) (context : List UInt8) (n : Nat) : List UInt8 :=
  be16 n ++ [UInt8.ofNat (6 + (ascii label).length)] ++ (ascii "tls13 " ++ ascii label) ++
    [UInt8.ofNat context.length] ++ context ++ [0x01]

def knownEarly : Vector UInt8 32 :=
  bytes 32 0x33ad0a1c607ec03b09e6cd9893680ce210adf300aa1f2660e1b22e10f170f92a

def knownDerived : Vector UInt8 32 :=
  bytes 32 0x6f2615a108c702c5678f54fc9dbab69716c076189c48250cebeac3576c3611ba

def knownHs : Vector UInt8 32 :=
  bytes 32 0xb1d77afd8a7a6294ce68a195a22ab763f569be16edd503de628a90b1a7537b92

def knownCHsTs : Vector UInt8 32 :=
  bytes 32 0x685a27dc88d326c3e6b9192580ae2a01fdb6ab6738317fdc858212b231c94a91

def knownSHsTs : Vector UInt8 32 :=
  bytes 32 0xf5788bfd100c42b90023d8f1ea8492137e6ea5af2b20bff94d816cbbe1c8e181

def knownMsDerived : Vector UInt8 32 :=
  bytes 32 0x2f11b3256f8194486cd3305846a59e99296b703b10a9da702e14f771d8561f9a

def knownMaster : Vector UInt8 32 :=
  bytes 32 0x93ef9cff178917bfae2611ee1b0f7099ff42de4fb6c23ffe90323eb065cd72ca

def knownAppTs : Vector UInt8 32 :=
  bytes 32 0xc49598bdf9386f1bc1bc0343be5bcce6d43ce04c6ee36e89ec2f0f9ba898e393

def knownSFinishedKey : Vector UInt8 32 :=
  bytes 32 0x1062ccb8aaeedc954a67d76ba17a990cea4ceb51be93a4d3b2ad4ec0ad4283ff

def knownCFinishedKey : Vector UInt8 32 :=
  bytes 32 0xf34ee9f5176816d22af629e734082921643a40472115a87c307151b915e7eb71

def emptyHash : Vector UInt8 32 := knownSha256 []

def hellosHash : Vector UInt8 32 := knownSha256 knownHellos

def certifiedHash : Vector UInt8 32 := knownSha256 knownCertified

def verifiedHash : Vector UInt8 32 := knownSha256 (knownCertified ++ knownVerify)

def finishedHash : Vector UInt8 32 := knownSha256 (knownCertified ++ knownVerify ++ knownFinished)

def knownMacs : List KnownMac :=
  [⟨zero32, zero32,
      knownEarly⟩,
    ⟨knownEarly.toList, firstBlock "derived" emptyHash.toList 32,
      knownDerived⟩,
    ⟨knownDerived.toList, (knownShared .two .three).toList,
      knownHs⟩,
    ⟨knownHs.toList, firstBlock "c hs traffic" hellosHash.toList 32,
      knownCHsTs⟩,
    ⟨knownHs.toList, firstBlock "s hs traffic" hellosHash.toList 32,
      knownSHsTs⟩,
    ⟨knownSHsTs.toList, firstBlock "key" [] 16,
      bytes 32 0x5af0017b30bb7d40f94a1b581dde3973cb83562418bce33dc1f4552e124dd23a⟩,
    ⟨knownSHsTs.toList, firstBlock "iv" [] 12,
      bytes 32 0x56145963069f50e5cd3cc5228ec0752fb5ceb4f79cf6952c64f6c9be8f961c85⟩,
    ⟨knownCHsTs.toList, firstBlock "key" [] 16,
      bytes 32 0xb1cb174ba8290acb2dc46965f32a56eee28ba68299ec9c38c563597e346c4a63⟩,
    ⟨knownCHsTs.toList, firstBlock "iv" [] 12,
      bytes 32 0x9aec9006e1a3dcfdbb87f05f510b72cdb9a54da8a551f748eb032471e69de2cb⟩,
    ⟨knownAppTs.toList, firstBlock "key" [] 16,
      bytes 32 0x60fbc6a5e243af0d9acb426a2cf9308d6ff557b89a4c5dba294c0fc16a4cb716⟩,
    ⟨knownAppTs.toList, firstBlock "iv" [] 12,
      bytes 32 0x496e97afee28b4e89a35af3064003142deb32f3199aaccf683fba5c407deea92⟩,
    ⟨knownSHsTs.toList, firstBlock "finished" [] 32,
      knownSFinishedKey⟩,
    ⟨knownCHsTs.toList, firstBlock "finished" [] 32,
      knownCFinishedKey⟩,
    ⟨knownSFinishedKey.toList, verifiedHash.toList,
      knownMac⟩,
    ⟨knownCFinishedKey.toList, finishedHash.toList,
      bytes 32 0x1e3f3d097d7b6ff24bd2f0586f17d5cfea97495554cf21b8939d0ee7540e0770⟩,
    ⟨knownHs.toList, firstBlock "derived" emptyHash.toList 32,
      knownMsDerived⟩,
    ⟨knownMsDerived.toList, zero32,
      knownMaster⟩,
    ⟨knownMaster.toList, firstBlock "c ap traffic" finishedHash.toList 32,
      knownAppTs⟩]

def knownHmac (key message : List UInt8) : Vector UInt8 32 :=
  match knownMacs.find? fun entry => entry.key == key && entry.message == message with
  | some entry => entry.mac
  | none => Vector.replicate 32 0

theorem cut_size (n : Nat) (block : List UInt8) :
    ((block ++ List.replicate n 0).take n).toArray.size = n := by
  simp

def cut (n : Nat) (block : List UInt8) : Vector UInt8 n :=
  ⟨((block ++ List.replicate n 0).take n).toArray, cut_size n block⟩

def extensionsRecord : Known where
  nonce := bytes 12 0x56145963069f50e5cd3cc522
  header := outerHeader 23
  inner := knownExtensions ++ [CT_HANDSHAKE]
  ct :=
    toBeBytes 7 0xc9a7baa90e23e6
  tag := bytes 16 0x85f85bb913ff6e822d92292f708149d0
  same_length := rfl
  tagged := by decide

def certificateRecord : Known where
  nonce := bytes 12 0x56145963069f50e5cd3cc523
  header := outerHeader 32
  inner := knownCertificateMessage ++ [CT_HANDSHAKE]
  ct :=
    toBeBytes 16 0xea3304684dc003f82a8df81cc3e4cb42
  tag := bytes 16 0x469df944dd5047fbd6f6c18fac7edbc2
  same_length := rfl
  tagged := by decide

def verifyRecord : Known where
  nonce := bytes 12 0x56145963069f50e5cd3cc520
  header := outerHeader 96
  inner := knownVerify ++ [CT_HANDSHAKE]
  ct :=
    toBeBytes 32 0xdd7018376f49b2fd23a59ebe73147905557dd5c4f5d9dfdc81b805d02ecb3872 ++
    toBeBytes 32 0x75557fc3804b0613047da873f76cde9cdb8feb829f766ed1741fa067bf8fb8ee ++
    toBeBytes 16 0x741fe01514d655021771cad59f18c220
  tag := bytes 16 0x3d6f684f4eb2dbdffe197ff4b32454c2
  same_length := rfl
  tagged := by decide

def finishedRecord : Known where
  nonce := bytes 12 0x56145963069f50e5cd3cc521
  header := outerHeader 53
  inner := knownFinished ++ [CT_HANDSHAKE]
  ct :=
    toBeBytes 32 0x958105bb0fb51a9f60771d9987287ec08824233d276b2dd43861a49cc00ea94b ++
    toBeBytes 5 0xb11784974b
  tag := bytes 16 0xff560f652e8ef44367b224f67ae6c7d3
  same_length := rfl
  tagged := by decide

def clientFinished : List UInt8 :=
  writeHandshake [] 0x14
    (toBeBytes 32 0x1e3f3d097d7b6ff24bd2f0586f17d5cfea97495554cf21b8939d0ee7540e0770)

def clientFinishedRecord : Known where
  nonce := bytes 12 0x9aec9006e1a3dcfdbb87f05f
  header := outerHeader 53
  inner := clientFinished ++ [CT_HANDSHAKE]
  ct :=
    toBeBytes 32 0xae2c287e8cd6c86904907383364aa86be4e50f2c18eb92ae388ea420ea534ad8 ++
    toBeBytes 5 0x20b612cc80
  tag := bytes 16 0x6797b3d987cecd4157a58e9054618742
  same_length := rfl
  tagged := by decide

def pingRecord : Known where
  nonce := bytes 12 0x496e97afee28b4e89a35af30
  header := outerHeader 21
  inner := ping ++ [CT_APP_DATA]
  ct :=
    toBeBytes 5 0x23463d492c
  tag := bytes 16 0x6d23944ef5f993cafd11d976d1ed99de
  same_length := rfl
  tagged := by decide

def serverRecords : List Known :=
  [extensionsRecord, certificateRecord, verifyRecord, finishedRecord]

def serverKey : List UInt8 := toBeBytes 16 0x5af0017b30bb7d40f94a1b581dde3973

def clientKey : List UInt8 := toBeBytes 16 0xb1cb174ba8290acb2dc46965f32a56ee

def applicationKey : List UInt8 := toBeBytes 16 0x60fbc6a5e243af0d9acb426a2cf9308d

def knownAes (key : Vector UInt8 16) : Aes128Gcm :=
  if key.toList = serverKey then knownCipher serverRecords
  else if key.toList = clientKey then knownCipher [clientFinishedRecord]
  else if key.toList = applicationKey then knownCipher [pingRecord]
  else knownCipher []

def knownPublicKey (sec1 : List UInt8) : Option Scalar :=
  if sec1 = (knownPoint .two).toList then some .two
  else if sec1 = (knownPoint .three).toList then some .three
  else none

abbrev DerBytes := { sig : List UInt8 // sig.length ≤ 72 }

def readDer (sig : List UInt8) : Option DerBytes :=
  if fits : sig.length ≤ 72 then some ⟨sig, fits⟩ else none

theorem knownSignature_fits : knownSignature.length ≤ 72 := by
  decide

theorem nothing_fits : ([] : List UInt8).length ≤ 72 := by
  decide

/-- The signature over the run's own input. -/
def knownSign (msg : List UInt8) : DerBytes :=
  if msg = certificateVerifyInput certifiedHash then
    ⟨knownSignature, knownSignature_fits⟩
  else ⟨[], nothing_fits⟩

def knownSuite : Suite where
  Hkdf := Vector UInt8 32
  EphemeralSecret := Scalar
  PublicKey := Scalar
  SigningKey := Unit
  VerifyingKey := Unit
  DerSignature := DerBytes
  sha256 := knownSha256
  extract salt ikm := knownHmac salt ikm
  fromPrk := id
  expand prk info n :=
    if n ≤ 8160 then some (cut n (knownHmac prk.toList (info ++ [0x01])).toList) else none
  hmacSha256 key message := knownHmac key.toList message
  aes128Gcm := knownAes
  publicKey := id
  toSec1Point := knownPoint
  fromSec1Bytes := knownPublicKey
  diffieHellman := knownShared
  fromPkcs8Der der := if der = knownKey then some () else none
  verifyingKey := id
  sign _ msg := knownSign msg
  asBytes sig := sig.val
  tryFrom := readDer
  verify _ msg sig := sig == knownSign msg
  CERT_DER := knownCertificate
  KEY_DER := knownKey

/-! ## The run is lawful -/

theorem known_decodes (s : Scalar) : knownPublicKey (knownPoint s).toList = some s := by
  cases s with
  | two => exact if_pos rfl
  | three =>
    have differs : (knownPoint .three).toList ≠ (knownPoint .two).toList := by decide
    exact (if_neg differs).trans (if_pos rfl)

theorem knownSuite_lawful : knownSuite.Lawful where
  expands prk info n small := ⟨_, if_pos small⟩
  seals key := by
    simp only [knownSuite, knownAes]
    split
    · exact knownCipher_lawful _
    · split
      · exact knownCipher_lawful _
      · split
        · exact knownCipher_lawful _
        · exact knownCipher_lawful _
  decodes := known_decodes
  agrees a b := by
    cases a with
    | two => cases b with
      | two => rfl
      | three => rfl
    | three => cases b with
      | two => rfl
      | three => rfl
  short sig := sig.property
  reads sig := dif_pos sig.property
  verifies _ msg := beq_self_eq_true (knownSign msg)

def knownDraws : Draws knownSuite where
  clientSecret := .two
  serverSecret := .three
  clientRandom := Vector.replicate 32 0x11
  serverRandom := Vector.replicate 32 0x22

/-- That run ends with the PING. -/
theorem loopback_completes_known :
    runTlsLoopbackTest knownSuite true knownDraws = .ok () ∧
      ∃ session, loopback knownSuite knownDraws = .ok session ∧
        session.client.secrets = session.server.secrets ∧
        session.client.transcript = session.server.transcript session.chMsg ∧
        session.clientAppSend = session.serverAppRecv :=
  loopback_completes knownSuite_lawful (rfl : knownSuite.fromPkcs8Der knownKey = some ())
    (by decide : knownCertificate.length < 65506) knownDraws

/-! ## What its client reads -/

def knownSecrets : Secrets knownSuite := ⟨knownHs, knownCHsTs, knownSHsTs⟩

def serverKeys : TrafficKeys := ⟨extensionsRecord.nonce, 0⟩

def clientKeys : TrafficKeys := ⟨clientFinishedRecord.nonce, 0⟩

def knownFlight : Flight :=
  ⟨knownExtensions, knownCertificateMessage, knownVerify, knownFinished⟩

/-- The four records behind the ServerHello. -/
def serverTail : List UInt8 :=
  serverRecords.flatMap fun k => k.header.toList ++ k.ct ++ k.tag.toList

def serverStream : List UInt8 := writeRecord [] CT_HANDSHAKE knownServerHello ++ serverTail

def knownAnswered : Answered knownSuite where
  c2sPos := (writeRecord [] CT_HANDSHAKE knownClientHello).length
  shMsg := knownServerHello
  secrets := knownSecrets
  clientHsKeys := (knownCipher [clientFinishedRecord], clientKeys)
  flight := knownFlight
  s2c := serverStream

def serverReceived : Received :=
  receiveAll (knownCipher serverRecords) serverStream
    ⟨(writeRecord [] CT_HANDSHAKE knownServerHello).length, serverKeys⟩ [0x08, 0x0b, 0x0f, 0x14]

/-- The MAC of the server's Finished, with what the functions return along the run. -/
structure Evaluated where
  mac : Vector UInt8 32
  early : knownHmac zero32 zero32 = knownEarly
  derived : deriveSecret knownSuite knownEarly (ascii "derived") emptyHash = .ok knownDerived
  hs : knownHmac knownDerived.toList (knownShared .three .two).toList = knownHs
  cHsTs : deriveSecret knownSuite knownHs (ascii "c hs traffic") hellosHash = .ok knownCHsTs
  sHsTs : deriveSecret knownSuite knownHs (ascii "s hs traffic") hellosHash = .ok knownSHsTs
  serverKeyed : hkdfExpandLabel knownSuite knownSHsTs (ascii "key") [] 16 = .ok (cut 16 serverKey)
  serverIv : hkdfExpandLabel knownSuite knownSHsTs (ascii "iv") [] 12 = .ok extensionsRecord.nonce
  clientKeyed : hkdfExpandLabel knownSuite knownCHsTs (ascii "key") [] 16 = .ok (cut 16 clientKey)
  clientIv : hkdfExpandLabel knownSuite knownCHsTs (ascii "iv") [] 12 =
    .ok clientFinishedRecord.nonce
  serverCut : (cut 16 serverKey).toList = serverKey
  clientCut : (cut 16 clientKey).toList = clientKey
  keysDiffer : ¬ clientKey = serverKey
  listed : ∀ k ∈ serverRecords,
    (k.nonce, k.header, k.inner) ∈ sealings serverKeys knownFlight.messages
  no_zeros : ¬ List.replicate 16 0 <:+: serverStream
  named : knownFlight.messages.map List.head? = [0x08, 0x0b, 0x0f, 0x14].map some
  small : ∀ msg ∈ knownFlight.messages, msg.length + 17 < 65536
  verified : verifyCertificate knownSuite (knownSuite.sha256 (knownClientHello ++
    knownServerHello ++ knownFlight.eeMsg ++ knownFlight.certMsg)) knownFlight.cvMsg = .ok ()
  maced : computeFinishedMac knownSuite knownSHsTs (knownSuite.sha256 (knownClientHello ++
    knownServerHello ++ knownFlight.eeMsg ++ knownFlight.certMsg ++ knownFlight.cvMsg)) =
    .ok mac
  received : (serverReceived.messages, serverReceived.stop) = (knownFlight.messages, none)

def evaluated : Evaluated where
  mac := knownMac
  early := by decide +kernel
  derived := by decide +kernel
  hs := by decide +kernel
  cHsTs := by decide +kernel
  sHsTs := by decide +kernel
  serverKeyed := by decide +kernel
  serverIv := by decide +kernel
  clientKeyed := by decide +kernel
  clientIv := by decide +kernel
  serverCut := by decide +kernel
  clientCut := by decide +kernel
  keysDiffer := by decide +kernel
  listed := by decide +kernel
  no_zeros := by decide +kernel
  named := by decide +kernel
  small := by decide +kernel
  verified := by decide +kernel
  maced := by decide +kernel
  received := by decide +kernel

theorem knownAes_server : knownAes (cut 16 serverKey) = knownCipher serverRecords := by
  rw [knownAes, if_pos evaluated.serverCut]

theorem knownAes_client : knownAes (cut 16 clientKey) = knownCipher [clientFinishedRecord] := by
  have other : ¬ (cut 16 clientKey).toList = serverKey := by
    rw [evaluated.clientCut]
    exact evaluated.keysDiffer
  rw [knownAes, if_neg other, if_pos evaluated.clientCut]

theorem knownSuite_sha256 (data : List UInt8) : knownSuite.sha256 data = knownSha256 data :=
  rfl

theorem known_derived :
    handshakeSecrets knownSuite
      (knownSuite.diffieHellman Scalar.three (knownSuite.publicKey Scalar.two))
      (knownSuite.sha256 (knownClientHello ++ knownServerHello)) = .ok knownSecrets := by
  have early : knownSuite.extract zero32 zero32 = knownEarly := evaluated.early
  have hs : knownSuite.extract knownDerived.toList (knownShared .three .two).toList = knownHs :=
    evaluated.hs
  have shared : knownSuite.diffieHellman Scalar.three (knownSuite.publicKey Scalar.two) =
      knownShared .three .two := rfl
  have empty : knownSuite.sha256 [] = emptyHash := rfl
  have hash : knownSuite.sha256 (knownClientHello ++ knownServerHello) = hellosHash := by
    rw [knownSuite_sha256, hellosHash, knownHellos]
  rw [handshakeSecrets, early, shared, empty, hash, run_ok evaluated.derived]
  dsimp only
  rw [hs, run_ok evaluated.cHsTs, run_ok evaluated.sHsTs]
  rfl

theorem server_keyed :
    fromSecret knownSuite knownSHsTs = .ok (knownCipher serverRecords, serverKeys) := by
  rw [← knownAes_server]
  exact (run_ok evaluated.serverKeyed).trans (run_ok evaluated.serverIv)

theorem client_keyed :
    fromSecret knownSuite knownCHsTs = .ok (knownCipher [clientFinishedRecord], clientKeys) := by
  rw [← knownAes_client]
  exact (run_ok evaluated.clientKeyed).trans (run_ok evaluated.clientIv)

theorem serverStream_unforged :
    Unforged (knownCipher serverRecords) (sealings serverKeys knownFlight.messages)
      serverStream :=
  known_unforged evaluated.listed evaluated.no_zeros

theorem known_proven :
    Proven knownSuite knownSHsTs (knownClientHello ++ knownServerHello) knownFlight where
  named := evaluated.named
  small := evaluated.small
  verified := evaluated.verified
  finished := ⟨knownMac, evaluated.maced, rfl⟩

theorem serverStream_received :
    ∃ after, receiveAll (knownCipher serverRecords) serverStream
        ⟨(writeRecord [] CT_HANDSHAKE knownServerHello).length, serverKeys⟩
        [0x08, 0x0b, 0x0f, 0x14] = ⟨after, knownFlight.messages, none⟩ := by
  obtain ⟨messages, stopped⟩ := Prod.mk.inj evaluated.received
  rw [serverReceived] at messages stopped
  cases received : receiveAll (knownCipher serverRecords) serverStream
      ⟨(writeRecord [] CT_HANDSHAKE knownServerHello).length, serverKeys⟩
      [0x08, 0x0b, 0x0f, 0x14] with
  | mk after msgs stop =>
    rw [received] at messages stopped
    exact ⟨after, by rw [← messages, ← stopped]⟩

theorem known_answers : Answers knownSuite knownDraws knownClientHello knownAnswered where
  pos := rfl
  hello := rfl
  derived := known_derived
  keyed := client_keyed
  proven := known_proven
  sent := by
    obtain ⟨after, received⟩ := serverStream_received
    refine ⟨cut 16 serverKey, extensionsRecord.nonce, serverTail, after, ?_, rfl, ?_⟩
    · exact server_keyed.trans
        (congrArg (fun c => Except.ok (c, serverKeys)) knownAes_server.symm)
    · show receiveAll (knownAes (cut 16 serverKey)) serverStream _ _ = _
      rw [knownAes_server]
      exact received

/-- The client accepts the server's own stream, and has read the server's flight. -/
theorem client_follows_server_known :
    ∃ client, clientFollows knownSuite .two knownClientHello knownServerHello serverStream =
        .ok client ∧
      ∃ flight, FollowedFlight knownSuite knownSecrets (knownClientHello ++ knownServerHello)
        knownFlight.messages client flight := by
  obtain ⟨client, accepted, -⟩ := clientFollows_ok knownSuite_lawful known_answers
  exact ⟨client, accepted, client_follows_server knownSuite_lawful .two .three
    (Vector.replicate 32 0x22) rfl known_derived server_keyed (by decide) serverStream_unforged
    accepted⟩

end KnownRun

end TlsAgreement
