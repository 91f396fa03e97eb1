import AnimaOS.TlsChannel
import AnimaOS.TlsServerHello

/-!
# The TLS handshake

`run_tls_loopback_test` of the micro-VM: a client and a server hand each other records
in two buffers, each derives its secrets from its own key and the other's key share, and
each checks the other's Finished. Hashing, key derivation, the cipher and the curve are
taken as given.
-/

namespace TlsHandshake

open ByteReader TlsRecords TlsTraffic TlsChannel

abbrev Secret := Vector UInt8 32

/-- What the handshake calls, and the two files the build embeds. `Hkdf::from_prk` takes
any 32 bytes and HMAC any key, so neither fails here. -/
structure Suite where
  Hkdf : Type
  EphemeralSecret : Type
  PublicKey : Type
  SigningKey : Type
  VerifyingKey : Type
  DerSignature : Type
  sha256 : List UInt8 → Vector UInt8 32
  extract : List UInt8 → List UInt8 → Hkdf
  fromPrk : Secret → Hkdf
  expand : Hkdf → List UInt8 → (n : Nat) → Option (Vector UInt8 n)
  hmacSha256 : Vector UInt8 32 → List UInt8 → Vector UInt8 32
  aes128Gcm : Vector UInt8 16 → Aes128Gcm
  publicKey : EphemeralSecret → PublicKey
  toSec1Point : PublicKey → Vector UInt8 65
  fromSec1Bytes : List UInt8 → Option PublicKey
  diffieHellman : EphemeralSecret → PublicKey → Vector UInt8 32
  fromPkcs8Der : List UInt8 → Option SigningKey
  verifyingKey : SigningKey → VerifyingKey
  sign : SigningKey → List UInt8 → DerSignature
  asBytes : DerSignature → List UInt8
  tryFrom : List UInt8 → Option DerSignature
  verify : VerifyingKey → List UInt8 → DerSignature → Bool
  CERT_DER : List UInt8
  KEY_DER : List UInt8

/-- What the two sides rely on. -/
structure Suite.Lawful (suite : Suite) : Prop where
  /-- HKDF-Expand gives up to 255 blocks of 32 bytes. -/
  expands : ∀ prk info n, n ≤ 8160 → ∃ out, suite.expand prk info n = some out
  seals : ∀ key, TlsChannel.Lawful (suite.aes128Gcm key)
  decodes : ∀ pk, suite.fromSec1Bytes (suite.toSec1Point pk).toList = some pk
  agrees : ∀ a b, suite.diffieHellman a (suite.publicKey b) =
    suite.diffieHellman b (suite.publicKey a)
  short : ∀ sig, (suite.asBytes sig).length ≤ 72
  reads : ∀ sig, suite.tryFrom (suite.asBytes sig) = some sig
  verifies : ∀ key msg, suite.verify (suite.verifyingKey key) msg (suite.sign key msg) = true

def ascii (s : String) : List UInt8 := s.toList.map fun c => UInt8.ofNat c.toNat

/-- `?` on a call that also moves a cursor or a counter. -/
def settled {σ α : Type} : σ × Except Stop α → Except Stop (σ × α)
  | (_, .error stop) => .error stop
  | (s, .ok a) => .ok (s, a)

def check (holds : Prop) [Decidable holds] (message : String) : Except Stop Unit :=
  if holds then .ok () else .error (.error message)

def checked {α : Type} : Checked α → Except Stop α
  | .error fault => .error (raised fault)
  | .ok a => .ok a

/-! ## The key schedule -/

section Schedule

variable (suite : Suite)

def hkdfLabel (label context : List UInt8) (length : Nat) : Except Stop (List UInt8) :=
  let fullLabel := ascii "tls13 " ++ label
  if fullLabel.length > 255 then
    .error (.panicked ("HKDF label too long: " ++ toString fullLabel.length ++
      " bytes (max 255 per RFC 8446 §3.4)"))
  else if context.length > 255 then
    .error (.panicked ("HKDF context too long: " ++ toString context.length ++
      " bytes (max 255 per RFC 8446 §3.4)"))
  else
    .ok (be16 length ++ [UInt8.ofNat fullLabel.length] ++ fullLabel ++
      [UInt8.ofNat context.length] ++ context)

def hkdfExpandLabel (prk : suite.Hkdf) (label context : List UInt8) (n : Nat) :
    Except Stop (Vector UInt8 n) := do
  let info ← hkdfLabel label context n
  match suite.expand prk info n with
  | none => .error (.panicked "HKDF-Expand-Label: output length too large")
  | some out => .ok out

def deriveSecret (prk : suite.Hkdf) (label : List UInt8) (transcriptHash : Vector UInt8 32) :
    Except Stop Secret :=
  hkdfExpandLabel suite prk label transcriptHash.toList 32

/-- The cipher under the key of a traffic secret, and its IV with the counter at zero. -/
def fromSecret (secret : Secret) : Except Stop (Aes128Gcm × TrafficKeys) := do
  let prk := suite.fromPrk secret
  let key ← hkdfExpandLabel suite prk (ascii "key") [] 16
  let iv ← hkdfExpandLabel suite prk (ascii "iv") [] 12
  return (suite.aes128Gcm key, ⟨iv, 0⟩)

def computeFinishedMac (trafficSecret : Secret) (transcriptHash : Vector UInt8 32) :
    Except Stop (Vector UInt8 32) := do
  let finishedKey ← hkdfExpandLabel suite (suite.fromPrk trafficSecret) (ascii "finished") [] 32
  return suite.hmacSha256 finishedKey transcriptHash.toList

def zero32 : List UInt8 := List.replicate 32 0

/-- `hs`, `c_hs_ts` and `s_hs_ts` of one side. -/
structure Secrets where
  hs : suite.Hkdf
  cHsTs : Secret
  sHsTs : Secret

/-- Written out once for the server and once for the client. -/
def handshakeSecrets (ecdhe : Vector UInt8 32) (chShHash : Vector UInt8 32) :
    Except Stop (Secrets suite) := do
  let derived ← deriveSecret suite (suite.extract zero32 zero32) (ascii "derived")
    (suite.sha256 [])
  let hs := suite.extract derived.toList ecdhe.toList
  let cHsTs ← deriveSecret suite hs (ascii "c hs traffic") chShHash
  let sHsTs ← deriveSecret suite hs (ascii "s hs traffic") chShHash
  return ⟨hs, cHsTs, sHsTs⟩

/-- The keys of the client's application data, on either side. -/
def applicationKeys (hs : suite.Hkdf) (transcriptHash : Vector UInt8 32) :
    Except Stop (Aes128Gcm × TrafficKeys) := do
  let msDerived ← deriveSecret suite hs (ascii "derived") (suite.sha256 [])
  let masterSecret := suite.extract msDerived.toList zero32
  let appTs ← deriveSecret suite masterSecret (ascii "c ap traffic") transcriptHash
  fromSecret suite appTs

end Schedule

/-! ## Messages -/

section Messages

variable (suite : Suite)

def clientHello (clientRandom : Vector UInt8 32) (pk : suite.PublicKey) : List UInt8 :=
  writeHandshake [] 0x01
    (TlsClientHello.buildClientHello clientRandom.toList (suite.toSec1Point pk).toList)

def serverHello (serverRandom : Vector UInt8 32) (pk : suite.PublicKey) : List UInt8 :=
  writeHandshake [] 0x02
    (TlsServerHello.buildServerHello serverRandom.toList (suite.toSec1Point pk).toList)

def certificateBody : List UInt8 :=
  [0x00] ++ be24 (3 + suite.CERT_DER.length + 2) ++ be24 suite.CERT_DER.length ++
    suite.CERT_DER ++ [0x00, 0x00]

/-- What is signed, and what the signature is verified against. -/
def certificateVerifyInput (transcriptHash : Vector UInt8 32) : List UInt8 :=
  List.replicate 64 0x20 ++ ascii "TLS 1.3, server CertificateVerify" ++ [0x00] ++
    transcriptHash.toList

def certificateVerifyBody (sigBytes : List UInt8) : List UInt8 :=
  [0x04, 0x03] ++ be16 sigBytes.length ++ sigBytes

structure Flight where
  eeMsg : List UInt8
  certMsg : List UInt8
  cvMsg : List UInt8
  sfinMsg : List UInt8

def Flight.messages (flight : Flight) : List (List UInt8) :=
  [flight.eeMsg, flight.certMsg, flight.cvMsg, flight.sfinMsg]

/-- The server's encrypted messages, behind the transcript of the two hellos. -/
def serverFlight (sHsTs : Secret) (hellos : List UInt8) : Except Stop Flight := do
  let eeMsg := writeHandshake [] 0x08 [0x00, 0x00]
  let certMsg := writeHandshake [] 0x0b (certificateBody suite)
  let transcriptForCv := suite.sha256 (hellos ++ eeMsg ++ certMsg)
  match suite.fromPkcs8Der suite.KEY_DER with
  | none => .error (.error "CertificateVerify: failed to load signing key")
  | some signingKey => do
    let sig := suite.sign signingKey (certificateVerifyInput transcriptForCv)
    let cvMsg := writeHandshake [] 0x0f (certificateVerifyBody (suite.asBytes sig))
    let mac ← computeFinishedMac suite sHsTs
      (suite.sha256 (hellos ++ eeMsg ++ certMsg ++ cvMsg))
    return ⟨eeMsg, certMsg, cvMsg, writeHandshake [] 0x14 mac.toList⟩

/-- The plaintext record at the start of a buffer, its type byte checked. -/
def readHello (data : List UInt8) (msgType : UInt8) (unexpected short : String) :
    Except Stop (Nat × List UInt8) :=
  match readRecord data 0 with
  | (_, .error fault) => .error (raised fault)
  | (pos, .ok (_, payload)) =>
    if payload.head? ≠ some msgType then .error (.error unexpected)
    else if payload.length < 4 then .error (.error short)
    else .ok (pos, payload.drop 4)

/-- `u16::from_be_bytes([cv_payload[i], cv_payload[i + 1]])`. -/
def verifyCertificate (transcriptHash : Vector UInt8 32) (cvPayload : List UInt8) :
    Except Stop Unit := do
  check (8 ≤ cvPayload.length) "client: CertificateVerify too short"
  let sigAlg ← checked (u16At cvPayload 4)
  check (sigAlg = 0x0403) "client: CertificateVerify uses unexpected signature algorithm"
  let sigLen ← checked (u16At cvPayload 6)
  check (8 + sigLen ≤ cvPayload.length) "client: CertificateVerify signature truncated"
  let sigBytes ← checked (slice cvPayload 8 (8 + sigLen))
  match suite.fromPkcs8Der suite.KEY_DER with
  | none => .error (.error "client: failed to load server public key for CV verification")
  | some signingKey =>
    match suite.tryFrom sigBytes with
    | none => .error (.error "client: CertificateVerify DER signature invalid")
    | some sig =>
      check (suite.verify (suite.verifyingKey signingKey)
          (certificateVerifyInput transcriptHash) sig = true)
        "client: CertificateVerify signature verification FAILED"

end Messages

/-! ## The two sides -/

section Sides

variable (suite : Suite)

/-- What the generator gives the two sides. -/
structure Draws where
  clientSecret : suite.EphemeralSecret
  serverSecret : suite.EphemeralSecret
  clientRandom : Vector UInt8 32
  serverRandom : Vector UInt8 32

/-- The server after its Finished. -/
structure Answered where
  c2sPos : Nat
  shMsg : List UInt8
  secrets : Secrets suite
  clientHsKeys : Aes128Gcm × TrafficKeys
  flight : Flight
  s2c : List UInt8

/-- The server reads the ClientHello and writes all of its messages. -/
def serverAnswers (d : Draws suite) (chMsg c2s : List UInt8) : Except Stop (Answered suite) := do
  let (c2sPos, chBody) ← readHello c2s 0x01
    "server: expected ClientHello handshake message type"
    "server: ClientHello handshake msg too short"
  let clientPk ← checked (TlsClientHello.extractClientKeyShare suite.fromSec1Bytes chBody)
  let ecdhe := suite.diffieHellman d.serverSecret clientPk
  let shMsg := serverHello suite d.serverRandom (suite.publicKey d.serverSecret)
  let s2c := writeRecord [] CT_HANDSHAKE shMsg
  let secrets ← handshakeSecrets suite ecdhe (suite.sha256 (chMsg ++ shMsg))
  let serverHsKeys ← fromSecret suite secrets.sHsTs
  let clientHsKeys ← fromSecret suite secrets.cHsTs
  let flight ← serverFlight suite secrets.sHsTs (chMsg ++ shMsg)
  let (_, s2c) ← settled (sendAll serverHsKeys.1 s2c serverHsKeys.2 flight.messages)
  return ⟨c2sPos, shMsg, secrets, clientHsKeys, flight, s2c⟩

/-- The client after the server's Finished. -/
structure Followed where
  secrets : Secrets suite
  clientSendKeys : Aes128Gcm × TrafficKeys
  transcript : List UInt8

/-- The client reads the server's buffer. Its transcript starts with the hellos as they
were sent. -/
def clientFollows (clientSecret : suite.EphemeralSecret) (chMsg shMsg s2c : List UInt8) :
    Except Stop (Followed suite) := do
  let (pos, shBody) ← readHello s2c 0x02 "client: expected ServerHello"
    "client: ServerHello handshake msg too short"
  let serverPk ← checked (TlsServerHello.extractServerKeyShare suite.fromSec1Bytes shBody)
  let ecdhe := suite.diffieHellman clientSecret serverPk
  let secrets ← handshakeSecrets suite ecdhe (suite.sha256 (chMsg ++ shMsg))
  let recvKeys ← fromSecret suite secrets.sHsTs
  let clientSendKeys ← fromSecret suite secrets.cHsTs
  let (r, ee) ← settled (readDecryptHandshake recvKeys.1 s2c ⟨pos, recvKeys.2⟩ 0x08)
  let (r, cert) ← settled (readDecryptHandshake recvKeys.1 s2c r 0x0b)
  let (r, cv) ← settled (readDecryptHandshake recvKeys.1 s2c r 0x0f)
  verifyCertificate suite (suite.sha256 (chMsg ++ shMsg ++ ee ++ cert)) cv
  let (_, sfin) ← settled (readDecryptHandshake recvKeys.1 s2c r 0x14)
  check (4 ≤ sfin.length) "client: server Finished too short"
  let expected ← computeFinishedMac suite secrets.sHsTs
    (suite.sha256 (chMsg ++ shMsg ++ ee ++ cert ++ cv))
  check (sfin.drop 4 = expected.toList) "client: server Finished MAC mismatch"
  return ⟨secrets, clientSendKeys, chMsg ++ shMsg ++ ee ++ cert ++ cv ++ sfin⟩

def clientFinishes (client : Followed suite) (c2s : List UInt8) : Except Stop (List UInt8) := do
  let mac ← computeFinishedMac suite client.secrets.cHsTs (suite.sha256 client.transcript)
  let (_, c2s) ← settled (sendEncryptedHandshake client.clientSendKeys.1 c2s
    client.clientSendKeys.2 (writeHandshake [] 0x14 mac.toList))
  return c2s

/-- The server's transcript with its own Finished, which the client's Finished covers. -/
def Answered.transcript {suite : Suite} (server : Answered suite) (chMsg : List UInt8) :
    List UInt8 :=
  chMsg ++ server.shMsg ++ server.flight.messages.flatten

/-- The cursor behind the client's Finished. -/
def serverChecksFinished (server : Answered suite) (chMsg c2s : List UInt8) :
    Except Stop Nat := do
  let (r, inner) ← settled (openNext server.clientHsKeys.1 c2s
    ⟨server.c2sPos, server.clientHsKeys.2⟩
    "server: expected encrypted client Finished (CT_APP_DATA outer type)")
  let cfin ← popped "server: decrypted client Finished is empty"
    "server: client Finished inner content type is not CT_HANDSHAKE" CT_HANDSHAKE inner
  check (4 ≤ cfin.length ∧ cfin.head? = some 0x14)
    "server: expected client Finished handshake type"
  let expected ← computeFinishedMac suite server.secrets.cHsTs
    (suite.sha256 (server.transcript chMsg))
  check (cfin.drop 4 = expected.toList) "server: client Finished MAC mismatch"
  return r.pos

def ping : List UInt8 := ascii "PING"

/-- The server opens the record behind the client's Finished. -/
def serverReadsPing (keys : Aes128Gcm × TrafficKeys) (c2s : List UInt8) (pos : Nat) :
    Except Stop Unit := do
  let (_, inner) ← settled (openNext keys.1 c2s ⟨pos, keys.2⟩
    "server: expected encrypted PING record (CT_APP_DATA outer type)")
  let payload ← popped "server: decrypted PING is empty"
    "server: PING inner content type is not CT_APP_DATA" CT_APP_DATA inner
  check (payload = ping) "server: received unexpected payload instead of PING"

/-- What the two sides hold at the end. -/
structure Session where
  chMsg : List UInt8
  server : Answered suite
  client : Followed suite
  clientAppSend : Aes128Gcm × TrafficKeys
  serverAppRecv : Aes128Gcm × TrafficKeys

/-- The test behind its check of the CPU, with its locals. -/
def loopback (d : Draws suite) : Except Stop (Session suite) := do
  let chMsg := clientHello suite d.clientRandom (suite.publicKey d.clientSecret)
  let c2s := writeRecord [] CT_HANDSHAKE chMsg
  let server ← serverAnswers suite d chMsg c2s
  let client ← clientFollows suite d.clientSecret chMsg server.shMsg server.s2c
  let c2s ← clientFinishes suite client c2s
  let pos ← serverChecksFinished suite server chMsg c2s
  let clientAppSend ← applicationKeys suite client.secrets.hs (suite.sha256 client.transcript)
  let serverAppRecv ← applicationKeys suite server.secrets.hs
    (suite.sha256 (server.transcript chMsg))
  let (_, c2s) ← settled (sendInner clientAppSend.1 c2s clientAppSend.2 CT_APP_DATA ping)
  serverReadsPing serverAppRecv c2s pos
  return ⟨chMsg, server, client, clientAppSend, serverAppRecv⟩

def runTlsLoopbackTest (rdrandAvailable : Bool) (d : Draws suite) : Except Stop Unit :=
  if ¬ rdrandAvailable then
    .error (.error "RDRAND not available on this CPU (CPUID leaf 1, ECX bit 30 not set)")
  else
    match loopback suite d with
    | .error stop => .error stop
    | .ok _ => .ok ()

end Sides

/-! ## One step after another -/

section Binding

variable {α β σ : Type} {x : Except Stop α} {f : α → Except Stop β}

theorem run_ok {a : α} (ran : x = .ok a) : (x >>= f) = f a := by
  rw [ran]
  rfl

theorem run_ok_iff {b : β} : (x >>= f) = .ok b ↔ ∃ a, x = .ok a ∧ f a = .ok b := by
  cases x with
  | error stop =>
    constructor
    · intro ran
      cases ran
    · rintro ⟨a, ran, _⟩
      cases ran
  | ok a =>
    constructor
    · exact fun ran => ⟨a, rfl, ran⟩
    · rintro ⟨a', ran, rest⟩
      cases ran
      exact rest

theorem check_run {holds : Prop} [Decidable holds] {message : String}
    {f : Unit → Except Stop β} (held : holds) : (check holds message >>= f) = f () :=
  run_ok (if_pos held)

theorem settled_ok {s : σ} {a : α} {call : σ × Except Stop α} (ran : call = (s, .ok a)) :
    settled call = .ok (s, a) := by
  rw [ran]
  rfl

theorem settled_ok_iff {s : σ} {a : α} {call : σ × Except Stop α} :
    settled call = .ok (s, a) ↔ call = (s, .ok a) := by
  obtain ⟨state, result⟩ := call
  cases result with
  | error stop =>
    constructor
    · intro ran
      cases ran
    · intro ran
      cases ran
  | ok value =>
    constructor
    · intro ran
      cases ran
      rfl
    · intro ran
      cases ran
      rfl

end Binding

/-! ## Keys for every input -/

section Keys

variable {suite : Suite} (lawful : suite.Lawful)

theorem hkdfLabel_ok {label context : List UInt8} (label_fits : label.length ≤ 249)
    (context_fits : context.length ≤ 255) (n : Nat) :
    ∃ info, hkdfLabel label context n = .ok info := by
  have full : ¬ (ascii "tls13 " ++ label).length > 255 := by
    have tls13 : (ascii "tls13 ").length = 6 := by decide
    rw [List.length_append, tls13]
    omega
  have fits : ¬ context.length > 255 := by omega
  refine ⟨be16 n ++ [UInt8.ofNat (ascii "tls13 " ++ label).length] ++ (ascii "tls13 " ++ label) ++
    [UInt8.ofNat context.length] ++ context, ?_⟩
  simp only [hkdfLabel, if_neg full, if_neg fits]

include lawful

theorem hkdfExpandLabel_ok (prk : suite.Hkdf) (label context : List UInt8) (n : Nat)
    (label_fits : label.length ≤ 249) (context_fits : context.length ≤ 255) (small : n ≤ 8160) :
    ∃ out, hkdfExpandLabel suite prk label context n = .ok out := by
  obtain ⟨info, labelled⟩ := hkdfLabel_ok label_fits context_fits n
  obtain ⟨out, expanded⟩ := lawful.expands prk info n small
  refine ⟨out, ?_⟩
  rw [hkdfExpandLabel, run_ok labelled, expanded]

theorem deriveSecret_ok (prk : suite.Hkdf) (label : List UInt8) (label_fits : label.length ≤ 249)
    (transcriptHash : Vector UInt8 32) :
    ∃ secret, deriveSecret suite prk label transcriptHash = .ok secret :=
  hkdfExpandLabel_ok lawful prk label transcriptHash.toList 32 label_fits (by simp) (by decide)

theorem fromSecret_ok (secret : Secret) :
    ∃ key iv, fromSecret suite secret = .ok (suite.aes128Gcm key, ⟨iv, 0⟩) := by
  obtain ⟨key, key_expanded⟩ := hkdfExpandLabel_ok lawful (suite.fromPrk secret) (ascii "key") []
    16 (by decide) (by decide) (by decide)
  obtain ⟨iv, iv_expanded⟩ := hkdfExpandLabel_ok lawful (suite.fromPrk secret) (ascii "iv") []
    12 (by decide) (by decide) (by decide)
  refine ⟨key, iv, ?_⟩
  rw [fromSecret, run_ok key_expanded, run_ok iv_expanded]
  rfl

theorem computeFinishedMac_ok (trafficSecret : Secret) (transcriptHash : Vector UInt8 32) :
    ∃ mac, computeFinishedMac suite trafficSecret transcriptHash = .ok mac := by
  obtain ⟨finishedKey, expanded⟩ := hkdfExpandLabel_ok lawful (suite.fromPrk trafficSecret)
    (ascii "finished") [] 32 (by decide) (by decide) (by decide)
  refine ⟨suite.hmacSha256 finishedKey transcriptHash.toList, ?_⟩
  rw [computeFinishedMac, run_ok expanded]
  rfl

theorem handshakeSecrets_ok (ecdhe chShHash : Vector UInt8 32) :
    ∃ secrets, handshakeSecrets suite ecdhe chShHash = .ok secrets := by
  obtain ⟨derived, first⟩ := deriveSecret_ok lawful (suite.extract zero32 zero32)
    (ascii "derived") (by decide) (suite.sha256 [])
  obtain ⟨cHsTs, second⟩ := deriveSecret_ok lawful (suite.extract derived.toList ecdhe.toList)
    (ascii "c hs traffic") (by decide) chShHash
  obtain ⟨sHsTs, third⟩ := deriveSecret_ok lawful (suite.extract derived.toList ecdhe.toList)
    (ascii "s hs traffic") (by decide) chShHash
  refine ⟨⟨suite.extract derived.toList ecdhe.toList, cHsTs, sHsTs⟩, ?_⟩
  rw [handshakeSecrets, run_ok first, run_ok second, run_ok third]
  rfl

theorem applicationKeys_ok (hs : suite.Hkdf) (transcriptHash : Vector UInt8 32) :
    ∃ key iv, applicationKeys suite hs transcriptHash = .ok (suite.aes128Gcm key, ⟨iv, 0⟩) := by
  obtain ⟨msDerived, first⟩ := deriveSecret_ok lawful hs
    (ascii "derived") (by decide) (suite.sha256 [])
  obtain ⟨appTs, second⟩ := deriveSecret_ok lawful (suite.extract msDerived.toList zero32)
    (ascii "c ap traffic") (by decide) transcriptHash
  obtain ⟨key, iv, keyed⟩ := fromSecret_ok lawful appTs
  refine ⟨key, iv, ?_⟩
  rw [applicationKeys, run_ok first, run_ok second, keyed]

end Keys

/-! ## The hellos -/

section Hellos

variable {suite : Suite}

/-- A handshake message in a plaintext record at the start of a buffer is read back. -/
theorem readHello_record {body : List UInt8} (small : body.length < 65532) (msgType : UInt8)
    (rest : List UInt8) (unexpected short : String) :
    readHello (writeRecord [] CT_HANDSHAKE (writeHandshake [] msgType body) ++ rest) msgType
        unexpected short =
      .ok ((writeRecord [] CT_HANDSHAKE (writeHandshake [] msgType body)).length, body) := by
  have length : (writeHandshake [] msgType body).length = body.length + 4 := by
    simp [be24]
  have read := @readRecord_whole _ [] rest (CT_HANDSHAKE, writeHandshake [] msgType body)
    (by simp only; omega) rfl
  have named : (writeHandshake [] msgType body).head? = some msgType := by
    rw [writeHandshake_nil]
    rfl
  have long : ¬ (writeHandshake [] msgType body).length < 4 := by omega
  have content : (writeHandshake [] msgType body).drop 4 = body := by
    rw [writeHandshake_nil]
    rfl
  rw [List.length_nil] at read
  simp only [readHello, read, named, ne_eq, not_true_eq_false, if_false, if_neg long, content]

theorem clientHello_length (clientRandom : Vector UInt8 32) (pk : suite.PublicKey) :
    (TlsClientHello.buildClientHello clientRandom.toList
      (suite.toSec1Point pk).toList).length < 65532 := by
  simp [TlsClientHello.buildClientHello, TlsClientHello.helloExtensions,
    TlsClientHello.pushExtension, LEGACY_VERSION, TlsClientHello.CIPHER_SUITE,
    TlsClientHello.TLS13_VERSION]

theorem serverHello_length (serverRandom : Vector UInt8 32) (pk : suite.PublicKey) :
    (TlsServerHello.buildServerHello serverRandom.toList
      (suite.toSec1Point pk).toList).length < 65532 := by
  simp [TlsServerHello.buildServerHello, TlsServerHello.helloExtensions,
    TlsClientHello.pushExtension, LEGACY_VERSION, TlsClientHello.CIPHER_SUITE,
    TlsClientHello.TLS13_VERSION]

variable (lawful : suite.Lawful)
include lawful

theorem client_key_read (clientRandom : Vector UInt8 32) (pk : suite.PublicKey) :
    checked (TlsClientHello.extractClientKeyShare suite.fromSec1Bytes
      (TlsClientHello.buildClientHello clientRandom.toList (suite.toSec1Point pk).toList)) =
      .ok pk := by
  have found := @TlsClientHello.findKeyShare_built clientRandom.toList (suite.toSec1Point pk).toList
    (by simp) (by simp)
  rw [TlsClientHello.extractClientKeyShare, bind_ok found, lawful.decodes]
  rfl

theorem server_key_read (serverRandom : Vector UInt8 32) (pk : suite.PublicKey) :
    checked (TlsServerHello.extractServerKeyShare suite.fromSec1Bytes
      (TlsServerHello.buildServerHello serverRandom.toList (suite.toSec1Point pk).toList)) =
      .ok pk := by
  have found := @TlsServerHello.findKeyShare_built serverRandom.toList (suite.toSec1Point pk).toList
    (by simp) (by simp)
  rw [TlsServerHello.extractServerKeyShare, bind_ok found, lawful.decodes]
  rfl

end Hellos

end TlsHandshake
