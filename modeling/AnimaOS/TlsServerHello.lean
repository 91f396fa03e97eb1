import AnimaOS.TlsClientHello

/-!
# The server's key share

`build_server_hello` writes a ServerHello body and `extract_server_key_share` looks for
the P-256 key in one. The walk over the extensions is the client's; the `key_share` of a
server holds one entry and no list.
-/

namespace TlsServerHello

open ByteReader TlsRecords TlsClientHello

/-! ## Building -/

/-- The two extensions; `pkBytes` is the uncompressed point of the public key. -/
def helloExtensions (pkBytes : List UInt8) : List UInt8 :=
  pushExtension (pushExtension [] 0x002b TLS13_VERSION)
    0x0033 ([0x00, 0x17] ++ be16 pkBytes.length ++ pkBytes)

def buildServerHello (serverRandom pkBytes : List UInt8) : List UInt8 :=
  LEGACY_VERSION ++ serverRandom ++ [0x00] ++ CIPHER_SUITE ++ [0x00] ++
    be16 (helloExtensions pkBytes).length ++ helloExtensions pkBytes

/-! ## Extracting -/

/-- The fixed fields: where the extensions begin and where they are declared to end. -/
def extensionsBlock (body : List UInt8) : Checked (Nat × Nat) := do
  ensure (34 < body.length) "SH: truncated at session_id_len"
  let sidLen ← index body 34
  ensure (38 + sidLen.toNat + 2 ≤ body.length) "SH: truncated at extensions_len"
  let extsLen ← u16At body (38 + sidLen.toNat)
  ensure (40 + sidLen.toNat + extsLen ≤ body.length) "SH: extensions extend beyond body"
  return (40 + sidLen.toNat, 40 + sidLen.toNat + extsLen)

/-- One entry: a named group, the length of the key and the key. -/
def keyShare (extData : List UInt8) : Checked (List UInt8) := do
  ensure (4 ≤ extData.length) "SH key_share: too short"
  let group ← u16At extData 0
  ensure (group = 0x0017) "SH key_share: unexpected group (expected P-256)"
  let keLen ← u16At extData 2
  ensure (4 + keLen ≤ extData.length) "SH key_share: key bytes out of bounds"
  slice extData 4 (4 + keLen)

/-- The loop over the extensions, with the comparison of the client's. -/
def extensionsFrom : List UInt8 → Nat → Nat → Checked (List UInt8) :=
  walkFrom ⟨0x0033, "SH: extension data out of bounds", "SH: key_share extension not found",
    keyShare⟩

/-- The bytes handed to the point decoder. -/
def findKeyShare (body : List UInt8) : Checked (List UInt8) := do
  let block ← extensionsBlock body
  extensionsFrom body block.2 block.1

def extractServerKeyShare {PublicKey : Type} (fromSec1Bytes : List UInt8 → Option PublicKey)
    (body : List UInt8) : Checked PublicKey := do
  let pkBytes ← findKeyShare body
  match fromSec1Bytes pkBytes with
  | some publicKey => .ok publicKey
  | none => .error (.error "SH: invalid P-256 public key")

/-- The fixed fields declare an extensions block from `exts` to `extsEnd`, inside the body. -/
def DeclaredBlock (body : List UInt8) (exts extsEnd : Nat) : Prop :=
  ∃ sidLen extsLen, index body 34 = .ok sidLen ∧
    u16At body (38 + sidLen.toNat) = .ok extsLen ∧
    exts = 40 + sidLen.toNat ∧ extsEnd = exts + extsLen ∧ extsEnd ≤ body.length

theorem extensionsBlock_ok_iff {body : List UInt8} {exts extsEnd : Nat} :
    extensionsBlock body = .ok (exts, extsEnd) ↔ DeclaredBlock body exts extsEnd := by
  constructor
  · intro parsed
    obtain ⟨_, _, parsed⟩ := bind_ok_iff.mp parsed
    obtain ⟨sidLen, sid, parsed⟩ := bind_ok_iff.mp parsed
    obtain ⟨_, _, parsed⟩ := bind_ok_iff.mp parsed
    obtain ⟨extsLen, len, parsed⟩ := bind_ok_iff.mp parsed
    obtain ⟨_, fits, parsed⟩ := bind_ok_iff.mp parsed
    cases parsed
    exact ⟨sidLen, extsLen, sid, len, rfl, rfl, ensure_ok_iff.mp fits⟩
  · rintro ⟨sidLen, extsLen, sid, len, rfl, rfl, fits⟩
    rw [extensionsBlock, ensure_bind (index_ok_lt sid), bind_ok sid,
      ensure_bind (u16At_ok_le len), bind_ok len, ensure_bind fits]
    rfl

theorem DeclaredBlock.inside {body : List UInt8} {exts extsEnd : Nat}
    (declared : DeclaredBlock body exts extsEnd) : extsEnd ≤ body.length := by
  obtain ⟨_, _, _, _, _, _, inside⟩ := declared
  exact inside

/-! ## No index out of range -/

theorem extensionsBlock_inRange (body : List UInt8) : InRange (extensionsBlock body) := by
  apply InRange.bind (InRange.ensure _ _)
  intro _ sidField
  apply InRange.bind (InRange.index (ensure_ok_iff.mp sidField))
  intro sidLen _
  apply InRange.bind (InRange.ensure _ _)
  intro _ extsField
  apply InRange.bind (InRange.u16At (ensure_ok_iff.mp extsField))
  intro extsLen _
  apply InRange.bind (InRange.ensure _ _)
  intro _ _
  exact InRange.ok _

theorem keyShare_inRange (extData : List UInt8) : InRange (keyShare extData) := by
  apply InRange.bind (InRange.ensure _ _)
  intro _ long
  have enough := ensure_ok_iff.mp long
  apply InRange.bind (InRange.u16At (by omega))
  intro group _
  apply InRange.bind (InRange.ensure _ _)
  intro _ _
  apply InRange.bind (InRange.u16At (by omega))
  intro keLen _
  apply InRange.bind (InRange.ensure _ _)
  intro _ fits
  exact InRange.slice (by omega) (ensure_ok_iff.mp fits)

theorem findKeyShare_inRange (body : List UInt8) : InRange (findKeyShare body) := by
  apply InRange.bind (extensionsBlock_inRange body)
  intro block declared
  exact walkFrom_inRange keyShare_inRange (extensionsBlock_ok_iff.mp declared).inside block.1

theorem extractServerKeyShare_inRange {PublicKey : Type}
    (fromSec1Bytes : List UInt8 → Option PublicKey) (body : List UInt8) :
    InRange (extractServerKeyShare fromSec1Bytes body) := by
  apply InRange.bind (findKeyShare_inRange body)
  intro pkBytes _
  split
  · exact InRange.ok _
  · exact InRange.refused _

/-! ## Following the declared lengths -/

theorem keyShare_ok_iff {extData key : List UInt8} :
    keyShare extData = .ok key ↔ u16At extData 0 = .ok 0x0017 ∧ ∃ keyLen,
      u16At extData 2 = .ok keyLen ∧ slice extData 4 (4 + keyLen) = .ok key := by
  constructor
  · intro found
    obtain ⟨_, _, found⟩ := bind_ok_iff.mp found
    obtain ⟨group, named, found⟩ := bind_ok_iff.mp found
    obtain ⟨_, wanted, found⟩ := bind_ok_iff.mp found
    obtain ⟨keyLen, length, found⟩ := bind_ok_iff.mp found
    obtain ⟨_, _, found⟩ := bind_ok_iff.mp found
    rw [ensure_ok_iff.mp wanted] at named
    exact ⟨named, keyLen, length, found⟩
  · rintro ⟨named, keyLen, length, sliced⟩
    rw [keyShare, ensure_bind (u16At_ok_le length), bind_ok named, ensure_bind rfl, bind_ok length,
      ensure_bind (slice_ok sliced).2.1, sliced]

/-- The key stands in the first `key_share` that the declared lengths lead to, behind the name of
P-256. The header lies inside the declared block, the data inside the body. -/
def Located (body key : List UInt8) : Prop :=
  ∃ exts extsEnd ext extLen extData, DeclaredBlock body exts extsEnd ∧
    Reaches body extsEnd 0x0033 exts ext ∧ u16At body (ext + 2) = .ok extLen ∧
    slice body (ext + 4) (ext + 4 + extLen) = .ok extData ∧
    u16At extData 0 = .ok 0x0017 ∧ ∃ keyLen, u16At extData 2 = .ok keyLen ∧
      slice extData 4 (4 + keyLen) = .ok key

theorem findKeyShare_ok_iff {body key : List UInt8} :
    findKeyShare body = .ok key ↔ Located body key := by
  constructor
  · intro found
    obtain ⟨⟨exts, extsEnd⟩, declared, found⟩ := bind_ok_iff.mp found
    obtain ⟨ext, extLen, extData, reaches, length, sliced, entry⟩ := walkFrom_ok found
    exact ⟨exts, extsEnd, ext, extLen, extData, extensionsBlock_ok_iff.mp declared, reaches, length,
      sliced, keyShare_ok_iff.mp entry⟩
  · rintro ⟨exts, extsEnd, ext, extLen, extData, declared, reaches, length, sliced, entry⟩
    rw [findKeyShare, bind_ok (extensionsBlock_ok_iff.mpr declared), extensionsFrom,
      walkFrom_reaches declared.inside reaches length sliced]
    exact keyShare_ok_iff.mpr entry

/-! ## Well-formed bodies -/

/-- A `key_share` with its one entry, a named group with a key, or an extension of another type. -/
inductive Extension where
  | keyShare (entry : Item) (fits : entry.bytes.length < 65536)
  | other (item : Item) (differs : item.type ≠ 0x0033)

def Extension.item : Extension → Item
  | .keyShare entry fits => ⟨0x0033, entry.bytes, by omega, fits⟩
  | .other item _ => item

def Extension.isKeyShare : Extension → Bool
  | .keyShare _ _ => true
  | .other _ _ => false

/-- A ServerHello body, each part of a size its length field can state. -/
structure ServerHello where
  version : List UInt8
  random : List UInt8
  sessionId : List UInt8
  cipherSuite : List UInt8
  compressionMethod : UInt8
  extensions : List Extension
  version_length : version.length = 2
  random_length : random.length = 32
  sessionId_fits : sessionId.length < 256
  cipherSuite_length : cipherSuite.length = 2
  extensions_fits : (itemsBytes (extensions.map Extension.item)).length < 65536

def ServerHello.fixedFields (hello : ServerHello) : List UInt8 :=
  hello.version ++ hello.random ++ [UInt8.ofNat hello.sessionId.length] ++ hello.sessionId ++
    hello.cipherSuite ++ [hello.compressionMethod] ++
      be16 (itemsBytes (hello.extensions.map Extension.item)).length

def ServerHello.bytes (hello : ServerHello) : List UInt8 :=
  hello.fixedFields ++ itemsBytes (hello.extensions.map Extension.item)

/-- The key of the first `key_share`, which has to be one for P-256. -/
def ServerHello.keyShare (hello : ServerHello) : Checked (List UInt8) :=
  match hello.extensions.find? Extension.isKeyShare with
  | some (.keyShare entry _) =>
    if entry.type = 0x0017 then .ok entry.content
    else .error (.error "SH key_share: unexpected group (expected P-256)")
  | _ => .error (.error "SH: key_share extension not found")

theorem ServerHello.fixedFields_length (hello : ServerHello) :
    hello.fixedFields.length = 40 + hello.sessionId.length := by
  have version := hello.version_length
  have random := hello.random_length
  have suite := hello.cipherSuite_length
  simp only [ServerHello.fixedFields, List.length_append, List.length_singleton, be16_length]
  omega

theorem ServerHello.declared (hello : ServerHello) :
    DeclaredBlock hello.bytes hello.fixedFields.length hello.bytes.length := by
  have version := hello.version_length
  have random := hello.random_length
  have suite := hello.cipherSuite_length
  have sid := byte_toNat hello.sessionId_fits
  have fixed := hello.fixedFields_length
  have total : hello.bytes.length = 40 + hello.sessionId.length +
      (itemsBytes (hello.extensions.map Extension.item)).length := by
    rw [ServerHello.bytes, List.length_append, fixed]
  have sidLen : index hello.bytes 34 = .ok (UInt8.ofNat hello.sessionId.length) := by
    have parts : hello.bytes = (hello.version ++ hello.random) ++
        UInt8.ofNat hello.sessionId.length :: (hello.sessionId ++ hello.cipherSuite ++
          [hello.compressionMethod] ++
          be16 (itemsBytes (hello.extensions.map Extension.item)).length ++
          itemsBytes (hello.extensions.map Extension.item)) := by
      simp [ServerHello.bytes, ServerHello.fixedFields]
    exact index_at parts (by simp only [List.length_append]; omega)
  have extsLen : u16At hello.bytes (38 + hello.sessionId.length) =
      .ok (itemsBytes (hello.extensions.map Extension.item)).length := by
    have parts : hello.bytes = (hello.version ++ hello.random ++
        [UInt8.ofNat hello.sessionId.length] ++ hello.sessionId ++ hello.cipherSuite ++
        [hello.compressionMethod]) ++
          (be16 (itemsBytes (hello.extensions.map Extension.item)).length ++
            itemsBytes (hello.extensions.map Extension.item)) := by
      simp [ServerHello.bytes, ServerHello.fixedFields]
    exact u16At_at hello.extensions_fits parts
      (by simp only [List.length_append, List.length_singleton]; omega)
  exact ⟨_, _, sidLen, sid.symm ▸ extsLen, by omega, by omega, Nat.le_refl _⟩

theorem item_is_keyShare (extension : Extension) :
    decide (extension.item.type = 0x0033) = extension.isKeyShare := by
  cases extension with
  | keyShare entry fits => rfl
  | other item differs => exact decide_eq_false differs

theorem find_item_keyShare (extensions : List Extension) :
    (extensions.map Extension.item).find? (fun i => i.type = 0x0033) =
      (extensions.find? Extension.isKeyShare).map Extension.item := by
  rw [List.find?_map, show (fun i : Item => decide (i.type = 0x0033)) ∘ Extension.item =
    Extension.isKeyShare from funext item_is_keyShare]

theorem keyShare_entry (entry : Item) :
    keyShare entry.bytes = if entry.type = 0x0017 then .ok entry.content
      else .error (.error "SH key_share: unexpected group (expected P-256)") := by
  have group : u16At entry.bytes 0 = .ok entry.type :=
    u16At_at entry.type_small (List.nil_append _).symm rfl
  have length : u16At entry.bytes 2 = .ok entry.content.length :=
    u16At_at entry.content_small (Item.bytes.eq_1 entry) rfl
  have content : slice entry.bytes 4 (4 + entry.content.length) = .ok entry.content :=
    slice_at (by simp [Item.bytes] : entry.bytes =
      (be16 entry.type ++ be16 entry.content.length) ++ (entry.content ++ [])) rfl rfl
  have total := entry.bytes_length
  rw [keyShare, ensure_bind (by omega), bind_ok group]
  by_cases named : entry.type = 0x0017
  · rw [ensure_bind named, bind_ok length, ensure_bind (by omega), content, if_pos named]
  · rw [if_neg named, ensure, if_neg named]
    rfl

/-- Every well-formed body is read as it was meant. -/
theorem findKeyShare_hello (hello : ServerHello) : findKeyShare hello.bytes = hello.keyShare := by
  have split : hello.bytes = hello.fixedFields ++
      (itemsBytes (hello.extensions.map Extension.item) ++ []) := by
    simp [ServerHello.bytes]
  have total : hello.fixedFields.length +
      (itemsBytes (hello.extensions.map Extension.item)).length = hello.bytes.length := by
    rw [ServerHello.bytes, List.length_append]
  rw [findKeyShare, bind_ok (extensionsBlock_ok_iff.mpr hello.declared), extensionsFrom,
    walkFrom_items split total, find_item_keyShare, ServerHello.keyShare]
  cases found : hello.extensions.find? Extension.isKeyShare with
  | none => rfl
  | some extension =>
    cases extension with
    | other item differs => cases List.find?_some found
    | keyShare entry fits => exact keyShare_entry entry

/-! ## The body the server builds -/

theorem buildServerHello_offers {serverRandom pkBytes : List UInt8}
    (random_length : serverRandom.length = 32) (point : pkBytes.length = 65) :
    ∃ hello : ServerHello, hello.bytes = buildServerHello serverRandom pkBytes ∧
      hello.keyShare = .ok pkBytes := by
  have group : be16 0x0017 = [0x00, 0x17] := rfl
  refine ⟨{
    version := LEGACY_VERSION
    random := serverRandom
    sessionId := []
    cipherSuite := CIPHER_SUITE
    compressionMethod := 0x00
    extensions :=
      [.other ⟨0x002b, TLS13_VERSION, by decide, by decide⟩ (by decide),
        .keyShare ⟨0x0017, pkBytes, by decide, by omega⟩ (by rw [Item.bytes_length, point]; decide)]
    version_length := rfl
    random_length := random_length
    sessionId_fits := by decide
    cipherSuite_length := rfl
    extensions_fits := by
      simp [itemsBytes, Extension.item, TLS13_VERSION]
      omega }, ?_, rfl⟩
  simp [ServerHello.bytes, ServerHello.fixedFields, buildServerHello, helloExtensions,
    pushExtension, itemsBytes, Extension.item, Item.bytes, CIPHER_SUITE, TLS13_VERSION, group]

theorem findKeyShare_built {serverRandom pkBytes : List UInt8}
    (random_length : serverRandom.length = 32) (point : pkBytes.length = 65) :
    findKeyShare (buildServerHello serverRandom pkBytes) = .ok pkBytes := by
  obtain ⟨hello, bytes, offered⟩ := buildServerHello_offers random_length point
  rw [← bytes, findKeyShare_hello, offered]

/-- No index out of range; a key just where the declared lengths lead to one; the meant
key of every well-formed body; and the server's own point from the body it builds. -/
theorem server_hello_read (body : List UInt8) :
    (∀ {PublicKey : Type} (fromSec1Bytes : List UInt8 → Option PublicKey),
        extractServerKeyShare fromSec1Bytes body ≠ .error .outOfRange) ∧
      (∀ key, findKeyShare body = .ok key ↔ Located body key) ∧
      (∀ hello : ServerHello, hello.bytes = body → findKeyShare body = hello.keyShare) ∧
      ∀ serverRandom pkBytes : List UInt8, serverRandom.length = 32 → pkBytes.length = 65 →
        buildServerHello serverRandom pkBytes = body → findKeyShare body = .ok pkBytes := by
  refine ⟨?_, fun key => findKeyShare_ok_iff, ?_, ?_⟩
  · intro _ fromSec1Bytes
    exact extractServerKeyShare_inRange fromSec1Bytes body
  · rintro hello rfl
    exact findKeyShare_hello hello
  · rintro serverRandom pkBytes random_length point rfl
    exact findKeyShare_built random_length point

end TlsServerHello
