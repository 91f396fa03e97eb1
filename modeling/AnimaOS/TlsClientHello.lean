import AnimaOS.TlsRecords

/-!
# The client's key share

`build_client_hello` writes a ClientHello body and `extract_client_key_share` looks
for the P-256 key in one: through the fixed fields to the extensions, from extension
to extension, and in the first `key_share` from entry to entry.
-/

namespace TlsClientHello

open ByteReader TlsRecords

/-- TLS 1.3 version (used in supported_versions extension): 0x0304. -/
def TLS13_VERSION : List UInt8 := [0x03, 0x04]

/-- TLS_AES_128_GCM_SHA256 cipher suite identifier. -/
def CIPHER_SUITE : List UInt8 := [0x13, 0x01]

/-! ## Building -/

def pushExtension (buf : List UInt8) (extType : Nat) (data : List UInt8) : List UInt8 :=
  buf ++ be16 extType ++ be16 data.length ++ data

/-- The four extensions; `pkBytes` is the uncompressed point of the public key. -/
def helloExtensions (pkBytes : List UInt8) : List UInt8 :=
  pushExtension (pushExtension (pushExtension (pushExtension []
    0x002b ([0x02] ++ TLS13_VERSION))
    0x000a ([0x00, 0x02] ++ [0x00, 0x17]))
    0x000d ([0x00, 0x02] ++ [0x04, 0x03]))
    0x0033 (be16 (2 + 2 + pkBytes.length) ++ [0x00, 0x17] ++ be16 pkBytes.length ++ pkBytes)

def buildClientHello (clientRandom pkBytes : List UInt8) : List UInt8 :=
  LEGACY_VERSION ++ clientRandom ++ [0x00] ++ [0x00, 0x02] ++ CIPHER_SUITE ++ [0x01, 0x00] ++
    be16 (helloExtensions pkBytes).length ++ helloExtensions pkBytes

/-! ## Extracting -/

/-- The fixed fields: where the extensions begin and where they are declared to end. -/
def extensionsBlock (body : List UInt8) : Checked (Nat × Nat) := do
  ensure (34 < body.length) "CH: truncated at session_id_len"
  let sidLen ← index body 34
  ensure (35 + sidLen.toNat + 2 ≤ body.length) "CH: truncated at cipher_suites_len"
  let csLen ← u16At body (35 + sidLen.toNat)
  ensure (37 + sidLen.toNat + csLen < body.length) "CH: truncated at compression_methods_len"
  let cmLen ← index body (37 + sidLen.toNat + csLen)
  ensure (38 + sidLen.toNat + csLen + cmLen.toNat + 2 ≤ body.length)
    "CH: truncated at extensions_len"
  let extsLen ← u16At body (38 + sidLen.toNat + csLen + cmLen.toNat)
  ensure (40 + sidLen.toNat + csLen + cmLen.toNat + extsLen ≤ body.length)
    "CH: extensions extend beyond body"
  return (40 + sidLen.toNat + csLen + cmLen.toNat,
    40 + sidLen.toNat + csLen + cmLen.toNat + extsLen)

/-- The loop over the entries of `client_shares`, whose declared end is `listEnd`. -/
def entriesFrom (extData : List UInt8) (listEnd p : Nat) : Checked (List UInt8) :=
  if _inside : p + 4 ≤ listEnd ∧ p + 4 ≤ extData.length then do
    let group ← u16At extData p
    let keLen ← u16At extData (p + 2)
    if group = 0x0017 then do
      -- compared with the extension's end, not with the list's
      ensure (p + 4 + keLen ≤ extData.length) "CH: key_share entry out of bounds"
      slice extData (p + 4) (p + 4 + keLen)
    else entriesFrom extData listEnd (p + 4 + keLen)
  else .error (.error "CH: no P-256 key share found")
termination_by listEnd - p

def keyShare (extData : List UInt8) : Checked (List UInt8) := do
  ensure (2 ≤ extData.length) "key_share: too short"
  let listLen ← u16At extData 0
  entriesFrom extData (2 + listLen) 2

/-- The loop over the extensions. An extension is compared with the end of the body, not with
`extsEnd`. -/
def extensionsFrom : List UInt8 → Nat → Nat → Checked (List UInt8) :=
  walkFrom ⟨0x0033, "CH: extension data out of bounds", "CH: key_share extension not found",
    keyShare⟩

/-- The bytes handed to the point decoder. -/
def findKeyShare (body : List UInt8) : Checked (List UInt8) := do
  let block ← extensionsBlock body
  extensionsFrom body block.2 block.1

def extractClientKeyShare {PublicKey : Type} (fromSec1Bytes : List UInt8 → Option PublicKey)
    (body : List UInt8) : Checked PublicKey := do
  let pkBytes ← findKeyShare body
  match fromSec1Bytes pkBytes with
  | some publicKey => .ok publicKey
  | none => .error (.error "CH: invalid P-256 public key")

/-- The fixed fields declare an extensions block from `exts` to `extsEnd`, inside the
body. -/
def DeclaredBlock (body : List UInt8) (exts extsEnd : Nat) : Prop :=
  ∃ sidLen csLen cmLen extsLen, index body 34 = .ok sidLen ∧
    u16At body (35 + sidLen.toNat) = .ok csLen ∧
    index body (37 + sidLen.toNat + csLen) = .ok cmLen ∧
    u16At body (38 + sidLen.toNat + csLen + cmLen.toNat) = .ok extsLen ∧
    exts = 40 + sidLen.toNat + csLen + cmLen.toNat ∧ extsEnd = exts + extsLen ∧
    extsEnd ≤ body.length

theorem DeclaredBlock.inside {body : List UInt8} {exts extsEnd : Nat}
    (declared : DeclaredBlock body exts extsEnd) : extsEnd ≤ body.length := by
  obtain ⟨_, _, _, _, _, _, _, _, _, _, inside⟩ := declared
  exact inside

theorem extensionsBlock_ok_iff {body : List UInt8} {exts extsEnd : Nat} :
    extensionsBlock body = .ok (exts, extsEnd) ↔ DeclaredBlock body exts extsEnd := by
  constructor
  · intro parsed
    obtain ⟨_, _, parsed⟩ := bind_ok_iff.mp parsed
    obtain ⟨sidLen, sid, parsed⟩ := bind_ok_iff.mp parsed
    obtain ⟨_, _, parsed⟩ := bind_ok_iff.mp parsed
    obtain ⟨csLen, cs, parsed⟩ := bind_ok_iff.mp parsed
    obtain ⟨_, _, parsed⟩ := bind_ok_iff.mp parsed
    obtain ⟨cmLen, cm, parsed⟩ := bind_ok_iff.mp parsed
    obtain ⟨_, _, parsed⟩ := bind_ok_iff.mp parsed
    obtain ⟨extsLen, len, parsed⟩ := bind_ok_iff.mp parsed
    obtain ⟨_, fits, parsed⟩ := bind_ok_iff.mp parsed
    cases parsed
    exact ⟨sidLen, csLen, cmLen, extsLen, sid, cs, cm, len, rfl, rfl, ensure_ok_iff.mp fits⟩
  · rintro ⟨sidLen, csLen, cmLen, extsLen, sid, cs, cm, len, rfl, rfl, fits⟩
    rw [extensionsBlock, ensure_bind (index_ok_lt sid), bind_ok sid,
      ensure_bind (u16At_ok_le cs), bind_ok cs, ensure_bind (index_ok_lt cm), bind_ok cm,
      ensure_bind (u16At_ok_le len), bind_ok len, ensure_bind fits]
    rfl

/-! ## No index out of range -/

theorem extensionsBlock_inRange (body : List UInt8) : InRange (extensionsBlock body) := by
  apply InRange.bind (InRange.ensure _ _)
  intro _ sidField
  have sidInside := ensure_ok_iff.mp sidField
  apply InRange.bind (InRange.index sidInside)
  intro sidLen _
  apply InRange.bind (InRange.ensure _ _)
  intro _ csField
  apply InRange.bind (InRange.u16At (ensure_ok_iff.mp csField))
  intro csLen _
  apply InRange.bind (InRange.ensure _ _)
  intro _ cmField
  apply InRange.bind (InRange.index (ensure_ok_iff.mp cmField))
  intro cmLen _
  apply InRange.bind (InRange.ensure _ _)
  intro _ extsField
  apply InRange.bind (InRange.u16At (ensure_ok_iff.mp extsField))
  intro extsLen _
  apply InRange.bind (InRange.ensure _ _)
  intro _ _
  exact InRange.ok _

theorem entriesFrom_inRange (extData : List UInt8) (listEnd p : Nat) :
    InRange (entriesFrom extData listEnd p) := by
  fun_induction entriesFrom extData listEnd p with
  | case1 p inside ih =>
    apply InRange.bind (InRange.u16At (by omega))
    intro group _
    apply InRange.bind (InRange.u16At (by omega))
    intro keLen _
    by_cases wanted : group = 0x0017
    · rw [if_pos wanted]
      apply InRange.bind (InRange.ensure _ _)
      intro _ fits
      exact InRange.slice (by omega) (ensure_ok_iff.mp fits)
    · rw [if_neg wanted]
      exact ih keLen
  | case2 p _ => exact InRange.refused _

theorem keyShare_inRange (extData : List UInt8) : InRange (keyShare extData) := by
  apply InRange.bind (InRange.ensure _ _)
  intro _ long
  apply InRange.bind (InRange.u16At (ensure_ok_iff.mp long))
  intro listLen _
  exact entriesFrom_inRange extData (2 + listLen) 2

theorem findKeyShare_inRange (body : List UInt8) : InRange (findKeyShare body) := by
  apply InRange.bind (extensionsBlock_inRange body)
  intro block declared
  exact walkFrom_inRange keyShare_inRange (extensionsBlock_ok_iff.mp declared).inside block.1

theorem extractClientKeyShare_inRange {PublicKey : Type}
    (fromSec1Bytes : List UInt8 → Option PublicKey) (body : List UInt8) :
    InRange (extractClientKeyShare fromSec1Bytes body) := by
  apply InRange.bind (findKeyShare_inRange body)
  intro pkBytes _
  split
  · exact InRange.ok _
  · exact InRange.refused _

/-! ## Where the key bytes stand -/

/-- Positions of a key share in a body; `entry` counts inside the extension's data. -/
structure Share where
  exts : Nat
  extsEnd : Nat
  ext : Nat
  extData : List UInt8
  listLen : Nat
  entry : Nat
  keyLen : Nat

def Share.key (share : Share) : List UInt8 :=
  (share.extData.drop (share.entry + 4)).take share.keyLen

/-- The first P-256 entry of the first `key_share`, reached by the declared lengths;
the extension ends inside the body and the entry inside the extension. -/
structure Located (body : List UInt8) (share : Share) : Prop where
  block : DeclaredBlock body share.exts share.extsEnd
  ext_first : Reaches body share.extsEnd 0x0033 share.exts share.ext
  ext_data : ∃ extLen, u16At body (share.ext + 2) = .ok extLen ∧
    slice body (share.ext + 4) (share.ext + 4 + extLen) = .ok share.extData
  list_len : u16At share.extData 0 = .ok share.listLen
  entry_first : Reaches share.extData (min (2 + share.listLen) share.extData.length) 0x0017 2
    share.entry
  key_len : u16At share.extData (share.entry + 2) = .ok share.keyLen
  key_inside : share.entry + 4 + share.keyLen ≤ share.extData.length

/-- Each part ends inside the part around it. -/
structure Nested (share : Share) : Prop where
  ext : share.ext + 4 + share.extData.length ≤ share.extsEnd
  list : 2 + share.listLen ≤ share.extData.length
  entry : share.entry + 4 + share.keyLen ≤ 2 + share.listLen

theorem entriesFrom_ok {extData : List UInt8} {listEnd p : Nat} {key : List UInt8}
    (found : entriesFrom extData listEnd p = .ok key) :
    ∃ entry keyLen, Reaches extData (min listEnd extData.length) 0x0017 p entry ∧
      u16At extData (entry + 2) = .ok keyLen ∧ entry + 4 + keyLen ≤ extData.length ∧
      key = (extData.drop (entry + 4)).take keyLen := by
  fun_induction entriesFrom extData listEnd p with
  | case1 p inside ih =>
    obtain ⟨group, type, found⟩ := bind_ok_iff.mp found
    obtain ⟨keLen, length, found⟩ := bind_ok_iff.mp found
    by_cases wanted : group = 0x0017
    · rw [if_pos wanted] at found
      obtain ⟨_, fits, found⟩ := bind_ok_iff.mp found
      obtain ⟨_, _, key_eq⟩ := slice_ok found
      rw [wanted] at type
      refine ⟨p, keLen, .here (by omega) type, length, ensure_ok_iff.mp fits, ?_⟩
      rw [key_eq, Nat.add_sub_cancel_left]
    · rw [if_neg wanted] at found
      obtain ⟨entry, keyLen, reaches, rest⟩ := ih keLen found
      exact ⟨entry, keyLen, .hop (by omega) type wanted length reaches, rest⟩
  | case2 p _ => cases found

theorem entriesFrom_reaches {extData : List UInt8} {listEnd p entry keyLen : Nat}
    (reaches : Reaches extData (min listEnd extData.length) 0x0017 p entry)
    (length : u16At extData (entry + 2) = .ok keyLen)
    (fits : entry + 4 + keyLen ≤ extData.length) :
    entriesFrom extData listEnd p = .ok ((extData.drop (entry + 4)).take keyLen) := by
  induction reaches with
  | here inside type =>
    rw [entriesFrom, dif_pos (by omega), bind_ok type, bind_ok length, if_pos rfl,
      ensure_bind fits, slice_inside (by omega) fits, Nat.add_sub_cancel_left]
  | hop inside type differs length' _ ih =>
    rw [entriesFrom, dif_pos (by omega), bind_ok type, bind_ok length', if_neg differs]
    exact ih length fits

theorem keyShare_ok {extData key : List UInt8} (found : keyShare extData = .ok key) :
    ∃ listLen entry keyLen, u16At extData 0 = .ok listLen ∧
      Reaches extData (min (2 + listLen) extData.length) 0x0017 2 entry ∧
      u16At extData (entry + 2) = .ok keyLen ∧ entry + 4 + keyLen ≤ extData.length ∧
      key = (extData.drop (entry + 4)).take keyLen := by
  obtain ⟨_, _, found⟩ := bind_ok_iff.mp found
  obtain ⟨listLen, read, found⟩ := bind_ok_iff.mp found
  obtain ⟨entry, keyLen, rest⟩ := entriesFrom_ok found
  exact ⟨listLen, entry, keyLen, read, rest⟩

/-- What is handed to the decoder stands where the declared lengths lead. -/
theorem findKeyShare_located {body key : List UInt8} (found : findKeyShare body = .ok key) :
    ∃ share, Located body share ∧ key = share.key := by
  obtain ⟨⟨exts, extsEnd⟩, declared, found⟩ := bind_ok_iff.mp found
  obtain ⟨ext, extLen, extData, ext_first, ext_len, sliced, found⟩ := walkFrom_ok found
  obtain ⟨listLen, entry, keyLen, list_len, entry_first, key_len, inside, key_eq⟩ :=
    keyShare_ok found
  exact ⟨⟨exts, extsEnd, ext, extData, listLen, entry, keyLen⟩,
    ⟨extensionsBlock_ok_iff.mp declared, ext_first, ⟨extLen, ext_len, sliced⟩, list_len,
      entry_first, key_len, inside⟩, key_eq⟩

theorem Located.found {body : List UInt8} {share : Share} (located : Located body share) :
    findKeyShare body = .ok share.key := by
  obtain ⟨block, ext_first, ⟨extLen, ext_len, sliced⟩, list_len, entry_first, key_len, inside⟩ :=
    located
  have within := block.inside
  have declared := extensionsBlock_ok_iff.mpr block
  have long := u16At_ok_le list_len
  rw [findKeyShare, bind_ok declared]
  have read : extensionsFrom body share.extsEnd share.exts = keyShare share.extData :=
    walkFrom_reaches within ext_first ext_len sliced
  rw [read, keyShare, ensure_bind long, bind_ok list_len]
  exact entriesFrom_reaches entry_first key_len inside

theorem Located.unique {body : List UInt8} {share other : Share} (located : Located body share)
    (again : Located body other) : share = other := by
  obtain ⟨exts, extsEnd, ext, extData, listLen, entry, keyLen⟩ := share
  obtain ⟨exts', extsEnd', ext', extData', listLen', entry', keyLen'⟩ := other
  have blocks := (extensionsBlock_ok_iff.mpr located.block).symm.trans
    (extensionsBlock_ok_iff.mpr again.block)
  cases blocks
  cases located.ext_first.unique again.ext_first
  obtain ⟨extLen, ext_len, sliced⟩ := located.ext_data
  obtain ⟨extLen', ext_len', sliced'⟩ := again.ext_data
  cases ext_len.symm.trans ext_len'
  cases sliced.symm.trans sliced'
  cases located.list_len.symm.trans again.list_len
  cases located.entry_first.unique again.entry_first
  cases located.key_len.symm.trans again.key_len
  rfl

/-! ## Well-formed bodies -/

/-- A `key_share` with its entries, or an extension of another type. -/
inductive Extension where
  | keyShare (entries : List Item) (fits : 2 + (itemsBytes entries).length < 65536)
  | other (item : Item) (differs : item.type ≠ 0x0033)

def Extension.item : Extension → Item
  | .keyShare entries fits =>
    { type := 0x0033
      content := be16 (itemsBytes entries).length ++ itemsBytes entries
      type_small := by omega
      content_small := by simpa using fits }
  | .other item _ => item

def Extension.isKeyShare : Extension → Bool
  | .keyShare _ _ => true
  | .other _ _ => false

/-- A ClientHello body, each part of a size its length field can state. -/
structure ClientHello where
  version : List UInt8
  random : List UInt8
  sessionId : List UInt8
  cipherSuites : List UInt8
  compressionMethods : List UInt8
  extensions : List Extension
  version_length : version.length = 2
  random_length : random.length = 32
  sessionId_fits : sessionId.length < 256
  cipherSuites_fits : cipherSuites.length < 65536
  compressionMethods_fits : compressionMethods.length < 256
  extensions_fits : (itemsBytes (extensions.map Extension.item)).length < 65536

def ClientHello.fixedFields (hello : ClientHello) : List UInt8 :=
  hello.version ++ hello.random ++ [UInt8.ofNat hello.sessionId.length] ++ hello.sessionId ++
    be16 hello.cipherSuites.length ++ hello.cipherSuites ++
    [UInt8.ofNat hello.compressionMethods.length] ++ hello.compressionMethods ++
    be16 (itemsBytes (hello.extensions.map Extension.item)).length

def ClientHello.bytes (hello : ClientHello) : List UInt8 :=
  hello.fixedFields ++ itemsBytes (hello.extensions.map Extension.item)

/-- The key of the first P-256 entry of the first `key_share`. -/
def ClientHello.keyShare (hello : ClientHello) : Checked (List UInt8) :=
  match hello.extensions.find? Extension.isKeyShare with
  | some (.keyShare entries _) =>
    match entries.find? (fun entry => entry.type = 0x0017) with
    | some entry => .ok entry.content
    | none => .error (.error "CH: no P-256 key share found")
  | _ => .error (.error "CH: key_share extension not found")

theorem entriesFrom_misses {extData : List UInt8} {listEnd p : Nat}
    (fits : listEnd ≤ extData.length) (misses : Misses extData listEnd 0x0017 p) :
    entriesFrom extData listEnd p = .error (.error "CH: no P-256 key share found") := by
  induction misses with
  | done outside => rw [entriesFrom, dif_neg (by omega)]
  | hop inside type differs length _ _ ih =>
    rw [entriesFrom, dif_pos (by omega), bind_ok type, bind_ok length, if_neg differs]
    exact ih

theorem keyShare_entries {entries : List Item} (fits : (itemsBytes entries).length < 65536) :
    keyShare (be16 (itemsBytes entries).length ++ itemsBytes entries) =
      match entries.find? (fun entry => entry.type = 0x0017) with
      | some entry => .ok entry.content
      | none => .error (.error "CH: no P-256 key share found") := by
  have length : (be16 (itemsBytes entries).length ++ itemsBytes entries).length =
      2 + (itemsBytes entries).length := by
    simp
  have list_len : u16At (be16 (itemsBytes entries).length ++ itemsBytes entries) 0 =
      .ok (itemsBytes entries).length :=
    u16At_at fits (List.nil_append _).symm rfl
  rw [keyShare, ensure_bind (by omega), bind_ok list_len]
  cases found : entries.find? (fun entry => entry.type = 0x0017) with
  | none =>
    have differ : ∀ entry ∈ entries, entry.type ≠ 0x0017 := by
      simpa using found
    have misses := misses_items differ
      (show be16 (itemsBytes entries).length ++ itemsBytes entries =
        be16 (itemsBytes entries).length ++ (itemsBytes entries ++ []) by simp)
      (show 2 + (itemsBytes entries).length = 2 + (itemsBytes entries).length from rfl)
    exact entriesFrom_misses (by omega) misses
  | some entry =>
    have split : be16 (itemsBytes entries).length ++ itemsBytes entries =
        be16 (itemsBytes entries).length ++ (itemsBytes entries ++ []) := by
      simp
    have limit : min (2 + (itemsBytes entries).length)
        (be16 (itemsBytes entries).length ++ itemsBytes entries).length =
          2 + (itemsBytes entries).length := by
      omega
    obtain ⟨pos, reaches, key_len, content, inside⟩ := find_items found split (Nat.le_refl _)
    rw [be16_length] at reaches inside
    obtain ⟨_, _, key⟩ := slice_ok content
    rw [Nat.add_sub_cancel_left] at key
    rw [entriesFrom_reaches (limit.symm ▸ reaches) key_len (by omega)]
    exact congrArg Except.ok key.symm

theorem ClientHello.fixedFields_length (hello : ClientHello) :
    hello.fixedFields.length = 40 + hello.sessionId.length + hello.cipherSuites.length +
      hello.compressionMethods.length := by
  have version := hello.version_length
  have random := hello.random_length
  simp only [ClientHello.fixedFields, List.length_append, List.length_singleton, be16_length]
  omega

theorem byte_toNat {n : Nat} (small : n < 256) : (UInt8.ofNat n).toNat = n := by
  rw [UInt8.toNat_ofNat']
  exact Nat.mod_eq_of_lt small

theorem ClientHello.declared (hello : ClientHello) :
    DeclaredBlock hello.bytes hello.fixedFields.length hello.bytes.length := by
  have version := hello.version_length
  have random := hello.random_length
  have sid := byte_toNat hello.sessionId_fits
  have cm := byte_toNat hello.compressionMethods_fits
  have length := hello.fixedFields_length
  refine ⟨UInt8.ofNat hello.sessionId.length, hello.cipherSuites.length,
    UInt8.ofNat hello.compressionMethods.length,
    (itemsBytes (hello.extensions.map Extension.item)).length, ?_, ?_, ?_, ?_, ?_, ?_, ?_⟩
  · have parts : hello.bytes = (hello.version ++ hello.random) ++
        UInt8.ofNat hello.sessionId.length :: (hello.sessionId ++
          be16 hello.cipherSuites.length ++ hello.cipherSuites ++
          [UInt8.ofNat hello.compressionMethods.length] ++ hello.compressionMethods ++
          be16 (itemsBytes (hello.extensions.map Extension.item)).length ++
          itemsBytes (hello.extensions.map Extension.item)) := by
      simp [ClientHello.bytes, ClientHello.fixedFields]
    exact index_at parts (by simp only [List.length_append]; omega)
  · have parts : hello.bytes = (hello.version ++ hello.random ++
        [UInt8.ofNat hello.sessionId.length] ++ hello.sessionId) ++
          (be16 hello.cipherSuites.length ++ (hello.cipherSuites ++
          [UInt8.ofNat hello.compressionMethods.length] ++ hello.compressionMethods ++
          be16 (itemsBytes (hello.extensions.map Extension.item)).length ++
          itemsBytes (hello.extensions.map Extension.item))) := by
      simp [ClientHello.bytes, ClientHello.fixedFields]
    exact u16At_at hello.cipherSuites_fits parts
      (by simp only [List.length_append, List.length_singleton]; omega)
  · have parts : hello.bytes = (hello.version ++ hello.random ++
        [UInt8.ofNat hello.sessionId.length] ++ hello.sessionId ++
          be16 hello.cipherSuites.length ++ hello.cipherSuites) ++
          UInt8.ofNat hello.compressionMethods.length :: (hello.compressionMethods ++
          be16 (itemsBytes (hello.extensions.map Extension.item)).length ++
          itemsBytes (hello.extensions.map Extension.item)) := by
      simp [ClientHello.bytes, ClientHello.fixedFields]
    exact index_at parts
      (by simp only [List.length_append, List.length_singleton, be16_length]; omega)
  · have parts : hello.bytes = (hello.version ++ hello.random ++
        [UInt8.ofNat hello.sessionId.length] ++ hello.sessionId ++
          be16 hello.cipherSuites.length ++ hello.cipherSuites ++
          [UInt8.ofNat hello.compressionMethods.length] ++ hello.compressionMethods) ++
          (be16 (itemsBytes (hello.extensions.map Extension.item)).length ++
          itemsBytes (hello.extensions.map Extension.item)) := by
      simp [ClientHello.bytes, ClientHello.fixedFields]
    exact u16At_at hello.extensions_fits parts
      (by simp only [List.length_append, List.length_singleton, be16_length]; omega)
  · omega
  · rw [ClientHello.bytes, List.length_append]
  · exact Nat.le_refl _

theorem item_is_keyShare (extension : Extension) :
    decide (extension.item.type = 0x0033) = extension.isKeyShare := by
  cases extension with
  | keyShare entries fits => rfl
  | other item differs => exact decide_eq_false differs

theorem find_item_keyShare (extensions : List Extension) :
    (extensions.map Extension.item).find? (fun i => i.type = 0x0033) =
      (extensions.find? Extension.isKeyShare).map Extension.item := by
  rw [List.find?_map, show (fun i : Item => decide (i.type = 0x0033)) ∘ Extension.item =
    Extension.isKeyShare from funext item_is_keyShare]

/-- Every well-formed body is read as it was meant. -/
theorem findKeyShare_hello (hello : ClientHello) : findKeyShare hello.bytes = hello.keyShare := by
  have split : hello.bytes = hello.fixedFields ++
      (itemsBytes (hello.extensions.map Extension.item) ++ []) := by
    simp [ClientHello.bytes]
  have total : hello.fixedFields.length +
      (itemsBytes (hello.extensions.map Extension.item)).length = hello.bytes.length := by
    rw [ClientHello.bytes, List.length_append]
  rw [findKeyShare, bind_ok (extensionsBlock_ok_iff.mpr hello.declared), extensionsFrom,
    walkFrom_items split total, find_item_keyShare, ClientHello.keyShare]
  cases found : hello.extensions.find? Extension.isKeyShare with
  | none => rfl
  | some extension =>
    cases extension with
    | other item differs => cases List.find?_some found
    | keyShare entries fits =>
      have entries_fit : (itemsBytes entries).length < 65536 := by omega
      exact keyShare_entries entries_fit

/-! ## The body the client builds -/

/-- With an uncompressed point of 65 bytes it is well-formed and offers that point. -/
theorem buildClientHello_offers {clientRandom pkBytes : List UInt8}
    (random_length : clientRandom.length = 32) (point : pkBytes.length = 65) :
    ∃ hello : ClientHello, hello.bytes = buildClientHello clientRandom pkBytes ∧
      hello.keyShare = .ok pkBytes := by
  have group : be16 0x0017 = [0x00, 0x17] := rfl
  have suites : be16 2 = [0x00, 0x02] := rfl
  refine ⟨{
    version := LEGACY_VERSION
    random := clientRandom
    sessionId := []
    cipherSuites := CIPHER_SUITE
    compressionMethods := [0x00]
    extensions :=
      [.other ⟨0x002b, [0x02] ++ TLS13_VERSION, by decide, by decide⟩ (by decide),
        .other ⟨0x000a, [0x00, 0x02, 0x00, 0x17], by decide, by decide⟩ (by decide),
        .other ⟨0x000d, [0x00, 0x02, 0x04, 0x03], by decide, by decide⟩ (by decide),
        .keyShare [⟨0x0017, pkBytes, by decide, by omega⟩] (by simp [itemsBytes]; omega)]
    version_length := rfl
    random_length := random_length
    sessionId_fits := by decide
    cipherSuites_fits := by decide
    compressionMethods_fits := by decide
    extensions_fits := by
      simp [itemsBytes, Extension.item, TLS13_VERSION]
      omega }, ?_, rfl⟩
  simp [ClientHello.bytes, ClientHello.fixedFields, buildClientHello,
    helloExtensions, pushExtension, itemsBytes, Extension.item, Item.bytes, CIPHER_SUITE,
    TLS13_VERSION, group, suites, point]

theorem findKeyShare_built {clientRandom pkBytes : List UInt8}
    (random_length : clientRandom.length = 32) (point : pkBytes.length = 65) :
    findKeyShare (buildClientHello clientRandom pkBytes) = .ok pkBytes := by
  obtain ⟨hello, bytes, offered⟩ := buildClientHello_offers random_length point
  rw [← bytes, findKeyShare_hello, offered]

/-! ## What parsing exactly takes -/

/-- No index out of range, whatever the decoder; the meant key of a well-formed body;
and only key bytes whose list, extension and extensions block each end inside what
is around them. -/
structure ParsesExactly (body : List UInt8) : Prop where
  safe : ∀ {PublicKey : Type} (fromSec1Bytes : List UInt8 → Option PublicKey),
    extractClientKeyShare fromSec1Bytes body ≠ .error .outOfRange
  well_formed : ∀ hello : ClientHello, hello.bytes = body → findKeyShare body = hello.keyShare
  contained : ∀ key, findKeyShare body = .ok key →
    ∃ share, Located body share ∧ Nested share ∧ key = share.key

/-- The two loops compare with the end of the body and of the extension; that is exact
just where the declared ends hold as well. -/
theorem parses_exactly_iff (body : List UInt8) :
    ParsesExactly body ↔ ∀ share, Located body share → Nested share := by
  constructor
  · intro parses share located
    obtain ⟨other, again, nested, _⟩ := parses.contained share.key located.found
    cases located.unique again
    exact nested
  · intro nests
    constructor
    · intro _ fromSec1Bytes
      exact extractClientKeyShare_inRange fromSec1Bytes body
    · rintro hello rfl
      exact findKeyShare_hello hello
    · intro key found
      obtain ⟨share, located, key_eq⟩ := findKeyShare_located found
      exact ⟨share, located, nests share located, key_eq⟩

/-- An extensions block of four bytes: the header of a `key_share` whose eight bytes of
data follow behind the block. -/
def overrunBody : List UInt8 :=
  List.replicate 34 0 ++ [0, 0, 2, 0x13, 1, 1, 0, 0, 4, 0, 0x33, 0, 8, 0, 6, 0, 0x17, 0, 2, 4, 5]

def overrunShare : Share where
  exts := 43
  extsEnd := 47
  ext := 43
  extData := [0, 6, 0, 0x17, 0, 2, 4, 5]
  listLen := 6
  entry := 2
  keyLen := 2

theorem overrunShare_located : Located overrunBody overrunShare where
  block := ⟨0, 2, 1, 4, rfl, rfl, rfl, rfl, rfl, rfl, by decide⟩
  ext_first := .here (by decide) rfl
  ext_data := ⟨8, rfl, rfl⟩
  list_len := rfl
  entry_first := .here (by decide) rfl
  key_len := rfl
  key_inside := by decide

/-- Its two key bytes are handed to the decoder all the same. -/
theorem overrun_handed_over :
    findKeyShare overrunBody = .ok [4, 5] ∧ ¬ ParsesExactly overrunBody := by
  refine ⟨overrunShare_located.found, ?_⟩
  intro parses
  obtain ⟨share, located, nested, _⟩ := parses.contained overrunShare.key overrunShare_located.found
  cases located.unique overrunShare_located
  have beyond : ¬ 43 + 4 + 8 ≤ 47 := by omega
  exact beyond nested.ext

end TlsClientHello
