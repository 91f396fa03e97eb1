import AnimaOS.TextSplit
import AnimaOS.Utf8Text

/-!
# Proposal ids in request paths

The request line and the approval routes of `ConsoleServer::handle`, with
`percent_decode`. An id that `encodeURIComponent` wrote comes back whole.
-/

namespace ApprovalRoutes

open TextSplit Utf8Text

/-! ## Percent decoding -/

def percent : UInt8 := 0x25

def hexNibble (b : UInt8) : Option UInt8 :=
  if 0x30 ≤ b ∧ b ≤ 0x39 then some (b - 0x30)
  else if 0x61 ≤ b ∧ b ≤ 0x66 then some (b - 0x61 + 10)
  else if 0x41 ≤ b ∧ b ≤ 0x46 then some (b - 0x41 + 10)
  else none

/-- The byte that two hexadecimal digits after a percent sign stand for. -/
def escaped (hi lo : UInt8) : Option UInt8 :=
  (hexNibble hi).bind fun h => (hexNibble lo).map fun l => h <<< 4 ||| l

/-- The loop of `percent_decode`: what is no escape passes through. -/
def decodeBytes : List UInt8 → List UInt8
  | [] => []
  | b :: hi :: lo :: rest =>
    if b = percent then
      match escaped hi lo with
      | some byte => byte :: decodeBytes rest
      | none => b :: decodeBytes (hi :: lo :: rest)
    else b :: decodeBytes (hi :: lo :: rest)
  | b :: rest => b :: decodeBytes rest

def isContinuation (b : UInt8) : Bool := 0x80 ≤ b ∧ b ≤ 0xbf

/-- The length of the character a byte starts; none starts with the others. -/
def charWidth (b : UInt8) : Nat :=
  if b < 0x80 then 1
  else if 0xc2 ≤ b ∧ b ≤ 0xdf then 2
  else if 0xe0 ≤ b ∧ b ≤ 0xef then 3
  else if 0xf0 ≤ b ∧ b ≤ 0xf4 then 4
  else 0

/-- Overlong forms, surrogates and what is past the last scalar break off here. -/
def fitsSecond (first second : UInt8) : Bool :=
  (if first = 0xe0 then 0xa0 else if first = 0xf0 then 0x90 else 0x80) ≤ second &&
    second ≤ (if first = 0xed then 0x9f else if first = 0xf4 then 0x8f else 0xbf)

/-- How many bytes there are of the character that the bytes after `first` go on with. -/
def subpart (first : UInt8) : List UInt8 → Nat
  | second :: later =>
    if 2 ≤ charWidth first ∧ fitsSecond first second then
      2 + ((later.take (charWidth first - 2)).takeWhile isContinuation).length
    else 1
  | [] => 1

theorem subpart_pos (first : UInt8) (rest : List UInt8) : 0 < subpart first rest := by
  cases rest with
  | nil => exact Nat.one_pos
  | cons second later =>
    rw [subpart]
    split <;> omega

/-- A character that breaks off becomes one replacement character. -/
def fromUtf8Lossy : List UInt8 → String
  | [] => ""
  | first :: rest =>
    (decode ((first :: rest).take (subpart first rest))).getD "\uFFFD" ++
      fromUtf8Lossy ((first :: rest).drop (subpart first rest))
termination_by raw => raw.length
decreasing_by
  have advance := subpart_pos first rest
  rw [List.length_drop, List.length_cons]
  omega

def percentDecode (s : List Char) : String :=
  match decode (decodeBytes (bytes (.ofList s))) with
  | some text => text
  | none => fromUtf8Lossy (decodeBytes (bytes (.ofList s)))

/-! ## The request line and the approval routes -/

def stripSuffix (tail text : List Char) : Option (List Char) :=
  if tail <:+ text then some (text.take (text.length - tail.length)) else none

structure RequestLine where
  method : List Char
  path : List Char
  query : List Char
  deriving DecidableEq, Repr

def readRequestLine (line : List Char) : RequestLine :=
  let parts := splitWhitespace line
  let method := parts.headD []
  let target := parts.tail.headD ['/']
  match splitOnce ['?'] target with
  | some (path, query) => ⟨method, path, query⟩
  | none => ⟨method, target, []⟩

/-- The id and whether it is approved; `none` goes on to the fixed routes. -/
def approvalRoute (request : RequestLine) : Option (String × Bool) :=
  if request.method = "POST".toList then
    (stripPrefix "/approval-queue/".toList request.path).bind fun rest =>
      match stripSuffix "/approve".toList rest with
      | some rawId => some (percentDecode rawId, true)
      | none =>
        (stripSuffix "/reject".toList rest).map fun rawId =>
          (percentDecode rawId, false)
  else none

/-! ## `encodeURIComponent` -/

/-- Letters, digits and `-_.!~*'()`. -/
def unreserved (b : UInt8) : Bool :=
  (0x41 ≤ b ∧ b ≤ 0x5a) || (0x61 ≤ b ∧ b ≤ 0x7a) || (0x30 ≤ b ∧ b ≤ 0x39) || b = 0x2d ||
    b = 0x5f || b = 0x2e || b = 0x21 || b = 0x7e || b = 0x2a || b = 0x27 || b = 0x28 || b = 0x29

def hexUpper (n : Nat) : Char := Char.ofNat (if n < 10 then n + 0x30 else n + 0x37)

def encodeByte (b : UInt8) : List Char :=
  if unreserved b then [Char.ofNat b.toNat]
  else ['%', hexUpper (b.toNat / 16), hexUpper (b.toNat % 16)]

def encodeURIComponent (s : String) : List Char := (bytes s).flatMap encodeByte

def action (approve : Bool) : String := if approve then "/approve" else "/reject"

/-- The path by which the dashboard answers a proposal. -/
def approvalPath (s : String) (approve : Bool) : List Char :=
  "/approval-queue/".toList ++ (encodeURIComponent s ++ (action approve).toList)

/-! ## Characters of an encoded id -/

/-- A visible ASCII character that ends neither a path nor a word. -/
def Plain (c : Char) : Prop := 0x21 ≤ c.toNat ∧ c.toNat < 0x7f ∧ c ≠ '?'

instance (c : Char) : Decidable (Plain c) := inferInstanceAs (Decidable (_ ∧ _ ∧ _))

theorem hexUpper_plain : ∀ n, n < 16 → Plain (hexUpper n) := by decide

theorem byteChar_toNat (b : UInt8) : (Char.ofNat b.toNat).toNat = b.toNat := by
  have size := b.toNat_lt
  have valid : b.toNat.isValidChar := Or.inl (by omega)
  rw [Char.ofNat, dif_pos valid]
  rfl

theorem unreserved_plain {b : UInt8} (free : unreserved b = true) :
    Plain (Char.ofNat b.toNat) ∧ b ≠ percent := by
  have size := b.toNat_lt
  have value := byteChar_toNat b
  simp only [unreserved, Bool.or_eq_true, decide_eq_true_eq, UInt8.le_iff_toNat_le,
    ← UInt8.toNat_inj] at free
  simp at free
  refine ⟨⟨?_, ?_, ?_⟩, ?_⟩
  · omega
  · omega
  · intro same
    rw [same] at value
    simp at value
    omega
  · rintro rfl
    simp [percent] at free

theorem encodeByte_plain (b : UInt8) : ∀ c ∈ encodeByte b, Plain c := by
  intro c listed
  have size := b.toNat_lt
  rw [encodeByte] at listed
  split at listed
  · rename_i free
    rw [List.mem_singleton.mp listed]
    exact (unreserved_plain free).1
  · simp only [List.mem_cons, List.not_mem_nil, or_false] at listed
    rcases listed with rfl | rfl | rfl
    · decide
    · exact hexUpper_plain _ (by omega)
    · exact hexUpper_plain _ (by omega)

theorem encoded_plain (s : String) : ∀ c ∈ encodeURIComponent s, Plain c := by
  intro c listed
  obtain ⟨b, -, inside⟩ := List.mem_flatMap.mp listed
  exact encodeByte_plain b c inside

/-! ## The round trip -/

theorem hexNibble_hexUpper : ∀ n, n < 16 →
    hexNibble (UInt8.ofNat (hexUpper n).toNat) = some (UInt8.ofNat n) := by
  decide

theorem escaped_digits (b : UInt8) :
    escaped (UInt8.ofNat (hexUpper (b.toNat / 16)).toNat)
      (UInt8.ofNat (hexUpper (b.toNat % 16)).toNat) = some b := by
  have size := b.toNat_lt
  rw [escaped, hexNibble_hexUpper _ (by omega), hexNibble_hexUpper _ (by omega)]
  have parts : (UInt8.ofNat (b.toNat / 16) <<< 4 ||| UInt8.ofNat (b.toNat % 16)).toNat =
      (b.toNat / 16) <<< 4 + b.toNat % 16 := by
    have high : b.toNat / 16 % 256 = b.toNat / 16 := Nat.mod_eq_of_lt (by omega)
    have low : b.toNat % 16 % 256 = b.toNat % 16 := Nat.mod_eq_of_lt (by omega)
    rw [Nat.shiftLeft_add_eq_or_of_lt (by omega : b.toNat % 16 < 2 ^ 4), Nat.shiftLeft_eq]
    have shifted : (b.toNat / 16) <<< 4 % 2 ^ 8 = b.toNat / 16 * 2 ^ 4 := by
      rw [Nat.shiftLeft_eq]
      omega
    simp only [UInt8.toNat_or, UInt8.toNat_shiftLeft, UInt8.toNat_ofNat', high, low]
    exact congrArg (· ||| b.toNat % 16) shifted
  apply congrArg some
  rw [← UInt8.toNat_inj, parts, Nat.shiftLeft_eq]
  omega

theorem decodeBytes_other {b : UInt8} (other : b ≠ percent) (rest : List UInt8) :
    decodeBytes (b :: rest) = b :: decodeBytes rest := by
  match rest with
  | [] => rfl
  | [_] => rfl
  | _ :: _ :: _ => rw [decodeBytes, if_neg other]

/-- An encoded byte is read back as itself. -/
theorem decodeBytes_encodeByte (b : UInt8) (rest : List UInt8) :
    decodeBytes ((encodeByte b).flatMap String.utf8EncodeChar ++ rest) =
      b :: decodeBytes rest := by
  by_cases free : unreserved b = true
  · obtain ⟨⟨low, high, -⟩, other⟩ := unreserved_plain free
    have single : String.utf8EncodeChar (Char.ofNat b.toNat) = [b] := by
      rw [encode_ascii (by omega), byteChar_toNat, UInt8.ofNat_toNat]
    rw [encodeByte, if_pos free, List.flatMap_singleton, single, List.singleton_append,
      decodeBytes_other other]
  · have size := b.toNat_lt
    have hi := (hexUpper_plain (b.toNat / 16) (by omega)).2.1
    have lo := (hexUpper_plain (b.toNat % 16) (by omega)).2.1
    have sign : String.utf8EncodeChar '%' = [percent] := encode_ascii (by decide)
    rw [encodeByte, if_neg free]
    simp only [List.flatMap_cons, List.flatMap_nil, sign, encode_ascii (hi.trans (by decide)),
      encode_ascii (lo.trans (by decide)), List.cons_append, List.nil_append, decodeBytes,
      if_true, escaped_digits]

theorem decodeBytes_encoded (raw : List UInt8) :
    decodeBytes ((raw.flatMap encodeByte).flatMap String.utf8EncodeChar) = raw := by
  induction raw with
  | nil => rfl
  | cons b rest ih =>
    rw [List.flatMap_cons, List.flatMap_append, decodeBytes_encodeByte, ih]

theorem percentDecode_encoded (s : String) :
    percentDecode (encodeURIComponent s) = s := by
  have same : decodeBytes (bytes (.ofList (encodeURIComponent s))) = bytes s := by
    rw [bytes_ofList, encodeURIComponent, decodeBytes_encoded]
  rw [percentDecode, same, decode_bytes]

/-! ## Routing -/

theorem stripSuffix_append (text tail : List Char) :
    stripSuffix tail (text ++ tail) = some text := by
  rw [stripSuffix, if_pos (List.suffix_append _ _), List.length_append, Nat.add_sub_cancel,
    List.take_left]

/-- Texts with other last characters do not share a suffix. -/
theorem stripSuffix_other {text tail : List Char} {c : Char} (last : text.getLast? = some c)
    (ends : tail.getLast? ≠ some c) (nonempty : tail ≠ []) : stripSuffix tail text = none := by
  apply if_neg
  rintro ⟨front, rfl⟩
  rw [List.getLast?_append_of_ne_nil _ nonempty] at last
  exact ends last

theorem approvalRoute_path (s : String) (approve : Bool)
    (query : List Char) :
    approvalRoute ⟨"POST".toList, approvalPath s approve, query⟩ =
      some (s, approve) := by
  have decoded := percentDecode_encoded s
  have inside : stripPrefix "/approval-queue/".toList (approvalPath s approve) =
      some (encodeURIComponent s ++ (action approve).toList) := stripPrefix_append _ _
  rw [approvalRoute, if_pos rfl, inside, Option.bind_some]
  cases approve with
  | true =>
    have stripped : stripSuffix "/approve".toList (encodeURIComponent s ++ (action true).toList) =
        some (encodeURIComponent s) := stripSuffix_append _ _
    rw [stripped]
    exact congrArg (fun id => some (id, true)) decoded
  | false =>
    have stripped : stripSuffix "/reject".toList (encodeURIComponent s ++ (action false).toList) =
        some (encodeURIComponent s) := stripSuffix_append _ _
    have last : (encodeURIComponent s ++ (action false).toList).getLast? = some 't' := by
      rw [List.getLast?_append_of_ne_nil _ (by decide)]
      decide
    have kept :
        stripSuffix "/approve".toList (encodeURIComponent s ++ (action false).toList) = none :=
      stripSuffix_other last (by decide) (by decide)
    rw [kept, stripped]
    exact congrArg (fun id => some (id, false)) decoded

theorem Plain.solid {c : Char} (plain : Plain c) : isWhitespace c = false := by
  obtain ⟨low, high, -⟩ := plain
  simp [isWhitespace]
  omega

theorem approvalPath_plain (s : String) (approve : Bool) :
    ∀ c ∈ approvalPath s approve, Plain c := by
  intro c listed
  rcases List.mem_append.mp listed with first | listed
  · have fixed : ∀ c ∈ "/approval-queue/".toList, Plain c := by simp [Plain]
    exact fixed c first
  · rcases List.mem_append.mp listed with inside | last
    · exact encoded_plain s c inside
    · have fixed : ∀ c ∈ (action approve).toList, Plain c := by
        cases approve <;> simp [action, Plain]
      exact fixed c last

/-- The path is the second word of its request line and holds no query. -/
theorem readRequestLine_path (s : String) (approve : Bool) (version : List Char) :
    readRequestLine ("POST ".toList ++ approvalPath s approve ++ ' ' :: version) =
      ⟨"POST".toList, approvalPath s approve, []⟩ := by
  have plain := approvalPath_plain s approve
  have method : ∀ c ∈ "POST".toList, Plain c := by simp [Plain]
  have nonempty : approvalPath s approve ≠ [] := List.cons_ne_nil _ _
  have words : splitWhitespace ("POST ".toList ++ approvalPath s approve ++ ' ' :: version) =
      "POST".toList :: approvalPath s approve :: splitWhitespace version := by
    have line : "POST ".toList ++ approvalPath s approve ++ ' ' :: version =
        "POST".toList ++ ' ' :: (approvalPath s approve ++ ' ' :: version) :=
      List.append_assoc _ _ _
    rw [line, splitWhitespace_word (fun c listed => (method c listed).solid) (by decide)
      (by decide), splitWhitespace_word (fun c listed => (plain c listed).solid) nonempty
      (by decide)]
  have whole : splitOnce ['?'] (approvalPath s approve) = none :=
    splitOnce_none fun listed => (plain '?' listed).2.2 rfl
  rw [readRequestLine, words]
  dsimp only [List.headD_cons, List.tail_cons]
  rw [whole]

/-- Every proposal id comes back from its encoding, and the path it is put in leads to that
proposal and that decision. -/
theorem proposal_id_survives (s : String) :
    percentDecode (encodeURIComponent s) = s ∧
      ∀ approve version, approvalRoute
        (readRequestLine ("POST ".toList ++ approvalPath s approve ++ ' ' :: version)) =
          some (s, approve) := by
  refine ⟨percentDecode_encoded s, ?_⟩
  intro approve version
  rw [readRequestLine_path, approvalRoute_path]

end ApprovalRoutes
