import AnimaOS.HashChain
import AnimaOS.Numerals
import AnimaOS.TextLines
import AnimaOS.TextSplit

/-!
# The audit log and its integrity chain

A log file of lines and beside it a sidecar of MACs, each computed from the one
before and the line. The handles of a log share both files; a push appends its
line under one lock and its MAC under another. The MAC function is a parameter.
-/

namespace AuditChain

open HashChain Numerals TextLines TextSplit

/-! ## MACs and their hexadecimal form -/

structure Mac where
  bytes : List UInt8
  size : bytes.length = 32
  deriving DecidableEq, Repr

/-- The MAC before the first line. -/
def genesis : Mac := ⟨List.replicate 32 0, List.length_replicate⟩

def hexChar (n : Nat) : Char := "0123456789abcdef".toList.getD n '0'

def byteHex (b : UInt8) : List Char := [hexChar (b >>> 4).toNat, hexChar (b &&& 0x0f).toNat]

def toHex (mac : Mac) : List Char := mac.bytes.flatMap byteHex

def decodePairs : List Char → Option (List UInt8)
  | [] => some []
  | [_] => none
  | hi :: lo :: rest =>
    match toDigit 16 hi, toDigit 16 lo, decodePairs rest with
    | some hi, some lo, some bytes => some (UInt8.ofNat (hi * 16 + lo) :: bytes)
    | _, _, _ => none

def byteLength (text : List Char) : Nat := (text.map Char.utf8Size).sum

/-- The length is checked in bytes; a character of several bytes has no digit value. -/
def fromHex (text : List Char) : Option Mac :=
  let text := trimWhitespace text
  if byteLength text ≠ 64 then none
  else
    match decodePairs text with
    | none => none
    | some bytes => if size : bytes.length = 32 then some ⟨bytes, size⟩ else none

/-! ## Verification -/

inductive ChainVerification where
  | ok (entries : Nat)
  | lengthMismatch (jsonlLines chainLines : Nat)
  | tampered (index : Nat)
  | malformedChainLine (index : Nat)
  deriving DecidableEq, Repr

/-- The authentication code of a key, the MAC before and a line. -/
abbrev Hmac := List UInt8 → Mac → List Char → Mac

def verifyFrom (hmac : Hmac) (key : List UInt8) (entries : Nat) (prev : Mac) (i : Nat) :
    List (List Char × List Char) → ChainVerification
  | [] => .ok entries
  | (line, recorded) :: rest =>
    match fromHex recorded with
    | none => .malformedChainLine i
    | some recordedMac =>
      let mac := hmac key prev line
      if mac ≠ recordedMac then .tampered i else verifyFrom hmac key entries mac (i + 1) rest

def verifyAuditChain (hmac : Hmac) (key : List UInt8) (jsonl chain : List Char) :
    ChainVerification :=
  let jsonl := lines jsonl
  let chain := lines chain
  if jsonl.length ≠ chain.length then .lengthMismatch jsonl.length chain.length
  else verifyFrom hmac key jsonl.length genesis 0 (jsonl.zip chain)

/-- The MAC on the last line that is not blank; the genesis MAC where there is none to read. -/
def readLastChainMac (chain : List Char) : Mac :=
  let last := ((lines chain).filter fun line => trimWhitespace line ≠ []).getLast?
  (last.bind fromHex).getD genesis

/-! ## Writers -/

/-- A serialised entry: its control characters are escaped, so it has no line break. -/
structure Line where
  text : List Char
  unbroken : Unbroken text

instance : DecidableEq Line := fun a b =>
  decidable_of_iff (a.text = b.text) (by cases a; cases b; simp)

/-- The two files, the running MAC, and the handles whose push has appended its line and not yet
extended the chain, each with that line. -/
structure State where
  log : List Char
  chain : List Char
  prev : Mac
  inFlight : List (Nat × Line)

def withFileHmac (log chain : List Char) : State := ⟨log, chain, readLastChainMac chain, []⟩

def fresh : State := withFileHmac [] []

/-- The atomic steps. A handle's push is its `append` and then its `extend`; `reopen` drops every
handle and opens the files again. -/
inductive Action where
  | append (handle : Nat) (line : Line)
  | extend (handle : Nat)
  | reopen

def pendingLine (inFlight : List (Nat × Line)) (handle : Nat) : Option Line :=
  (inFlight.find? fun push => push.1 = handle).map Prod.snd

def settle (inFlight : List (Nat × Line)) (handle : Nat) : List (Nat × Line) :=
  inFlight.eraseP fun push => push.1 = handle

/-- One step, where it is possible: a handle makes one push at a time, and handles are dropped
between pushes. -/
def step (hmac : Hmac) (key : List UInt8) (s : State) : Action → Option State
  | .append handle line =>
    match pendingLine s.inFlight handle with
    | some _ => none
    | none =>
      some { s with
        log := s.log ++ line.text ++ ['\n']
        inFlight := s.inFlight ++ [(handle, line)] }
  | .extend handle =>
    match pendingLine s.inFlight handle with
    | none => none
    | some line =>
      let mac := hmac key s.prev line.text
      some { s with
        chain := s.chain ++ toHex mac ++ ['\n']
        prev := mac
        inFlight := settle s.inFlight handle }
  | .reopen => if s.inFlight.isEmpty then some (withFileHmac s.log s.chain) else none

def run (hmac : Hmac) (key : List UInt8) (schedule : List Action) : Option State :=
  schedule.foldlM (step hmac key) fresh

/-! ## Reading a MAC back -/

theorem hexChar_digit : ∀ n, n < 16 → toDigit 16 (hexChar n) = some n := by
  decide

theorem hexChar_plain : ∀ n, n < 16 → isWhitespace (hexChar n) = false ∧
    (hexChar n).utf8Size = 1 ∧ hexChar n ≠ '\n' ∧ hexChar n ≠ '\r' := by
  decide

theorem nibbles (b : UInt8) :
    (b >>> 4).toNat = b.toNat / 16 ∧ (b &&& 0x0f).toNat = b.toNat % 16 := by
  constructor
  · rw [UInt8.toNat_shiftRight]
    exact Nat.shiftRight_eq_div_pow b.toNat 4
  · rw [UInt8.toNat_and]
    exact Nat.and_two_pow_sub_one_eq_mod b.toNat 4

theorem nibbles_lt (b : UInt8) : (b >>> 4).toNat < 16 ∧ (b &&& 0x0f).toNat < 16 := by
  obtain ⟨high, low⟩ := nibbles b
  have small := b.toNat_lt
  omega

theorem nibbles_join (b : UInt8) :
    UInt8.ofNat ((b >>> 4).toNat * 16 + (b &&& 0x0f).toNat) = b := by
  obtain ⟨high, low⟩ := nibbles b
  rw [high, low, Nat.div_add_mod']
  exact UInt8.ofNat_toNat

theorem decodePairs_hex (bytes : List UInt8) : decodePairs (bytes.flatMap byteHex) = some bytes := by
  induction bytes with
  | nil => rfl
  | cons b rest ih =>
    obtain ⟨high, low⟩ := nibbles_lt b
    simp only [List.flatMap_cons, byteHex, List.cons_append, List.nil_append, decodePairs,
      hexChar_digit _ high, hexChar_digit _ low, ih, nibbles_join]

theorem mem_hex {bytes : List UInt8} {c : Char} (listed : c ∈ bytes.flatMap byteHex) :
    ∃ n, n < 16 ∧ c = hexChar n := by
  obtain ⟨b, -, digit⟩ := List.mem_flatMap.mp listed
  obtain ⟨high, low⟩ := nibbles_lt b
  rcases List.mem_cons.mp digit with rfl | digit
  · exact ⟨_, high, rfl⟩
  · exact ⟨_, low, List.mem_singleton.mp digit⟩

theorem hex_byteLength (bytes : List UInt8) :
    byteLength (bytes.flatMap byteHex) = 2 * bytes.length := by
  induction bytes with
  | nil => rfl
  | cons b rest ih =>
    obtain ⟨high, low⟩ := nibbles_lt b
    have first := (hexChar_plain _ high).2.1
    have second := (hexChar_plain _ low).2.1
    simp only [byteLength, List.flatMap_cons, byteHex, List.map_append, List.sum_append,
      List.map_cons, List.map_nil, List.sum_cons, List.sum_nil, first, second,
      List.length_cons] at ih ⊢
    omega

theorem toHex_solid (mac : Mac) : ∀ c ∈ toHex mac, isWhitespace c = false := by
  intro c listed
  obtain ⟨n, small, rfl⟩ := mem_hex listed
  exact (hexChar_plain n small).1

theorem toHex_unbroken (mac : Mac) : Unbroken (toHex mac) := by
  constructor
  · intro listed
    obtain ⟨n, small, same⟩ := mem_hex listed
    exact (hexChar_plain n small).2.2.1 same.symm
  · intro listed
    obtain ⟨n, small, same⟩ := mem_hex listed
    exact (hexChar_plain n small).2.2.2 same.symm

theorem fromHex_toHex (mac : Mac) : fromHex (toHex mac) = some mac := by
  have long : byteLength (toHex mac) = 64 := by
    rw [toHex, hex_byteLength, mac.size]
  simp only [fromHex, trimWhitespace_solid (toHex_solid mac), long, ne_eq, not_true_eq_false,
    if_false]
  rw [toHex, decodePairs_hex]
  exact dif_pos mac.size

theorem toHex_ne_nil (mac : Mac) : toHex mac ≠ [] := by
  intro none
  have long : byteLength (toHex mac) = 64 := by
    rw [toHex, hex_byteLength, mac.size]
  rw [none] at long
  cases long

theorem lines_chain (macs : List Mac) : lines (unlines (macs.map toHex)) = macs.map toHex := by
  apply lines_unlines
  intro line listed
  obtain ⟨mac, -, rfl⟩ := List.mem_map.mp listed
  exact toHex_unbroken mac

theorem readLastChainMac_chain (macs : List Mac) :
    readLastChainMac (unlines (macs.map toHex)) = macs.getLast?.getD genesis := by
  have solid : (macs.map toHex).filter (fun line => trimWhitespace line ≠ []) = macs.map toHex := by
    apply List.filter_eq_self.mpr
    intro line listed
    obtain ⟨mac, -, rfl⟩ := List.mem_map.mp listed
    rw [trimWhitespace_solid (toHex_solid mac)]
    exact decide_eq_true (toHex_ne_nil mac)
  simp only [readLastChainMac, lines_chain, solid, List.getLast?_map]
  cases macs.getLast? with
  | none => rfl
  | some mac => exact congrArg (fun read => Option.getD read genesis) (fromHex_toHex mac)

/-! ## What verification accepts -/

theorem verifyFrom_ok {hmac : Hmac} {key : List UInt8} {entries : Nat} {written : List (List Char)}
    {recorded : List Mac} (long : written.length = recorded.length) (prev : Mac) (i : Nat) :
    verifyFrom hmac key entries prev i (written.zip (recorded.map toHex)) = .ok entries ↔
      codes (hmac key) prev written = recorded := by
  induction written generalizing recorded prev i with
  | nil =>
    cases recorded with
    | nil => exact ⟨fun _ => rfl, fun _ => rfl⟩
    | cons mac macs => cases long
  | cons line rest ih =>
    cases recorded with
    | nil => cases long
    | cons mac macs =>
      simp only [List.map_cons, List.zip_cons_cons, verifyFrom, fromHex_toHex, codes]
      by_cases same : hmac key prev line = mac
      · subst same
        rw [if_neg (not_not_intro rfl), ih (Nat.succ.inj long)]
        exact ⟨fun tail => congrArg _ tail, fun all => (List.cons.inj all).2⟩
      · rw [if_pos same]
        constructor
        · rintro ⟨⟩
        · exact fun all => absurd (List.cons.inj all).1 same

theorem lines_log (written : List Line) :
    lines (unlines (written.map Line.text)) = written.map Line.text := by
  apply lines_unlines
  intro line listed
  obtain ⟨l, -, rfl⟩ := List.mem_map.mp listed
  exact l.unbroken

/-- A log and a sidecar of as many lines verify exactly when the MACs are those of the lines. -/
theorem verify_ok (hmac : Hmac) (key : List UInt8) {written : List Line} {recorded : List Mac}
    (long : written.length = recorded.length) :
    verifyAuditChain hmac key (unlines (written.map Line.text)) (unlines (recorded.map toHex)) =
        .ok written.length ↔
      codes (hmac key) genesis (written.map Line.text) = recorded := by
  simp only [verifyAuditChain, lines_log, lines_chain, List.length_map, long, ne_eq,
    not_true_eq_false, if_false]
  exact verifyFrom_ok (by rw [List.length_map, long]) genesis 0

end AuditChain
