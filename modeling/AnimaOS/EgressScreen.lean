import AnimaOS.AddressSpelling
import AnimaOS.EgressGuard

/-!
# Private addresses do not pass the egress guard

The guard's parsers are complete for the `inet_aton` spellings and the IPv6
literals, so it classifies every private address it is given, however it is
written and whatever follows it in the URL.
-/

namespace EgressGuard

open AddressSpelling IpAddr Numerals TextSplit

/-! ## Numeric parts -/

theorem digits_not_hex {text : Text} (digits : ∀ c ∈ text, isDigit 16 c) :
    ['0', 'x'].isPrefixOf (toAsciiLowercase text) = false := by
  rw [← Bool.not_eq_true, List.isPrefixOf_iff_prefix]
  rintro ⟨rest, split⟩
  have marker : 'x' ∈ toAsciiLowercase text := by simp [← split]
  obtain ⟨c, hc, lowered⟩ := List.mem_map.mp marker
  have digit := digits c hc
  rw [isDigit, ← toDigit_toLower, lowered] at digit
  exact absurd digit (by decide)

theorem all_digits {radix : Nat} {text : Text} (digits : ∀ c ∈ text, isDigit radix c) :
    text.all (isDigit radix) = true := List.all_eq_true.mpr digits

theorem zero_numeral {radix : Nat} (small : 1 < radix) {text : Text} {n : Nat}
    (numeral : Numeral radix text n) : Numeral radix ('0' :: text) n := by
  have zero : toDigit radix '0' = some 0 := by
    simp [toDigit, Nat.lt_trans Nat.zero_lt_one small]
  constructor
  · exact List.cons_ne_nil _ _
  · rintro c (_ | ⟨_, hc⟩)
    · simp [isDigit, zero]
    · exact numeral.digits c hc
  · simp only [valueFrom_cons, zero]
    simpa using numeral.value

theorem parseNumericPart_complete {text : Text} {n : Nat} (part : PartSpelling text n)
    (fits : n ≤ u64Max) : parseNumericPart text = some n := by
  cases part with
  | decimal numeral noPrefix =>
    have notHex := digits_not_hex fun c hc => isDigit_mono (by decide) (numeral.digits c hc)
    have notOctal : (text.length > 1 && text.head? = some '0') = false := by
      rcases noPrefix with rfl | other
      · rfl
      · simp [other]
    rw [parseNumericPart, if_neg numeral.nonempty, notHex, if_neg Bool.false_ne_true, notOctal,
      if_neg Bool.false_ne_true, all_digits numeral.digits]
    exact fromStrRadix_complete (by decide) numeral fits
  | @octal text n numeral =>
    have whole := zero_numeral (by decide) numeral
    have notHex := digits_not_hex fun c hc => isDigit_mono (by decide) (whole.digits c hc)
    have octal : (('0' :: text).length > 1 && ('0' :: text).head? = some '0') = true := by
      have := List.length_pos_of_ne_nil numeral.nonempty
      simp [this]
    rw [parseNumericPart, if_neg whole.nonempty, notHex, if_neg Bool.false_ne_true, octal,
      if_pos rfl, all_digits whole.digits]
    exact fromStrRadix_complete (by decide) whole fits
  | @hex text n x marker numeral =>
    have lowered : toAsciiLowercase ('0' :: x :: text) = '0' :: 'x' :: toAsciiLowercase text := by
      rcases marker with rfl | rfl <;> rfl
    have isHex : ['0', 'x'].isPrefixOf (toAsciiLowercase ('0' :: x :: text)) = true := by
      simp [lowered]
    have lower := numeral.toLower
    have dropped : (toAsciiLowercase ('0' :: x :: text)).drop 2 = toAsciiLowercase text := by
      rw [lowered]
      rfl
    rw [parseNumericPart, if_neg (List.cons_ne_nil _ _), isHex, if_pos rfl]
    simp only [dropped]
    rw [if_neg (by simpa [toAsciiLowercase] using ⟨numeral.nonempty, fun a ha => by
      have digit := lower.digits a.toLower (List.mem_map_of_mem ha)
      simpa using digit⟩)]
    exact fromStrRadix_complete (by decide) lower fits

/-! ## Composition -/

/-- Bytes below a shifted value are joined by addition. -/
theorem shift_or {i high low : Nat} (h : low < 2 ^ i) : high <<< i ||| low = high * 2 ^ i + low := by
  rw [← Nat.shiftLeft_add_eq_or_of_lt h, Nat.shiftLeft_eq]

theorem compose_two {a b : Nat} (ha : a < 256) (hb : b < 2 ^ 24) :
    composeParts [a, b] = some (a * 2 ^ 24 + b) := by
  have bounds : (a > 0xff || b > 0x00ffffff) = false := by
    simp only [Bool.or_eq_false_iff, decide_eq_false_iff_not]
    omega
  simp only [composeParts, bounds, if_neg Bool.false_ne_true, shift_or hb]

theorem compose_three {a b c : Nat} (ha : a < 256) (hb : b < 256) (hc : c < 2 ^ 16) :
    composeParts [a, b, c] = some (a * 2 ^ 24 + b * 2 ^ 16 + c) := by
  have bounds : (a > 0xff || b > 0xff || c > 0xffff) = false := by
    simp only [Bool.or_eq_false_iff, decide_eq_false_iff_not]
    omega
  have high : a <<< 24 ||| b <<< 16 = (a * 256 + b) <<< 16 := by
    simp only [Nat.shiftLeft_eq]
    rw [← Nat.shiftLeft_eq a 24, shift_or (by omega)]
    omega
  simp only [composeParts, bounds, if_neg Bool.false_ne_true, high, shift_or hc]
  exact congrArg some (by omega)

theorem compose_four {a b c d : Nat} (ha : a < 256) (hb : b < 256) (hc : c < 256)
    (hd : d < 256) :
    composeParts [a, b, c, d] = some (a * 2 ^ 24 + b * 2 ^ 16 + c * 2 ^ 8 + d) := by
  have bounds : [a, b, c, d].any (· > 0xff) = false := by
    simp only [List.any_cons, List.any_nil, Bool.or_eq_false_iff, decide_eq_false_iff_not,
      Nat.not_lt, gt_iff_lt, and_true]
    omega
  have high : a <<< 24 ||| b <<< 16 = (a * 256 + b) <<< 16 := by
    simp only [Nat.shiftLeft_eq]
    rw [← Nat.shiftLeft_eq a 24, shift_or (by omega)]
    omega
  have middle : (a * 256 + b) <<< 16 ||| c <<< 8 = ((a * 256 + b) * 256 + c) <<< 8 := by
    simp only [Nat.shiftLeft_eq]
    rw [← Nat.shiftLeft_eq _ 16, shift_or (by omega)]
    omega
  rw [composeParts, bounds, if_neg Bool.false_ne_true, high, middle, shift_or hd]
  exact congrArg some (by omega)

theorem part_chars {text : Text} {n : Nat} (part : PartSpelling text n) :
    ∀ c ∈ text, isDigit 36 c := by
  cases part with
  | decimal numeral _ => exact fun c hc => isDigit_mono (by decide) (numeral.digits c hc)
  | octal numeral =>
    rintro c (_ | ⟨_, hc⟩)
    · rfl
    · exact isDigit_mono (by decide) (numeral.digits c hc)
  | hex marker numeral =>
    rintro c (_ | ⟨_, _ | ⟨_, hc⟩⟩)
    · rfl
    · rcases marker with rfl | rfl <;> rfl
    · exact isDigit_mono (by decide) (numeral.digits c hc)

theorem part_no_dot {text : Text} {n : Nat} (part : PartSpelling text n) : '.' ∉ text :=
  fun h => absurd (part_chars part '.' h) (by decide)

/-- What a spelling is to a parser that cuts at the dots: parts, their values, one address. -/
theorem inetAton_parts {text : Text} {value : Nat} (spelled : InetAton text value) :
    ∃ nums, (text.splitOn '.').length ≤ 4 ∧ value < 2 ^ 32 ∧ composeParts nums = some value ∧
      List.Forall₂ (fun part n => PartSpelling part n ∧ n < 2 ^ 32) (text.splitOn '.') nums := by
  have byte : ∀ {t : Text} {n : Nat}, PartSpelling t n → n < 256 →
      PartSpelling t n ∧ n < 2 ^ 32 := fun part small => ⟨part, by omega⟩
  cases spelled with
  | one part bound =>
    have whole := List.splitOn_eq_singleton (part_no_dot part)
    refine ⟨[value], ?_, bound, rfl, ?_⟩
    · simp [whole]
    · rw [whole]
      exact .cons ⟨part, bound⟩ .nil
  | @two t u a b first ha last hb =>
    have cut : (t ++ '.' :: u).splitOn '.' = [t, u] := by
      rw [List.splitOn_append_cons_self_of_not_mem (part_no_dot first),
        List.splitOn_eq_singleton (part_no_dot last)]
    refine ⟨[a, b], ?_, by omega, compose_two ha hb, ?_⟩
    · simp [cut]
    · rw [cut]
      exact .cons (byte first ha) (.cons ⟨last, by omega⟩ .nil)
  | @three t u v a b c first ha second hb last hc =>
    have cut : (t ++ '.' :: (u ++ '.' :: v)).splitOn '.' = [t, u, v] := by
      rw [List.splitOn_append_cons_self_of_not_mem (part_no_dot first),
        List.splitOn_append_cons_self_of_not_mem (part_no_dot second),
        List.splitOn_eq_singleton (part_no_dot last)]
    refine ⟨[a, b, c], ?_, by omega, compose_three ha hb hc, ?_⟩
    · simp [cut]
    · rw [cut]
      exact .cons (byte first ha) (.cons (byte second hb) (.cons ⟨last, by omega⟩ .nil))
  | @four t u v w a b c d first ha second hb third hc last hd =>
    have cut : (t ++ '.' :: (u ++ '.' :: (v ++ '.' :: w))).splitOn '.' = [t, u, v, w] := by
      rw [List.splitOn_append_cons_self_of_not_mem (part_no_dot first),
        List.splitOn_append_cons_self_of_not_mem (part_no_dot second),
        List.splitOn_append_cons_self_of_not_mem (part_no_dot third),
        List.splitOn_eq_singleton (part_no_dot last)]
    refine ⟨[a, b, c, d], ?_, by omega, compose_four ha hb hc hd, ?_⟩
    · simp [cut]
    · rw [cut]
      exact .cons (byte first ha) (.cons (byte second hb)
        (.cons (byte third hc) (.cons (byte last hd) .nil)))

theorem mapM_parts {read : Text → Option Nat} {parts : List Text} {nums : List Nat}
    (reads : ∀ {p : Text} {n : Nat}, PartSpelling p n → n < 2 ^ 32 → read p = some n)
    (spelled : List.Forall₂ (fun part n => PartSpelling part n ∧ n < 2 ^ 32) parts nums) :
    parts.mapM read = some nums := by
  induction spelled with
  | nil => rfl
  | cons part _ ih => simp [reads part.1 part.2, ih]

theorem parseIpv4Parts_complete {text : Text} {value : Nat} (spelled : InetAton text value) :
    parseIpv4Parts text = some (BitVec.ofNat 32 value) := by
  obtain ⟨nums, few, bound, composed, parts⟩ := inetAton_parts spelled
  have read : (text.splitOn '.').mapM parseNumericPart = some nums := by
    refine mapM_parts ?_ parts
    intro p n part small
    exact parseNumericPart_complete part (by unfold u64Max; omega)
  have long : ¬ (text.splitOn '.').length > 4 := by omega
  have large : ¬ value > 2 ^ 32 - 1 := by omega
  simp only [parseIpv4Parts, long, if_false, read, composed, Option.bind_eq_bind,
    Option.bind_some, large, Option.pure_def]

theorem parseIpv4_sound {text : Text} {addr : Ipv4Addr} (read : parseIpv4 text = some addr) :
    InetAton text addr.toNat := by
  simp only [parseIpv4, parseWith] at read
  split at read
  · cases read
  · split at read
    · rename_i quad
      cases read
      exact readIpv4Addr_sound quad
    · cases read

/-- The fast path and the numeric parts agree, so every spelling is read as its address. -/
theorem parseIpv4Any_complete {text : Text} {addr : Ipv4Addr}
    (spelled : InetAton text addr.toNat) : parseIpv4Any text = some addr := by
  have numeric : ∀ {other : Ipv4Addr}, InetAton text other.toNat →
      parseIpv4Parts text = some other := fun h => by
    simp only [parseIpv4Parts_complete h, BitVec.ofNat_toNat, BitVec.setWidth_eq]
  simp only [parseIpv4Any]
  cases fast : parseIpv4 text with
  | none => exact numeric spelled
  | some other =>
    have same := (numeric (parseIpv4_sound fast)).symm.trans (numeric spelled)
    exact same

/-! ## The URL around the host -/

inductive Port : Text → Prop where
  | absent : Port []
  | digits {ds : Text} (digits : ∀ c ∈ ds, isDigit 10 c) : Port (':' :: ds)

/-- Path, query and fragment: nothing, or any text from the first `/`, `?` or `#` on. -/
inductive Tail : Text → Prop where
  | absent : Tail []
  | starts {c : Char} (mark : c = '/' ∨ c = '?' ∨ c = '#') (rest : Text) : Tail (c :: rest)

/-- No character of an authority ends it. -/
def AuthorityText (text : Text) : Prop := '/' ∉ text ∧ '?' ∉ text ∧ '#' ∉ text

theorem AuthorityText.append {a b : Text} (ha : AuthorityText a) (hb : AuthorityText b) :
    AuthorityText (a ++ b) := by
  obtain ⟨a₁, a₂, a₃⟩ := ha
  obtain ⟨b₁, b₂, b₃⟩ := hb
  simp [AuthorityText, a₁, a₂, a₃, b₁, b₂, b₃]

theorem authorityOf_tail {tail : Text} (htail : Tail tail) : authorityOf tail = [] := by
  cases htail with
  | absent => rfl
  | starts mark rest =>
    rcases mark with rfl | rfl | rfl <;> simp [authorityOf, firstPiece]

theorem authorityOf_append {text tail : Text} (inside : AuthorityText text) (htail : Tail tail) :
    authorityOf (text ++ tail) = text := by
  obtain ⟨slash, question, hash⟩ := inside
  have ended := authorityOf_tail htail
  simp only [authorityOf] at ended ⊢
  rw [firstPiece_append slash, firstPiece_append question, firstPiece_append hash, ended,
    List.append_nil]

theorem parseSchemeHost_eq (toLowercase : Text → Text) {scheme authority tail : Text}
    (named : ':' ∉ scheme) (inside : AuthorityText authority) (htail : Tail tail) :
    parseSchemeHost toLowercase (scheme ++ "://".toList ++ (authority ++ tail)) =
      if stripPort (stripUserinfo authority) = [] then none
      else some (toLowercase scheme, stripPort (stripUserinfo authority)) := by
  have cut : splitOnce "://".toList (scheme ++ "://".toList ++ (authority ++ tail)) =
      some (scheme, authority ++ tail) := splitOnce_first named _
  simp only [parseSchemeHost, cut, authorityOf_append inside htail, Option.bind_eq_bind,
    Option.bind_some, Option.pure_def]

theorem stripUserinfo_none {authority : Text} (plain : '@' ∉ authority) :
    stripUserinfo authority = authority := by
  simp only [stripUserinfo, splitOnce_none plain]

theorem stripPort_bracket {inner : Text} (closed : ']' ∉ inner) (port : Text) :
    stripPort ('[' :: (inner ++ ']' :: port)) = '[' :: (inner ++ [']']) := by
  have fresh : ']' ∉ '[' :: inner := by simp [closed]
  have cut := splitOnce_char fresh port
  rw [List.cons_append] at cut
  simp [stripPort, cut]

theorem stripPort_name {host port : Text} (named : host ≠ []) (open' : host.head? ≠ some '[')
    (noColon : ':' ∉ host) (hport : Port port) : stripPort (host ++ port) = host := by
  have front : (host ++ port).head? ≠ some '[' := by
    rwa [List.head?_append_of_ne_nil _ named]
  simp only [stripPort, if_neg front]
  cases hport with
  | absent => rw [List.append_nil, rsplitOnce_none noColon]
  | @digits ds digits =>
    have fresh : ':' ∉ ds := fun h => absurd (digits ':' h) (by decide)
    rw [rsplitOnce_last fresh]
    simp only [all_digits digits, if_true]

/-- Whatever the scheme, a host the SSRF check refuses is denied. -/
theorem denied_of_ssrf {toLowercase : Text → Text} {guard : Guard} {url scheme host : Text}
    (parsed : parseSchemeHost toLowercase url = some (scheme, host))
    (refused : (ssrfCheck (stripBrackets host)).isSome) :
    (checkUrl toLowercase guard url).isDenied = true := by
  obtain ⟨reason, refused⟩ := Option.isSome_iff_exists.mp refused
  by_cases scheme : guard.allowedSchemes.any (fun s => eqIgnoreAsciiCase s scheme) = true
  · simp [checkUrl, parsed, scheme, refused, EgressVerdict.isDenied]
  · simp [checkUrl, parsed, scheme, EgressVerdict.isDenied]

/-! ## Spelled hosts -/

def AddressText (text : Text) : Prop := ∀ c ∈ text, isDigit 36 c ∨ c = '.' ∨ c = ':'

theorem AddressText.append {a b : Text} (ha : AddressText a) (hb : AddressText b) :
    AddressText (a ++ b) := fun c hc => (List.mem_append.mp hc).elim (ha c) (hb c)

theorem AddressText.cons {c : Char} (hc : c = '.' ∨ c = ':') {text : Text}
    (h : AddressText text) : AddressText (c :: text) := by
  rintro a (_ | ⟨_, ha⟩)
  · exact .inr hc
  · exact h a ha

theorem AddressText.avoids {text : Text} (h : AddressText text) {c : Char}
    (other : isDigit 36 c = false ∧ c ≠ '.' ∧ c ≠ ':') : c ∉ text := by
  intro hc
  rcases h c hc with digit | dot | colon
  · rw [other.1] at digit
    cases digit
  · exact other.2.1 dot
  · exact other.2.2 colon

theorem digits_address {text : Text} (digits : ∀ c ∈ text, isDigit 36 c) : AddressText text :=
  fun c hc => .inl (digits c hc)

theorem numeral_address {radix : Nat} (small : radix ≤ 36) {text : Text} {n : Nat}
    (numeral : Numeral radix text n) : AddressText text :=
  digits_address fun c hc => isDigit_mono small (numeral.digits c hc)

theorem inetAton_chars {text : Text} {value : Nat} (spelled : InetAton text value) :
    ∀ c ∈ text, isDigit 36 c ∨ c = '.' := by
  have joined : ∀ {a b : Text}, (∀ c ∈ a, isDigit 36 c) → (∀ c ∈ b, isDigit 36 c ∨ c = '.') →
      ∀ c ∈ a ++ '.' :: b, isDigit 36 c ∨ c = '.' := by
    intro a b ha hb c hc
    rcases List.mem_append.mp hc with hc | _ | ⟨_, hc⟩
    · exact .inl (ha c hc)
    · exact .inr rfl
    · exact hb c hc
  have single : ∀ {a : Text} {n : Nat}, PartSpelling a n → ∀ c ∈ a, isDigit 36 c ∨ c = '.' :=
    fun part c hc => .inl (part_chars part c hc)
  cases spelled with
  | one part _ => exact single part
  | two first _ last _ => exact joined (part_chars first) (single last)
  | three first _ second _ last _ =>
    exact joined (part_chars first) (joined (part_chars second) (single last))
  | four first _ second _ third _ last _ =>
    exact joined (part_chars first)
      (joined (part_chars second) (joined (part_chars third) (single last)))

theorem inetAton_address {text : Text} {value : Nat} (spelled : InetAton text value) :
    AddressText text := fun c hc => (inetAton_chars spelled c hc).imp_right .inl

theorem inetAton_avoids {text : Text} {value : Nat} (spelled : InetAton text value) {c : Char}
    (notDigit : isDigit 36 c = false) (notDot : c ≠ '.') : c ∉ text := by
  intro listed
  rcases inetAton_chars spelled c listed with digit | dot
  · rw [notDigit] at digit
    cases digit
  · exact notDot dot

theorem quad_address {text : Text} {addr : Ipv4Addr} (quad : DottedQuad text addr) :
    AddressText text := by
  obtain ⟨first, second, third, fourth⟩ := quad
  have octet : ∀ {t : Text} {n : Nat}, DecOctet t n → AddressText t :=
    fun o => numeral_address (by decide) o.numeral
  exact (octet first).append (.cons (.inl rfl) ((octet second).append (.cons (.inl rfl)
    ((octet third).append (.cons (.inl rfl) (octet fourth))))))

theorem groupList_address {quad : Prop} {text : Text} {gs : List Segment}
    (groups : GroupList quad text gs) : AddressText text := by
  induction groups with
  | group hex => exact numeral_address (by decide) hex.numeral
  | dotted _ dotted => exact quad_address dotted
  | cons hex _ ih => exact (numeral_address (by decide) hex.numeral).append (.cons (.inr rfl) ih)

theorem optionalGroups_address {quad : Prop} {text : Text} {gs : List Segment}
    (groups : OptionalGroups quad text gs) : AddressText text := by
  cases groups with
  | empty => exact fun c hc => absurd hc List.not_mem_nil
  | groups groups => exact groupList_address groups

theorem literal_address {text : Text} {addr : Ipv6Addr} (literal : Ipv6Literal text addr) :
    AddressText text := by
  cases literal with
  | full groups => exact groupList_address groups
  | elided head tail _ =>
    exact (optionalGroups_address head).append
      (.cons (.inr rfl) (.cons (.inr rfl) (optionalGroups_address tail)))

theorem literal_colon {text : Text} {addr : Ipv6Addr} (literal : Ipv6Literal text addr) :
    ':' ∈ text := by
  cases literal with
  | full groups =>
    have eight := addr.eight
    generalize addr.segments = gs at groups eight
    cases groups with
    | group _ => simp at eight
    | dotted _ _ => simp at eight
    | cons _ _ => simp
  | elided _ _ _ => simp

/-- A host that names an IPv4 address: as such, or embedded in a bracketed IPv6 literal. -/
inductive HostSpelling : Text → Ipv4Addr → Prop where
  | inetAton {host : Text} {v4 : Ipv4Addr} (spelled : InetAton host v4.toNat) :
      HostSpelling host v4
  | mapped {text : Text} {addr : Ipv6Addr} {v4 : Ipv4Addr} (literal : Ipv6Literal text addr)
      (embeds : addr.segments = [0, 0, 0, 0, 0, 0xffff, highSegment v4, lowSegment v4]) :
      HostSpelling ('[' :: (text ++ [']'])) v4
  | compatible {text : Text} {addr : Ipv6Addr} {v4 : Ipv4Addr} (literal : Ipv6Literal text addr)
      (embeds : addr.segments = [0, 0, 0, 0, 0, 0, highSegment v4, lowSegment v4]) :
      HostSpelling ('[' :: (text ++ [']'])) v4

theorem ipv4OfSegments_bytes (high low : Segment) :
    ipv4OfSegments high low =
      ipv4OfOctets (high.toNat / 256) (high.toNat % 256) (low.toNat / 256) (low.toNat % 256) := by
  have low8 : ∀ s : Segment, (s &&& 0xff).toNat % 256 = s.toNat % 256 := by
    intro s
    have mask : (s &&& 0xff).toNat = s.toNat % 2 ^ 8 := by
      rw [← Nat.and_two_pow_sub_one_eq_mod]
      rfl
    omega
  have high8 : ∀ s : Segment, (s >>> 8).toNat % 256 = s.toNat / 256 := by
    intro s
    have bound := s.isLt
    have shifted : (s >>> 8).toNat = s.toNat / 256 := by simp [Nat.shiftRight_eq_div_pow]
    omega
  simp only [ipv4OfSegments, low8, high8]

theorem ipv4OfSegments_segments (v4 : Ipv4Addr) :
    ipv4OfSegments (highSegment v4) (lowSegment v4) = v4 := by
  have bound := v4.isLt
  rw [ipv4OfSegments_bytes]
  apply BitVec.eq_of_toNat_eq
  simp only [ipv4OfOctets, highSegment, lowSegment, BitVec.toNat_ofNat]
  omega

/-- The two literals the extraction skips are themselves native loopback and unspecified. -/
theorem embedded_private {addr : Ipv6Addr} {v4 : Ipv4Addr} (hidden : isPrivateIpv4 v4 = true)
    (embeds : addr.segments = [0, 0, 0, 0, 0, 0xffff, highSegment v4, lowSegment v4] ∨
      addr.segments = [0, 0, 0, 0, 0, 0, highSegment v4, lowSegment v4]) :
    ((embeddedIpv4 addr).any isPrivateIpv4 || isPrivateIpv6 addr) = true := by
  rcases embeds with mapped | compatible
  · simp [embeddedIpv4, mapped, ipv4OfSegments_segments, hidden]
  · by_cases native : ¬ highSegment v4 = 0#16 ∨ 1#16 < lowSegment v4
    · simp [embeddedIpv4, compatible, native, ipv4OfSegments_segments, hidden]
    · obtain ⟨high, low⟩ := not_or.mp native
      rw [not_not.mp high] at compatible
      have small : lowSegment v4 = 0 ∨ lowSegment v4 = 1 := by
        bv_omega
      rcases small with zero | one
      · rw [zero] at compatible
        simp [isPrivateIpv6, compatible]
      · rw [one] at compatible
        simp [isPrivateIpv6, compatible]

theorem stripBrackets_plain {host : Text} (open' : host.head? ≠ some '[') :
    stripBrackets host = host := by
  simp [stripBrackets, open']

theorem stripBrackets_bracket (inner : Text) :
    stripBrackets ('[' :: (inner ++ [']'])) = inner := by
  have closed : ('[' :: (inner ++ [']'])).getLast? = some ']' := by
    rw [← List.cons_append, List.getLast?_concat]
  simp [stripBrackets, closed]

theorem head_not_bracket {text : Text} (address : AddressText text) : text.head? ≠ some '[' := by
  intro h
  exact address.avoids (by decide) (List.mem_of_head? h)

theorem ssrfCheck_plain {host : Text} (address : AddressText host)
    (refused : if ':' ∈ host then isPrivateLiteral6 host = true
      else (parseIpv4Any host).any isPrivateIpv4 = true) : (ssrfCheck host).isSome := by
  simp only [ssrfCheck]
  rw [stripBrackets_plain (head_not_bracket address)]
  by_cases named : namesLocalhost host = true
  · simp [named]
  · by_cases colon : ':' ∈ host
    · rw [if_pos colon] at refused
      simp [named, colon, refused]
    · rw [if_neg colon] at refused
      simp [named, colon, refused]

theorem literal_ssrf {text : Text} {addr : Ipv6Addr} (literal : Ipv6Literal text addr)
    (hidden : ((embeddedIpv4 addr).any isPrivateIpv4 || isPrivateIpv6 addr) = true) :
    (ssrfCheck (stripBrackets ('[' :: (text ++ [']'])))).isSome := by
  rw [stripBrackets_bracket]
  apply ssrfCheck_plain (literal_address literal)
  simp only [if_pos (literal_colon literal), isPrivateLiteral6, parseIpv6_complete literal]
  exact hidden

theorem inetAton_ssrf {host : Text} {v4 : Ipv4Addr} (spelled : InetAton host v4.toNat)
    (hidden : isPrivateIpv4 v4 = true) : (ssrfCheck (stripBrackets host)).isSome := by
  have address := inetAton_address spelled
  have noColon : ':' ∉ host := inetAton_avoids spelled rfl (by decide)
  rw [stripBrackets_plain (head_not_bracket address)]
  apply ssrfCheck_plain address
  simp only [if_neg noColon, parseIpv4Any_complete spelled]
  exact hidden

theorem spelling_ssrf {host : Text} {v4 : Ipv4Addr} (spelled : HostSpelling host v4)
    (hidden : isPrivateIpv4 v4 = true) : (ssrfCheck (stripBrackets host)).isSome := by
  cases spelled with
  | inetAton spelled => exact inetAton_ssrf spelled hidden
  | mapped literal embeds =>
    exact literal_ssrf literal (embedded_private hidden (.inl embeds))
  | compatible literal embeds =>
    exact literal_ssrf literal (embedded_private hidden (.inr embeds))

theorem address_authority {text : Text} (address : AddressText text) : AuthorityText text :=
  ⟨address.avoids (by decide), address.avoids (by decide), address.avoids (by decide)⟩

theorem port_address {port : Text} (hport : Port port) : AddressText port := by
  cases hport with
  | absent => exact fun c hc => absurd hc List.not_mem_nil
  | digits digits =>
    exact .cons (.inr rfl) (digits_address fun c hc => isDigit_mono (by decide) (digits c hc))

theorem bracket_authority {text : Text} (address : AddressText text) :
    AuthorityText ('[' :: (text ++ [']'])) := by
  obtain ⟨slash, question, hash⟩ := address_authority address
  simp [AuthorityText, slash, question, hash]

theorem part_nonempty {text : Text} {n : Nat} (part : PartSpelling text n) : text ≠ [] := by
  cases part with
  | decimal numeral _ => exact numeral.nonempty
  | octal _ => exact List.cons_ne_nil _ _
  | hex _ _ => exact List.cons_ne_nil _ _

theorem inetAton_nonempty {text : Text} {value : Nat} (spelled : InetAton text value) :
    text ≠ [] := by
  cases spelled with
  | one part _ => exact part_nonempty part
  | two _ _ _ _ => simp
  | three _ _ _ _ _ _ => simp
  | four _ _ _ _ _ _ _ _ => simp

/-- Nothing after a spelled host changes which host the guard vets. -/
theorem spelling_vetted {host : Text} {v4 : Ipv4Addr} (spelled : HostSpelling host v4)
    {port : Text} (hport : Port port) :
    AuthorityText (host ++ port) ∧ host ≠ [] ∧
      stripPort (stripUserinfo (host ++ port)) = host := by
  have portChars := port_address hport
  have bracketed : ∀ {text : Text}, AddressText text →
      AuthorityText (('[' :: (text ++ [']'])) ++ port) ∧ ('[' :: (text ++ [']'])) ≠ [] ∧
        stripPort (stripUserinfo (('[' :: (text ++ [']'])) ++ port)) = '[' :: (text ++ [']']) := by
    intro text address
    refine ⟨(bracket_authority address).append (address_authority portChars),
      List.cons_ne_nil _ _, ?_⟩
    have inner : '@' ∉ text := address.avoids (by decide)
    have outer : '@' ∉ port := portChars.avoids (by decide)
    have noAt : '@' ∉ ('[' :: (text ++ [']'])) ++ port := by simp [inner, outer]
    rw [stripUserinfo_none noAt, List.cons_append, List.append_assoc, List.singleton_append,
      stripPort_bracket (address.avoids (by decide))]
  cases spelled with
  | inetAton spelled =>
    have address := inetAton_address spelled
    have noColon : ':' ∉ host := inetAton_avoids spelled rfl (by decide)
    have named := inetAton_nonempty spelled
    refine ⟨(address_authority address).append (address_authority portChars), named, ?_⟩
    rw [stripUserinfo_none ((address.append portChars).avoids (by decide)),
      stripPort_name named (head_not_bracket address) noColon hport]
  | mapped literal _ => exact bracketed (literal_address literal)
  | compatible literal _ => exact bracketed (literal_address literal)

/-- Every spelling of a private IPv4 address is denied, whatever the guard allows. -/
theorem private_spelling_denied (toLowercase : Text → Text) (guard : Guard) (v4 : Ipv4Addr)
    (hidden : isPrivateIpv4 v4 = true) {host port tail : Text} (spelled : HostSpelling host v4)
    (hport : Port port) (htail : Tail tail) :
    (checkUrl toLowercase guard
      ("https".toList ++ "://".toList ++ (host ++ port ++ tail))).isDenied = true := by
  obtain ⟨inside, named, vetted⟩ := spelling_vetted spelled hport
  have parsed := parseSchemeHost_eq toLowercase (by decide : ':' ∉ "https".toList) inside htail
  simp only [vetted, if_neg named] at parsed
  exact denied_of_ssrf parsed (spelling_ssrf spelled hidden)

theorem private_spelling_denied_loopback :
    (checkUrl toAsciiLowercase Guard.default
      ("https".toList ++ "://".toList ++
        ("0X7f.1".toList ++ ":8443".toList ++ "/admin".toList))).isDenied = true := by
  have first : PartSpelling "0X7f".toList 127 :=
    .hex (.inr rfl) ⟨by decide, List.all_eq_true.mp rfl, rfl⟩
  have last : PartSpelling "1".toList 1 :=
    .decimal ⟨by decide, List.all_eq_true.mp rfl, rfl⟩ (.inr (by decide))
  have loopback : InetAton "0X7f.1".toList (0x7f000001#32).toNat :=
    .two first (by decide) last (by decide)
  have hport : Port (':' :: "8443".toList) := .digits (List.all_eq_true.mp rfl)
  have htail : Tail "/admin".toList := .starts (.inl rfl) _
  exact private_spelling_denied toAsciiLowercase Guard.default 0x7f000001#32 (by decide)
    (.inetAton loopback) hport htail

end EgressGuard
