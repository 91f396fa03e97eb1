import AnimaOS.AddressReaders
import AnimaOS.MotorGate
import AnimaOS.UrlAuthority

/-!
# The two SSRF guards

The motor gate and the egress guard each take a URL apart and classify the host
on their own. Where the host is an IP literal both verdicts come down to its
address, and they differ on a few ranges, on a trailing dot and on an authority
with more than one `@`.
-/

namespace GuardAgreement

open AddressSpelling IpAddr MotorGate Numerals TextSplit
open EgressGuard (AuthorityText Guard Port Tail checkUrl eqIgnoreAsciiCase embeddedIpv4
  isPrivateIpv4 isPrivateIpv6 ssrfCheck)

def trailingDot (dotted : Bool) : Text := if dotted then ['.'] else []

/-- An IP literal as the host of a URL, with or without a root dot. -/
inductive LiteralHost : Text → Address → Bool → Prop where
  | inetAton {text : Text} {v4 : Ipv4Addr} (spelled : InetAton text v4.toNat) (dotted : Bool) :
      LiteralHost (text ++ trailingDot dotted) (.v4 v4) dotted
  | bracket {text : Text} {addr : Ipv6Addr} (literal : Ipv6Literal text addr) (dotted : Bool) :
      LiteralHost ('[' :: (text ++ ']' :: trailingDot dotted)) (.v6 addr) dotted

/-- Everything up to the last `@` is user information. -/
inductive LiteralAuthority : Text → Address → Bool → Prop where
  | bare {host port : Text} {address : Address} {dotted : Bool}
      (literal : LiteralHost host address dotted) (hport : Port port) :
      LiteralAuthority (host ++ port) address dotted
  | userinfo (user : Text) {host port : Text} {address : Address} {dotted : Bool}
      (literal : LiteralHost host address dotted) (hport : Port port) :
      LiteralAuthority (user ++ '@' :: (host ++ port)) address dotted

def VetoedPrivate (gate : UnsafeMotorActionGate) (url method : Text) : Prop :=
  ∃ action, screenNetwork gate url method =
    .veto (.unsafeMotorAction action "ssrf-private-address".toList)

def DeniedPrivate (toLowercase : Text → Text) (guard : Guard) (url : Text) : Prop :=
  ∃ address, checkUrl toLowercase guard url = .deny (.ssrfPrivateAddress address)

/-! ## What the motor gate makes of a literal -/

def unmapped : Address → Address
  | .v4 addr => .v4 addr
  | .v6 addr => (toIpv4Mapped addr).elim (.v6 addr) .v4

theorem parseInetNumber_complete {text : Text} {n : Nat} (part : PartSpelling text n)
    (fits : n < 2 ^ 32) : parseInetNumber text = some n := by
  have small : n ≤ 4294967295 := by omega
  cases part with
  | decimal numeral noPrefix =>
    have filled := numeral.nonempty
    by_cases zero : text = ['0']
    · subst zero
      have value : n = 0 := numeral.value.symm
      rw [value]
      rfl
    · have other := noPrefix.resolve_left zero
      have read := fromStrRadix_complete (by decide) numeral small
      cases text with
      | nil => exact absurd rfl filled
      | cons c rest =>
        have different : c ≠ '0' := fun same => other (by rw [same, List.head?_cons])
        simp only [parseInetNumber, if_neg zero]
        split <;> simp_all
  | @octal rest _ numeral =>
    have filled := numeral.nonempty
    have read := fromStrRadix_complete (by decide) numeral small
    cases rest with
    | nil => exact absurd rfl filled
    | cons c rest =>
      have digit := numeral.digits c List.mem_cons_self
      have lower : c ≠ 'x' := by
        rintro rfl
        exact absurd digit (by decide)
      have upper : c ≠ 'X' := by
        rintro rfl
        exact absurd digit (by decide)
      simp [parseInetNumber, lower, upper, read]
  | @hex rest _ x marker numeral =>
    have filled := numeral.nonempty
    have read := fromStrRadix_complete (by decide) numeral small
    rcases marker with rfl | rfl
    · simp [parseInetNumber, filled, read]
    · simp [parseInetNumber, filled, read]

theorem composeNumbers_eq (nums : List Nat) :
    composeNumbers nums = EgressGuard.composeParts nums := by
  match nums with
  | [] => rfl
  | [a] => rfl
  | [a, b] =>
    simp only [composeNumbers, EgressGuard.composeParts, Bool.or_eq_true, decide_eq_true_eq]
    split <;> split <;> first | rfl | omega
  | [a, b, c] =>
    simp only [composeNumbers, EgressGuard.composeParts, Bool.or_eq_true, decide_eq_true_eq]
    split <;> split <;> first | rfl | omega
  | [a, b, c, d] =>
    simp only [composeNumbers, EgressGuard.composeParts, List.any_cons, List.any_nil,
      Bool.or_eq_true, decide_eq_true_eq, Bool.false_eq_true, or_false]
    split <;> split <;> first | rfl | omega
  | _ :: _ :: _ :: _ :: _ :: _ => rfl

theorem parseIpv4Relaxed_complete {text : Text} {addr : Ipv4Addr}
    (spelled : InetAton text addr.toNat) : parseIpv4Relaxed text = some addr := by
  obtain ⟨nums, few, bound, composed, parts⟩ := EgressGuard.inetAton_parts spelled
  have read := EgressGuard.mapM_parts parseInetNumber_complete parts
  have filled : text.isEmpty = false := by simpa using EgressGuard.inetAton_nonempty spelled
  have long : ¬ (text.splitOn '.').length > 4 := by omega
  rw [← composeNumbers_eq] at composed
  simp [parseIpv4Relaxed, filled, long, read, composed]

/-- A spelling names one address. -/
theorem inetAton_unique {text : Text} {a b : Ipv4Addr} (ha : InetAton text a.toNat)
    (hb : InetAton text b.toNat) : a = b :=
  Option.some.inj ((parseIpv4Relaxed_complete ha).symm.trans (parseIpv4Relaxed_complete hb))

theorem parseHostIp_inetAton {text : Text} {addr : Ipv4Addr}
    (spelled : InetAton text addr.toNat) : parseHostIp text = some (.v4 addr) := by
  have zone := firstPiece_whole (EgressGuard.inetAton_avoids spelled (c := '%') rfl (by decide))
  have colonless := readIpv6Addr_colonless (EgressGuard.inetAton_avoids spelled rfl (by decide))
  simp only [parseHostIp, zone]
  cases quad : readIpv4Addr text with
  | none => simp [parseWith, readIpAddr, quad, colonless, parseIpv4Relaxed_complete spelled]
  | some read =>
    obtain ⟨other, rest⟩ := read
    cases rest with
    | nil =>
      have same := inetAton_unique (readIpv4Addr_sound quad) spelled
      simp [parseWith, readIpAddr, quad, same]
    | cons c rest => simp [parseWith, readIpAddr, quad, parseIpv4Relaxed_complete spelled]

theorem parseHostIp_literal {text : Text} {addr : Ipv6Addr} (literal : Ipv6Literal text addr) :
    parseHostIp text = some (unmapped (.v6 addr)) := by
  have fresh : '%' ∉ text := (EgressGuard.literal_address literal).avoids (by decide)
  have zone := firstPiece_whole fresh
  have whole : readIpv6Addr text = some (addr, []) := by
    have parsed := parseIpv6_complete literal
    simp only [parseIpv6, parseWith] at parsed
    split at parsed
    · rename_i read
      rw [read, Option.some.inj parsed]
    · cases parsed
  simp [parseHostIp, zone, parseWith, readIpAddr, readIpv4Addr_literal literal, whole, unmapped]

theorem hostOf_last (before hostPort : Text) (fresh : '@' ∉ hostPort) :
    hostOf (before ++ '@' :: hostPort) = hostOf hostPort := by
  simp only [hostOf, rsplitOnce_last fresh, rsplitOnce_none fresh]

theorem authorityOf_tail {authority tail : Text} (inside : AuthorityText authority)
    (htail : Tail tail) : authorityOf (authority ++ tail) = authority := by
  obtain ⟨slash, question, hash⟩ := inside
  have all : ∀ c ∈ authority, (!(c = '/' || c = '?' || c = '#')) = true := by
    intro c hc
    have noSlash : c ≠ '/' := fun same => slash (same ▸ hc)
    have noQuestion : c ≠ '?' := fun same => question (same ▸ hc)
    have noHash : c ≠ '#' := fun same => hash (same ▸ hc)
    simp [noSlash, noQuestion, noHash]
  rw [authorityOf, List.takeWhile_append_of_pos all]
  cases htail with
  | absent => simp
  | starts mark rest => rcases mark with rfl | rfl | rfl <;> simp

theorem trimEnd_dot {text : Text} (last : text.getLast? ≠ some '.') (dotted : Bool) :
    trimEnd '.' (text ++ trailingDot dotted) = text := by
  have bare : trimEnd '.' text = text := by
    rcases List.eq_nil_or_concat text with rfl | ⟨before, c, rfl⟩
    · rfl
    · have different : c ≠ '.' := by simpa using last
      rw [List.concat_eq_append, trimEnd_snoc, if_neg different]
  cases dotted with
  | false => rw [trailingDot, if_neg Bool.false_ne_true, List.append_nil, bare]
  | true => rw [trailingDot, if_pos rfl, trimEnd_snoc, if_pos rfl, bare]

theorem trailingDot_address (dotted : Bool) : EgressGuard.AddressText (trailingDot dotted) := by
  intro c hc
  cases dotted with
  | false => cases hc
  | true => exact .inr (.inl (List.mem_singleton.mp hc))

theorem dotted_address {text : Text} {v4 : Ipv4Addr} (spelled : InetAton text v4.toNat)
    (dotted : Bool) : EgressGuard.AddressText (text ++ trailingDot dotted) :=
  .append (EgressGuard.inetAton_address spelled) (trailingDot_address dotted)

theorem dotted_colonless {text : Text} {v4 : Ipv4Addr} (spelled : InetAton text v4.toNat)
    (dotted : Bool) : ':' ∉ text ++ trailingDot dotted := by
  intro found
  rcases List.mem_append.mp found with inText | inDot
  · exact EgressGuard.inetAton_avoids spelled rfl (by decide) inText
  · cases dotted with
    | false => cases inDot
    | true => exact absurd (List.mem_singleton.mp inDot) (by decide)

theorem LiteralHost.fresh {host : Text} {address : Address} {dotted : Bool}
    (literal : LiteralHost host address dotted) : '@' ∉ host := by
  cases literal with
  | inetAton spelled => exact (dotted_address spelled dotted).avoids (by decide)
  | bracket literal =>
    have inText := (EgressGuard.literal_address literal).avoids (c := '@') (by decide)
    have inDot := (trailingDot_address dotted).avoids (c := '@') (by decide)
    simp [inText, inDot]

theorem literalHostPort_fresh {host port : Text} {address : Address} {dotted : Bool}
    (literal : LiteralHost host address dotted) (hport : Port port) : '@' ∉ host ++ port := by
  have inPort : '@' ∉ port := (EgressGuard.port_address hport).avoids (by decide)
  simp [literal.fresh, inPort]

theorem firstPiece_port {text port : Text} (colonless : ':' ∉ text) (hport : Port port) :
    firstPiece ':' (text ++ port) = text := by
  cases hport with
  | absent => rw [List.append_nil, firstPiece_whole colonless]
  | digits _ => exact firstPiece_stop colonless _

/-- The text a verdict of the motor gate rests on, once port, brackets and root dots are off. -/
def BareLiteral (text : Text) : Address → Prop
  | .v4 addr => InetAton text addr.toNat
  | .v6 addr => Ipv6Literal text addr

theorem BareLiteral.toLower {text : Text} {address : Address} (bare : BareLiteral text address) :
    BareLiteral (toAsciiLowercase text) address := by
  cases address with
  | v4 addr => exact InetAton.toLower bare
  | v6 addr => exact Ipv6Literal.toLower bare

theorem hostOf_literal {host port : Text} {address : Address} {dotted : Bool}
    (literal : LiteralHost host address dotted) (hport : Port port) :
    BareLiteral (trimEnd '.' (hostOf (host ++ port))) address := by
  have noUser := rsplitOnce_none (literalHostPort_fresh literal hport)
  simp only [hostOf, noUser]
  cases literal with
  | @inetAton text v4 spelled =>
    have plain : (text ++ trailingDot dotted ++ port).head? ≠ some '[' := by
      intro h
      have address := (dotted_address spelled dotted).append (EgressGuard.port_address hport)
      exact address.avoids (by decide) (List.mem_of_head? h)
    have split := firstPiece_port (dotted_colonless spelled dotted) hport
    have last : text.getLast? ≠ some '.' := by
      obtain ⟨c, last, digit⟩ := spelled.last
      rw [last]
      rintro ⟨rfl⟩
      exact absurd digit (by decide)
    split
    · rename_i opened
      exact absurd (by rw [opened]; rfl) plain
    · rw [split, trimEnd_dot last]
      exact spelled
  | @bracket text addr literal =>
    have closed : ']' ∉ text := (EgressGuard.literal_address literal).avoids (by decide)
    have split := firstPiece_stop closed (trailingDot dotted ++ port)
    have kept : trimEnd '.' text = text := by
      simpa [trailingDot] using trimEnd_dot literal.last false
    simp only [List.cons_append, List.append_assoc, split, kept]
    exact literal

theorem extractHost_literal {scheme authority tail : Text} (named : ':' ∉ scheme)
    (inside : AuthorityText authority) (htail : Tail tail) {address : Address} {dotted : Bool}
    (literal : LiteralAuthority authority address dotted) :
    BareLiteral (extractHost (scheme ++ "://".toList ++ (authority ++ tail))) address := by
  have cut : splitOnce "://".toList (scheme ++ "://".toList ++ (authority ++ tail)) =
      some (scheme, authority ++ tail) := splitOnce_first named _
  simp only [extractHost, cut, authorityOf_tail inside htail]
  cases literal with
  | bare literal hport => exact (hostOf_literal literal hport).toLower
  | userinfo user literal hport =>
    rw [hostOf_last user _ (literalHostPort_fresh literal hport)]
    exact (hostOf_literal literal hport).toLower

theorem BareLiteral.last {text : Text} {address : Address} (bare : BareLiteral text address) :
    ∃ c, text.getLast? = some c ∧ IsAddressChar c := by
  cases address with
  | v4 addr =>
    obtain ⟨c, last, digit⟩ := InetAton.last bare
    exact ⟨c, last, .inl digit⟩
  | v6 addr =>
    have filled : text ≠ [] := List.ne_nil_of_mem (EgressGuard.literal_colon bare)
    exact ⟨text.getLast filled, List.getLast?_eq_some_getLast filled,
      parseIpv6_chars (parseIpv6_complete bare) _ (List.getLast_mem filled)⟩

theorem IsAddressChar.ne {c d : Char} (char : IsAddressChar c)
    (other : isDigit 16 d = false ∧ d ≠ '.' ∧ d ≠ ':') : c ≠ d := by
  rintro rfl
  rcases char with digit | dot | colon
  · rw [other.1] at digit
    cases digit
  · exact other.2.1 dot
  · exact other.2.2 colon

/-- An IP literal is none of the names the gate refuses. -/
theorem isPrivateOrMetadataHost_literal {text : Text} {address : Address}
    (bare : BareLiteral text address) :
    isPrivateOrMetadataHost text = ipIsPrivateOrMetadata (unmapped address) := by
  obtain ⟨c, last, char⟩ := bare.last
  have notT : c ≠ 't' := IsAddressChar.ne char (by decide)
  have notL : c ≠ 'l' := IsAddressChar.ne char (by decide)
  -- each refused name ends in a letter that no literal ends in
  have localhost : ¬ text = "localhost".toList := by
    rintro rfl
    exact not_suffix_last last (by decide) notT (List.suffix_refl _)
  have subdomain : ".localhost".toList.isSuffixOf text = false := by
    rw [← Bool.not_eq_true, List.isSuffixOf_iff_suffix]
    exact not_suffix_last last (by decide) notT
  have metadata : ¬ text = "metadata.google.internal".toList := by
    rintro rfl
    exact not_suffix_last last (by decide) notL (List.suffix_refl _)
  have parsed : parseHostIp text = some (unmapped address) := by
    cases address with
    | v4 addr => exact parseHostIp_inetAton bare
    | v6 addr => exact parseHostIp_literal bare
  simp only [isPrivateOrMetadataHost, localhost, subdomain, metadata, parsed, if_false,
    decide_false, Bool.or_self, Bool.false_eq_true, Option.any_some]

theorem vetoedPrivate_iff_host (gate : UnsafeMotorActionGate) (url method : Text) :
    VetoedPrivate gate url method ↔ isPrivateOrMetadataHost (extractHost url) = true := by
  constructor
  · rintro ⟨action, vetoed⟩
    by_contra hidden
    simp only [screenNetwork, if_neg hidden] at vetoed
    split at vetoed
    · -- the blocklist's policy names start otherwise
      have policies := (VetoReason.unsafeMotorAction.inj (VetoResult.veto.inj vetoed)).2
      have first := congrArg List.head? policies
      rw [List.head?_append_of_ne_nil _ (by decide)] at first
      exact absurd first (by decide)
    · cases vetoed
  · intro hidden
    exact ⟨_, by rw [screenNetwork, if_pos hidden]⟩

theorem vetoedPrivate_iff (gate : UnsafeMotorActionGate) (method : Text)
    {scheme authority tail : Text} (named : ':' ∉ scheme) (inside : AuthorityText authority)
    (htail : Tail tail) {address : Address} {dotted : Bool}
    (literal : LiteralAuthority authority address dotted) :
    VetoedPrivate gate (scheme ++ "://".toList ++ (authority ++ tail)) method ↔
      ipIsPrivateOrMetadata (unmapped address) = true := by
  rw [vetoedPrivate_iff_host,
    isPrivateOrMetadataHost_literal (extractHost_literal named inside htail literal)]

/-! ## What the egress guard makes of a literal -/

/-- The text the guard looks for an address in. -/
def vettedHost (authority : Text) : Text :=
  EgressGuard.stripBrackets (EgressGuard.stripPort (EgressGuard.stripUserinfo authority))

def allowsScheme (toLowercase : Text → Text) (guard : Guard) (scheme : Text) : Bool :=
  guard.allowedSchemes.any fun s => eqIgnoreAsciiCase s (toLowercase scheme)

theorem ssrfCheck_reason {host : Text} {reason : EgressGuard.EgressDenialReason}
    (refused : ssrfCheck host = some reason) : ∃ address, reason = .ssrfPrivateAddress address := by
  simp only [ssrfCheck] at refused
  split at refused
  · exact ⟨_, (Option.some.inj refused).symm⟩
  · split at refused
    · split at refused
      · exact ⟨_, (Option.some.inj refused).symm⟩
      · cases refused
    · split at refused
      · exact ⟨_, (Option.some.inj refused).symm⟩
      · cases refused

/-- Every other denial of the guard names another reason. -/
theorem deniedPrivate_parsed {toLowercase : Text → Text} (guard : Guard) {url scheme host : Text}
    (parsed : EgressGuard.parseSchemeHost toLowercase url = some (scheme, host)) :
    DeniedPrivate toLowercase guard url ↔
      guard.allowedSchemes.any (fun s => eqIgnoreAsciiCase s scheme) = true ∧
        (ssrfCheck (EgressGuard.stripBrackets host)).isSome := by
  by_cases allowed : guard.allowedSchemes.any (fun s => eqIgnoreAsciiCase s scheme) = true
  · cases refused : ssrfCheck (EgressGuard.stripBrackets host) with
    | some reason =>
      obtain ⟨address, rfl⟩ := ssrfCheck_reason refused
      simp [DeniedPrivate, checkUrl, parsed, allowed, refused]
    | none =>
      have listed : ¬ ∃ address, checkUrl toLowercase guard url =
          .deny (.ssrfPrivateAddress address) := by
        rintro ⟨address, denied⟩
        simp only [checkUrl, parsed, allowed, refused, Bool.not_true, Bool.false_eq_true,
          if_false] at denied
        split at denied
        · cases denied
        · split at denied
          · split at denied <;> cases denied
          · cases denied
      simp [DeniedPrivate, listed]
  · simp [DeniedPrivate, checkUrl, parsed, allowed]

theorem deniedPrivate_iff_vetted (toLowercase : Text → Text) (guard : Guard)
    {scheme authority tail : Text} (named : ':' ∉ scheme) (inside : AuthorityText authority)
    (htail : Tail tail)
    (filled : EgressGuard.stripPort (EgressGuard.stripUserinfo authority) ≠ []) :
    DeniedPrivate toLowercase guard (scheme ++ "://".toList ++ (authority ++ tail)) ↔
      allowsScheme toLowercase guard scheme = true ∧ (ssrfCheck (vettedHost authority)).isSome := by
  have parsed := EgressGuard.parseSchemeHost_eq toLowercase named inside htail
  rw [if_neg filled] at parsed
  exact deniedPrivate_parsed guard parsed

theorem IsAddressChar.lower_ne {c : Char} (char : IsAddressChar c) : c.toLower ≠ 't' := by
  rcases char with digit | rfl | rfl
  · intro same
    rw [isDigit, ← toDigit_toLower, same] at digit
    exact absurd digit (by decide)
  · decide
  · decide

theorem namesLocalhost_last {text : Text} {c : Char} (last : text.getLast? = some c)
    (other : c.toLower ≠ 't') : EgressGuard.namesLocalhost text = false := by
  have lower : (toAsciiLowercase text).getLast? = some c.toLower := by
    simp [toAsciiLowercase, last]
  have whole : ¬ toAsciiLowercase text = "localhost".toList := by
    intro same
    rw [same] at lower
    exact not_suffix_last lower (by decide) other (List.suffix_refl _)
  have subdomain : ".localhost".toList.isSuffixOf (toAsciiLowercase text) = false := by
    rw [← Bool.not_eq_true, List.isSuffixOf_iff_suffix]
    exact not_suffix_last lower (by decide) other
  simp only [EgressGuard.namesLocalhost, whole, subdomain, decide_false, Bool.or_self]

/-- Away from the names the check comes down to the two parsers. -/
theorem ssrfCheck_unnamed {text : Text} {c : Char} (kept : EgressGuard.stripBrackets text = text)
    (last : text.getLast? = some c) (other : c.toLower ≠ 't') :
    (ssrfCheck text).isSome = if ':' ∈ text then EgressGuard.isPrivateLiteral6 text
      else (EgressGuard.parseIpv4Any text).any isPrivateIpv4 := by
  simp only [ssrfCheck, kept, namesLocalhost_last last other, Bool.false_eq_true, if_false]
  by_cases colon : ':' ∈ text
  · simp only [colon, if_true]
    split <;> simp_all
  · simp only [colon, if_false]
    split <;> simp_all

theorem parseNumericPart_chars {part : Text} {n : Nat}
    (read : EgressGuard.parseNumericPart part = some n) : part ≠ [] ∧ '@' ∉ part := by
  have avoids : ∀ {radix : Nat} {text : Text}, radix ≤ 36 →
      fromStrRadix radix EgressGuard.u64Max text = some n → '@' ∉ text := by
    intro radix text small parsed found
    rcases fromStrRadix_chars parsed '@' found with plus | digit
    · exact absurd plus (by decide)
    · exact absurd (isDigit_mono small digit) (by decide)
  simp only [EgressGuard.parseNumericPart] at read
  by_cases empty : part = []
  · rw [if_pos empty] at read
    cases read
  rw [if_neg empty] at read
  refine ⟨empty, fun found => ?_⟩
  by_cases hex : ['0', 'x'].isPrefixOf (toAsciiLowercase part) = true
  · rw [if_pos hex] at read
    split at read
    · cases read
    · -- the sign survives the lowering and is not in the `0x`
      obtain ⟨digits, split⟩ := List.isPrefixOf_iff_prefix.mp hex
      have lowered : '@' ∈ toAsciiLowercase part := List.mem_map_of_mem found
      rw [← split] at lowered read
      have later : '@' ∈ digits := by simpa using lowered
      exact avoids (by decide) read later
  rw [if_neg hex] at read
  split at read
  · split at read
    · cases read
    · exact avoids (by decide) read found
  · split at read
    · cases read
    · exact avoids (by decide) read found

theorem parseIpv4Parts_pieces {text : Text} {addr : Ipv4Addr}
    (read : EgressGuard.parseIpv4Parts text = some addr) :
    ∀ part ∈ text.splitOn '.', part ≠ [] ∧ '@' ∉ part := by
  have each : ∀ {parts : List Text} {nums : List Nat},
      parts.mapM EgressGuard.parseNumericPart = some nums →
        ∀ part ∈ parts, part ≠ [] ∧ '@' ∉ part := by
    intro parts
    induction parts with
    | nil => simp
    | cons first rest ih =>
      intro nums all part listed
      simp only [List.mapM_cons, Option.bind_eq_bind, Option.bind_eq_some_iff] at all
      obtain ⟨n, readFirst, more, readRest, -⟩ := all
      rcases List.mem_cons.mp listed with rfl | later
      · exact parseNumericPart_chars readFirst
      · exact ih readRest part later
  simp only [EgressGuard.parseIpv4Parts] at read
  split at read
  · cases read
  · obtain ⟨nums, all, -⟩ := Option.bind_eq_some_iff.mp read
    exact each all

theorem parseIpv4Any_dotted (text : Text) : EgressGuard.parseIpv4Any (text ++ ['.']) = none := by
  have quad : EgressGuard.parseIpv4Any (text ++ ['.']) =
      EgressGuard.parseIpv4Parts (text ++ ['.']) := by
    simp only [EgressGuard.parseIpv4Any]
    cases fast : parseIpv4 (text ++ ['.']) with
    | none => rfl
    | some addr =>
      obtain ⟨c, last, digit⟩ := (EgressGuard.parseIpv4_sound fast).last
      rw [List.getLast?_concat] at last
      cases Option.some.inj last
      exact absurd digit (by decide)
  rw [quad]
  cases read : EgressGuard.parseIpv4Parts (text ++ ['.']) with
  | none => rfl
  | some addr =>
    -- the last part is empty
    have empty : [] ∈ (text ++ ['.']).splitOn '.' := by
      rw [List.splitOn_append_cons_self, List.splitOn_nil]
      simp
    exact absurd rfl (parseIpv4Parts_pieces read [] empty).1

theorem parseIpv4Any_at {text : Text} (mark : '@' ∈ text) :
    EgressGuard.parseIpv4Any text = none := by
  simp only [EgressGuard.parseIpv4Any]
  cases fast : parseIpv4 text with
  | some addr =>
    exact absurd mark
      (EgressGuard.inetAton_avoids (EgressGuard.parseIpv4_sound fast) rfl (by decide))
  | none =>
    cases read : EgressGuard.parseIpv4Parts text with
    | none => rfl
    | some addr =>
      obtain ⟨part, listed, inside⟩ := splitOn_mem mark (by decide : '@' ≠ '.')
      exact absurd inside (parseIpv4Parts_pieces read part listed).2

theorem isPrivateLiteral6_at {text : Text} (mark : '@' ∈ text) :
    EgressGuard.isPrivateLiteral6 text = false := by
  simp only [EgressGuard.isPrivateLiteral6]
  cases read : parseIpv6 text with
  | none => rfl
  | some addr => exact absurd rfl (IsAddressChar.ne (parseIpv6_chars read '@' mark) (by decide))

/-- A text that still has an `@` in it is no address to the guard. -/
theorem ssrfCheck_at {text : Text} {c : Char} (kept : EgressGuard.stripBrackets text = text)
    (last : text.getLast? = some c) (other : c.toLower ≠ 't') (mark : '@' ∈ text) :
    (ssrfCheck text).isSome = false := by
  rw [ssrfCheck_unnamed kept last other, isPrivateLiteral6_at mark, parseIpv4Any_at mark]
  simp

/-- Where there is at most one `@`, the guard's verdict on a literal. -/
def guardRefuses : Address → Bool → Bool
  | .v4 addr, dotted => !dotted && isPrivateIpv4 addr
  | .v6 addr, _ => (embeddedIpv4 addr).any isPrivateIpv4 || isPrivateIpv6 addr

theorem ssrfCheck_inetAton {text : Text} {v4 : Ipv4Addr} (spelled : InetAton text v4.toNat)
    (dotted : Bool) :
    (ssrfCheck (text ++ trailingDot dotted)).isSome = guardRefuses (.v4 v4) dotted := by
  have address := dotted_address spelled dotted
  have kept := EgressGuard.stripBrackets_plain (EgressGuard.head_not_bracket address)
  have last : ∃ c, (text ++ trailingDot dotted).getLast? = some c ∧ IsAddressChar c := by
    cases dotted with
    | false =>
      obtain ⟨c, last, digit⟩ := spelled.last
      exact ⟨c, by simp [trailingDot, last], .inl digit⟩
    | true => exact ⟨'.', by simp [trailingDot], .inr (.inl rfl)⟩
  obtain ⟨c, last, char⟩ := last
  rw [ssrfCheck_unnamed kept last (IsAddressChar.lower_ne char),
    if_neg (dotted_colonless spelled dotted)]
  cases dotted with
  | false => simp [trailingDot, EgressGuard.parseIpv4Any_complete spelled, guardRefuses]
  | true => simp [trailingDot, parseIpv4Any_dotted, guardRefuses]

theorem ssrfCheck_literal {text : Text} {addr : Ipv6Addr} (literal : Ipv6Literal text addr)
    (dotted : Bool) : (ssrfCheck text).isSome = guardRefuses (.v6 addr) dotted := by
  have address := EgressGuard.literal_address literal
  have kept := EgressGuard.stripBrackets_plain (EgressGuard.head_not_bracket address)
  obtain ⟨c, last, char⟩ := @BareLiteral.last text (.v6 addr) literal
  rw [ssrfCheck_unnamed kept last (IsAddressChar.lower_ne char),
    if_pos (EgressGuard.literal_colon literal)]
  simp [EgressGuard.isPrivateLiteral6, parseIpv6_complete literal, guardRefuses]

/-- The guard drops a dot after the brackets with the port. -/
theorem stripPort_literal {host port : Text} {address : Address} {dotted : Bool}
    (literal : LiteralHost host address dotted) (hport : Port port) :
    EgressGuard.stripPort (host ++ port) ≠ [] ∧
      (ssrfCheck (EgressGuard.stripBrackets (EgressGuard.stripPort (host ++ port)))).isSome =
        guardRefuses address dotted := by
  cases literal with
  | @inetAton text v4 spelled =>
    have chars := dotted_address spelled dotted
    have plain := EgressGuard.head_not_bracket chars
    have filled : text ++ trailingDot dotted ≠ [] := by
      simp [EgressGuard.inetAton_nonempty spelled]
    rw [EgressGuard.stripPort_name filled plain (dotted_colonless spelled dotted) hport,
      EgressGuard.stripBrackets_plain plain]
    exact ⟨filled, ssrfCheck_inetAton spelled dotted⟩
  | @bracket text addr literal =>
    have closed : ']' ∉ text := (EgressGuard.literal_address literal).avoids (by decide)
    have stripped := EgressGuard.stripPort_bracket closed (trailingDot dotted ++ port)
    rw [List.cons_append, List.append_assoc, List.cons_append, stripped,
      EgressGuard.stripBrackets_bracket]
    exact ⟨List.cons_ne_nil _ _, ssrfCheck_literal literal dotted⟩

/-! ## More than one `@` -/

/-- What stands in brackets right after the first `@`. -/
def decoyHost (authority : Text) : Option Text :=
  match splitOnce ['@'] authority with
  | some (_, '[' :: rest) => (splitOnce [']'] rest).map Prod.fst
  | _ => none

/-- A port is dropped after any text whose last colon is followed by a mark that is no digit. -/
theorem stripPort_sealed {before clean port : Text} {mark : Char}
    (plain : (before ++ mark :: clean).head? ≠ some '[') (notDigit : isDigit 10 mark = false)
    (colonless : ':' ∉ mark :: clean) (hport : Port port) :
    EgressGuard.stripPort (before ++ mark :: clean ++ port) = before ++ mark :: clean := by
  have front : (before ++ mark :: clean ++ port).head? ≠ some '[' := by
    rwa [List.head?_append_of_ne_nil _ (by simp)]
  simp only [EgressGuard.stripPort, if_neg front]
  cases hport with
  | @digits ds digits =>
    have fresh : ':' ∉ ds := fun found => absurd (digits ':' found) (by decide)
    rw [rsplitOnce_last fresh]
    simp only [EgressGuard.all_digits digits, if_true]
  | absent =>
    rw [List.append_nil]
    by_cases colon : ':' ∈ before
    · obtain ⟨host, after, rfl, fresh⟩ := exists_last colon
      have later : ':' ∉ after ++ mark :: clean := by
        simp only [List.mem_append, not_or]
        exact ⟨fresh, colonless⟩
      have notAll : (after ++ mark :: clean).all (isDigit 10) = false := by
        simp [notDigit]
      have cut : host ++ ':' :: after ++ mark :: clean =
          host ++ ':' :: (after ++ mark :: clean) := by simp
      rw [cut, rsplitOnce_last later]
      simp only [notAll, Bool.false_eq_true, if_false]
    · have none : ':' ∉ before ++ mark :: clean := by
        simp only [List.mem_append, not_or]
        exact ⟨colon, colonless⟩
      rw [rsplitOnce_none none]

theorem LiteralHost.sealed {host : Text} {address : Address} {dotted : Bool}
    (literal : LiteralHost host address dotted) (middle : Text) :
    ∃ before mark clean, middle ++ '@' :: host = before ++ mark :: clean ∧
      isDigit 10 mark = false ∧ ':' ∉ mark :: clean := by
  cases literal with
  | @inetAton text v4 spelled =>
    have colonless := dotted_colonless spelled dotted
    exact ⟨middle, '@', text ++ trailingDot dotted, rfl, rfl, by simpa using colonless⟩
  | @bracket text addr literal =>
    have colonless : ':' ∉ trailingDot dotted := by cases dotted <;> simp [trailingDot]
    exact ⟨middle ++ '@' :: '[' :: text, ']', trailingDot dotted, by simp, rfl,
      by simpa using colonless⟩

theorem LiteralHost.last {host : Text} {address : Address} {dotted : Bool}
    (literal : LiteralHost host address dotted) :
    ∃ c, host.getLast? = some c ∧ c.toLower ≠ 't' := by
  have afterDot : ∀ before : Text, ∃ c, (before ++ ['.']).getLast? = some c ∧ c.toLower ≠ 't' :=
    fun before => ⟨'.', List.getLast?_concat, by decide⟩
  cases literal with
  | @inetAton text v4 spelled =>
    cases dotted with
    | true => exact afterDot text
    | false =>
      obtain ⟨c, last, digit⟩ := spelled.last
      exact ⟨c, by simp [trailingDot, last], IsAddressChar.lower_ne (.inl digit)⟩
  | @bracket text addr literal =>
    cases dotted with
    | true => simpa [trailingDot] using afterDot ('[' :: (text ++ [']']))
    | false => exact ⟨']', by simp [trailingDot, List.getLast?_cons], by decide⟩

theorem literalHostPort_last {host port : Text} {address : Address} {dotted : Bool}
    (literal : LiteralHost host address dotted) (hport : Port port) :
    ∃ c, (host ++ port).getLast? = some c ∧ c.toLower ≠ 't' := by
  cases hport with
  | absent => simpa using literal.last
  | @digits ds digits =>
    have inPort : ∀ c ∈ ':' :: ds, c.toLower ≠ 't' := by
      rintro c (_ | ⟨_, listed⟩)
      · decide
      · exact IsAddressChar.lower_ne (.inl (isDigit_mono (by decide) (digits c listed)))
    refine ⟨(':' :: ds).getLast (List.cons_ne_nil _ _), ?_, inPort _ (List.getLast_mem _)⟩
    rw [List.getLast?_append, List.getLast?_eq_some_getLast (List.cons_ne_nil _ _)]
    rfl

theorem stripBrackets_last {text : Text} {c : Char} (last : text.getLast? = some c)
    (other : c ≠ ']') : EgressGuard.stripBrackets text = text := by
  simp [EgressGuard.stripBrackets, last, other]

/-- A bracket that is not closed keeps the port, and the `@` with it. -/
theorem unclosed_unrefused {rest : Text} {c : Char} (closed : ']' ∉ rest)
    (last : ('[' :: rest).getLast? = some c) (other : c.toLower ≠ 't') (mark : '@' ∈ '[' :: rest) :
    EgressGuard.stripPort ('[' :: rest) = '[' :: rest ∧
      (ssrfCheck (EgressGuard.stripBrackets ('[' :: rest))).isSome = false := by
  have unclosed : ']' ∉ '[' :: rest := by simp [closed]
  have notClose : c ≠ ']' := by
    rintro rfl
    exact unclosed (List.mem_of_getLast? last)
  have kept := stripBrackets_last last notClose
  constructor
  · simp only [EgressGuard.stripPort, splitOnce_none unclosed, List.head?_cons, if_true]
  · rw [kept, ssrfCheck_at kept last other mark]

/-- Without a bracket only the port goes, and the `@` stays. -/
theorem unbracketed_unrefused {middle host port : Text} {address : Address} {dotted : Bool}
    (opened : (middle ++ '@' :: (host ++ port)).head? ≠ some '[')
    (literal : LiteralHost host address dotted) (hport : Port port) :
    EgressGuard.stripPort (middle ++ '@' :: (host ++ port)) = middle ++ '@' :: host ∧
      (ssrfCheck (EgressGuard.stripBrackets (middle ++ '@' :: host))).isSome = false := by
  obtain ⟨before, sign, clean, shape, notDigit, colonless⟩ := literal.sealed middle
  have plain : (middle ++ '@' :: host).head? ≠ some '[' := by
    cases middle with
    | nil => simp
    | cons a middle => simpa using opened
  have stripped := stripPort_sealed (shape ▸ plain) notDigit colonless hport
  rw [← shape, List.append_assoc, List.cons_append] at stripped
  obtain ⟨c, last, other⟩ := literal.last
  have lastText : (middle ++ '@' :: host).getLast? = some c := by
    simp [List.getLast?_append, List.getLast?_cons, last]
  have kept := EgressGuard.stripBrackets_plain plain
  refine ⟨stripped, ?_⟩
  rw [kept, ssrfCheck_at kept lastText other (by simp)]

/-- After the first of several `@` only a bracketed decoy can be refused. -/
theorem vettedHost_decoy {first middle host port : Text} {address : Address} {dotted : Bool}
    (fresh : '@' ∉ first) (literal : LiteralHost host address dotted) (hport : Port port) :
    let authority := first ++ '@' :: (middle ++ '@' :: (host ++ port))
    EgressGuard.stripPort (EgressGuard.stripUserinfo authority) ≠ [] ∧
      (ssrfCheck (vettedHost authority)).isSome =
        (decoyHost authority).any fun inner => (ssrfCheck inner).isSome := by
  intro authority
  have after := EgressGuard.stripUserinfo_first fresh (middle ++ '@' :: (host ++ port))
  have cut := splitOnce_char fresh (middle ++ '@' :: (host ++ port))
  simp only [authority, vettedHost, decoyHost, after, cut]
  by_cases opened : (middle ++ '@' :: (host ++ port)).head? = some '['
  · obtain ⟨rest, split⟩ : ∃ rest, middle ++ '@' :: (host ++ port) = '[' :: rest :=
      ⟨_, (List.cons_head?_tail opened).symm⟩
    obtain ⟨c, last, other⟩ := literalHostPort_last literal hport
    have lastText : (middle ++ '@' :: (host ++ port)).getLast? = some c := by
      simp [List.getLast?_append, List.getLast?_cons, last]
    have mark : '@' ∈ middle ++ '@' :: (host ++ port) := by simp
    rw [split] at lastText mark ⊢
    by_cases closed : ']' ∈ rest
    · obtain ⟨inner, tail, rfl, freshInner⟩ := List.eq_append_cons_of_mem closed
      rw [EgressGuard.stripPort_bracket freshInner, EgressGuard.stripBrackets_bracket]
      simp [splitOnce_char freshInner]
    · obtain ⟨whole, unrefused⟩ := unclosed_unrefused closed lastText other mark
      rw [whole, unrefused]
      simp [splitOnce_none closed]
  · obtain ⟨stripped, unrefused⟩ := unbracketed_unrefused opened literal hport
    have undecoyed : ∀ rest, ¬ middle ++ '@' :: (host ++ port) = '[' :: rest := fun rest same =>
      opened (by rw [same, List.head?_cons])
    rw [stripped, unrefused]
    refine ⟨by simp, ?_⟩
    split
    · rename_i rest found
      exact absurd (congrArg Prod.snd (Option.some.inj found)) (undecoyed rest)
    · rfl

/-! ## Where the classifications differ -/

/-- The IPv4 addresses only the egress guard blocks. -/
def guardOnly (addr : Ipv4Addr) : Bool :=
  isBroadcast addr || (octet addr 0 = 0 && !isUnspecified addr) ||
    (octet addr 0 = 100 && 64 ≤ octet addr 1 && octet addr 1 ≤ 127)

def classifiedAlike : Address → Bool → Bool
  | .v4 addr, false => !guardOnly addr
  | .v4 addr, true => !ipIsPrivateOrMetadata (.v4 addr)
  | .v6 addr, _ =>
    match toIpv4Mapped addr with
    | some v4 => !guardOnly v4
    | none => !(embeddedIpv4 addr).any isPrivateIpv4

theorem isPrivateIpv4_split (addr : Ipv4Addr) :
    isPrivateIpv4 addr = (ipIsPrivateOrMetadata (.v4 addr) || guardOnly addr) ∧
      (ipIsPrivateOrMetadata (.v4 addr) && guardOnly addr) = false := by
  have unspecified : isUnspecified addr = true → octet addr 0 = 0 := by
    intro same
    rw [of_decide_eq_true same]
    rfl
  have broadcast : isBroadcast addr = true → octet addr 0 = 255 := by
    intro same
    rw [of_decide_eq_true same]
    rfl
  have metadata : addr = ipv4OfOctets 169 254 169 254 →
      octet addr 0 = 169 ∧ octet addr 1 = 254 := by
    rintro rfl
    exact ⟨rfl, rfl⟩
  simp only [isPrivateIpv4, ipIsPrivateOrMetadata, guardOnly, isLoopback, isPrivate, isLinkLocal]
  grind

/-- A mapped address is read as the same IPv4 address by both, and is nothing native. -/
theorem toIpv4Mapped_some {addr : Ipv6Addr} {v4 : Ipv4Addr} (mapped : toIpv4Mapped addr = some v4) :
    embeddedIpv4 addr = some v4 ∧ isPrivateIpv6 addr = false := by
  simp only [toIpv4Mapped] at mapped
  split at mapped
  · rename_i high low shape
    rw [← EgressGuard.ipv4OfSegments_bytes] at mapped
    constructor
    · simpa [embeddedIpv4, shape] using mapped
    · simp [isPrivateIpv6, shape]
  · cases mapped

/-- An IPv4-compatible address is nothing native either. -/
theorem embeddedIpv4_some {addr : Ipv6Addr} {v4 : Ipv4Addr}
    (embedded : embeddedIpv4 addr = some v4) : isPrivateIpv6 addr = false := by
  simp only [embeddedIpv4] at embedded
  split at embedded
  · rename_i s0 s1 s2 s3 s4 s5 s6 s7 shape
    split at embedded
    · rename_i mapped
      simp only [List.cons.injEq, and_true] at mapped
      obtain ⟨⟨rfl, rfl, rfl, rfl, rfl⟩, rfl⟩ := mapped
      simp [isPrivateIpv6, shape]
    · split at embedded
      · rename_i compatible
        simp only [List.cons.injEq, and_true] at compatible
        obtain ⟨⟨rfl, rfl, rfl, rfl, rfl, rfl⟩, native⟩ := compatible
        have loopback : s6 = 0#16 → ¬ s7 = 1#16 := by
          rintro rfl rfl
          exact absurd native (by decide)
        have unspecified : s6 = 0#16 → ¬ s7 = 0#16 := by
          rintro rfl rfl
          exact absurd native (by decide)
        simpa [isPrivateIpv6, shape] using And.intro loopback unspecified
      · cases embedded
  · cases embedded

theorem guardRefuses_iff (address : Address) (dotted : Bool) :
    (ipIsPrivateOrMetadata (unmapped address) = true ↔ guardRefuses address dotted = true) ↔
      classifiedAlike address dotted = true := by
  have split : ∀ {v4 : Ipv4Addr},
      (ipIsPrivateOrMetadata (.v4 v4) = true ↔ isPrivateIpv4 v4 = true) ↔
        (!guardOnly v4) = true := by
    intro v4
    obtain ⟨joined, apart⟩ := isPrivateIpv4_split v4
    rw [joined]
    grind
  cases address with
  | v4 addr =>
    cases dotted with
    | false => simpa [unmapped, guardRefuses, classifiedAlike] using @split addr
    | true => simp [unmapped, guardRefuses, classifiedAlike]
  | v6 addr =>
    simp only [unmapped, guardRefuses, classifiedAlike]
    cases mapped : toIpv4Mapped addr with
    | some v4 =>
      obtain ⟨embedded, native⟩ := toIpv4Mapped_some mapped
      simpa [embedded, native] using @split v4
    | none =>
      have native : ipIsPrivateOrMetadata (.v6 addr) = isPrivateIpv6 addr := by
        simp only [ipIsPrivateOrMetadata, isPrivateIpv6]
        grind
      cases embedded : embeddedIpv4 addr with
      | some v4 => simp [native, embeddedIpv4_some embedded]
      | none => simp [native]

/-- With several `@` the guard judges the decoy, and a scheme it refuses it refuses by name. -/
def GuardsAlike (toLowercase : Text → Text) (guard : Guard) (scheme authority : Text)
    (address : Address) (dotted : Bool) : Prop :=
  if allowsScheme toLowercase guard scheme then
    if authority.count '@' ≤ 1 then classifiedAlike address dotted = true
    else ((decoyHost authority).any fun inner => (ssrfCheck inner).isSome) =
      ipIsPrivateOrMetadata (unmapped address)
  else ipIsPrivateOrMetadata (unmapped address) = false

theorem count_userinfo {user hostPort : Text} (last : '@' ∉ hostPort) :
    (user ++ '@' :: hostPort).count '@' ≤ 1 ↔ '@' ∉ user := by
  rw [List.count_append, List.count_cons_self, List.count_eq_zero.mpr last,
    ← List.count_eq_zero]
  omega

theorem deniedPrivate_iff (toLowercase : Text → Text) (guard : Guard)
    {scheme authority tail : Text} (named : ':' ∉ scheme) (inside : AuthorityText authority)
    (htail : Tail tail) {address : Address} {dotted : Bool}
    (literal : LiteralAuthority authority address dotted) :
    DeniedPrivate toLowercase guard (scheme ++ "://".toList ++ (authority ++ tail)) ↔
      allowsScheme toLowercase guard scheme = true ∧
        (if authority.count '@' ≤ 1 then guardRefuses address dotted
          else (decoyHost authority).any fun inner => (ssrfCheck inner).isSome) = true := by
  have verdict : EgressGuard.stripPort (EgressGuard.stripUserinfo authority) ≠ [] ∧
      (ssrfCheck (vettedHost authority)).isSome =
        if authority.count '@' ≤ 1 then guardRefuses address dotted
        else (decoyHost authority).any fun inner => (ssrfCheck inner).isSome := by
    cases literal with
    | @bare host port _ _ literal hport =>
      have noUser := literalHostPort_fresh literal hport
      have single : (host ++ port).count '@' ≤ 1 := by
        rw [List.count_eq_zero.mpr noUser]
        decide
      rw [if_pos single, vettedHost, EgressGuard.stripUserinfo_none noUser]
      exact stripPort_literal literal hport
    | @userinfo user host port _ _ literal hport =>
      have last := literalHostPort_fresh literal hport
      by_cases several : '@' ∈ user
      · have many := mt (count_userinfo last).mp (not_not.mpr several)
        obtain ⟨first, middle, rfl, fresh⟩ := List.eq_append_cons_of_mem several
        rw [if_neg many, List.append_assoc, List.cons_append]
        exact vettedHost_decoy fresh literal hport
      · rw [if_pos ((count_userinfo last).mpr several), vettedHost,
          EgressGuard.stripUserinfo_first several]
        exact stripPort_literal literal hport
  rw [deniedPrivate_iff_vetted toLowercase guard named inside htail verdict.1, verdict.2]

/-- The two guards give an IP literal the same SSRF verdict exactly where `GuardsAlike` says. -/
theorem ssrf_guards_agree_iff (toLowercase : Text → Text) (gate : UnsafeMotorActionGate)
    (guard : Guard) (method : Text) {scheme authority tail : Text} (named : ':' ∉ scheme)
    (inside : AuthorityText authority) (htail : Tail tail) {address : Address} {dotted : Bool}
    (literal : LiteralAuthority authority address dotted) :
    let url := scheme ++ "://".toList ++ (authority ++ tail)
    (VetoedPrivate gate url method ↔ DeniedPrivate toLowercase guard url) ↔
      GuardsAlike toLowercase guard scheme authority address dotted := by
  intro url
  rw [vetoedPrivate_iff gate method named inside htail literal,
    deniedPrivate_iff toLowercase guard named inside htail literal, GuardsAlike]
  by_cases allowed : allowsScheme toLowercase guard scheme = true
  · rw [if_pos allowed]
    by_cases single : authority.count '@' ≤ 1
    · simp only [allowed, single, if_true, true_and]
      exact guardRefuses_iff address dotted
    · simp only [allowed, single, if_false, true_and]
      exact iff_comm.trans Bool.eq_iff_iff.symm
  · simp [allowed]

theorem ssrf_guards_agree_iff_userinfo :
    (VetoedPrivate UnsafeMotorActionGate.new
        ("https".toList ++ "://".toList ++ ("me@0x7f.1:443".toList ++ "/x".toList)) "GET".toList ↔
      DeniedPrivate toAsciiLowercase Guard.default
        ("https".toList ++ "://".toList ++ ("me@0x7f.1:443".toList ++ "/x".toList))) ↔
      GuardsAlike toAsciiLowercase Guard.default "https".toList
        "me@0x7f.1:443".toList (.v4 0x7f000001#32) false := by
  have first : PartSpelling "0x7f".toList 127 :=
    .hex (.inl rfl) ⟨by decide, List.all_eq_true.mp rfl, rfl⟩
  have last : PartSpelling "1".toList 1 :=
    .decimal ⟨by decide, List.all_eq_true.mp rfl, rfl⟩ (.inr (by decide))
  have loopback : InetAton "0x7f.1".toList (0x7f000001#32).toNat :=
    .two first (by decide) last (by decide)
  have port : Port (':' :: "443".toList) := .digits (List.all_eq_true.mp rfl)
  have literal : LiteralAuthority ("me".toList ++ '@' :: ("0x7f.1".toList ++ ':' :: "443".toList))
      (.v4 0x7f000001#32) false := .userinfo "me".toList (.inetAton loopback false) port
  exact ssrf_guards_agree_iff toAsciiLowercase UnsafeMotorActionGate.new Guard.default
    "GET".toList (by decide) (by unfold AuthorityText; decide) (.starts (.inl rfl) _) literal

/-- A root dot hides loopback from the egress guard, and the motor gate lets the shared
address space through. -/
theorem ssrf_guards_differ :
    (LiteralAuthority "127.0.0.1.".toList (.v4 0x7f000001#32) true ∧
      VetoedPrivate UnsafeMotorActionGate.new "https://127.0.0.1./".toList "GET".toList ∧
      checkUrl toAsciiLowercase Guard.default "https://127.0.0.1./".toList = .allow) ∧
    LiteralAuthority "100.64.0.1".toList (.v4 0x64400001#32) false ∧
      DeniedPrivate toAsciiLowercase Guard.default "https://100.64.0.1/".toList ∧
      screenNetwork UnsafeMotorActionGate.new "https://100.64.0.1/".toList "GET".toList =
        .allow := by
  have loopback : InetAton "127.0.0.1".toList (0x7f000001#32).toNat :=
    EgressGuard.parseIpv4_sound (by decide)
  have shared : InetAton "100.64.0.1".toList (0x64400001#32).toNat :=
    EgressGuard.parseIpv4_sound (by decide)
  have dotted : LiteralAuthority ("127.0.0.1.".toList ++ []) (.v4 0x7f000001#32) true :=
    .bare (.inetAton loopback true) .absent
  have undotted : LiteralAuthority ("100.64.0.1".toList ++ []) (.v4 0x64400001#32) false :=
    .bare (.inetAton shared false) .absent
  have vetoed : screenNetwork UnsafeMotorActionGate.new "https://127.0.0.1./".toList "GET".toList =
      .veto (.unsafeMotorAction "GET https://127.0.0.1./".toList
        "ssrf-private-address".toList) := by decide
  have denied : checkUrl toAsciiLowercase Guard.default "https://100.64.0.1/".toList =
      .deny (.ssrfPrivateAddress "100.64.0.1".toList) := by
    decide
  exact ⟨⟨dotted, ⟨_, vetoed⟩, by decide⟩, undotted, ⟨_, denied⟩, by decide⟩

end GuardAgreement
