import AnimaOS.GuardAgreement

/-!
# Hosts with and without the DNS root dot

The allow and deny lists drop a trailing dot and the SSRF check does not, so the
dot takes a host out of the check's reach. Behind a closing bracket it is cut
off with the port.
-/

namespace EgressGuard

open GuardAgreement TextSplit

inductive HostText : Text → Prop where
  | bracket {inner : Text} (closed : ']' ∉ inner) : HostText ('[' :: (inner ++ [']']))
  | name {host : Text} (named : host ≠ []) (plain : ∀ c ∈ host, c ≠ ':' ∧ c ≠ '[' ∧ c ≠ ']') :
      HostText host

/-- A URL in its parts. The user information may hold any number of `@`. -/
structure Url where
  scheme : Text
  userinfo : Option Text
  host : Text
  port : Text
  tail : Text
  named : ':' ∉ scheme
  inside : AuthorityText (userinfo.getD [] ++ host)
  hostText : HostText host
  last : '@' ∉ host
  hport : Port port
  htail : Tail tail

def Url.authority (u : Url) (host : Text) : Text :=
  u.userinfo.elim [] (fun user => user ++ ['@']) ++ (host ++ u.port)

/-- The URL with a host of its own choosing. -/
def Url.withHost (u : Url) (host : Text) : Text :=
  u.scheme ++ "://".toList ++ (u.authority host ++ u.tail)

def rootDot (host : Text) : Text := host ++ ['.']

/-- What the allow and deny lists say about a host. -/
def listsAllow (toLowercase : Text → Text) (guard : Guard) (host : Text) : Bool :=
  !guard.blocklistedHosts.any (hostMatches toLowercase host) &&
    guard.allowedHosts.elim true fun allow => allow.any (hostMatches toLowercase host)

/-- The text that is vetted opens with a bracket, and one closes it. -/
def Closed (text : Text) : Prop := text.head? = some '[' ∧ ']' ∈ text

def Unclosed (text : Text) : Prop := text.head? = some '[' ∧ ']' ∉ text

/-- The check refuses no host that the lists let through, unless the dot falls behind a closing
bracket; and where a bracket of the user information stays open, so that the port stays with the
host, the lists treat both texts alike. -/
def DotBlind (toLowercase : Text → Text) (guard : Guard) (u : Url) : Prop :=
  allowsScheme toLowercase guard u.scheme = true →
    ((ssrfCheck (vettedHost (u.authority u.host))).isSome →
      listsAllow toLowercase guard (vettedHost (u.authority u.host)) = true →
        Closed (stripUserinfo (u.authority u.host))) ∧
    (Unclosed (stripUserinfo (u.authority u.host)) →
      listsAllow toLowercase guard (vettedHost (u.authority (rootDot u.host))) =
        listsAllow toLowercase guard (vettedHost (u.authority u.host)))

/-! ## The verdict on a parsed URL -/

theorem isDenied_parsed (toLowercase : Text → Text) (guard : Guard) {scheme authority tail : Text}
    (named : ':' ∉ scheme) (inside : AuthorityText authority) (htail : Tail tail)
    (filled : stripPort (stripUserinfo authority) ≠ []) :
    (checkUrl toLowercase guard (scheme ++ "://".toList ++ (authority ++ tail))).isDenied =
      !(allowsScheme toLowercase guard scheme && !(ssrfCheck (vettedHost authority)).isSome &&
        listsAllow toLowercase guard (vettedHost authority)) := by
  have parsed := parseSchemeHost_eq toLowercase named inside htail
  rw [if_neg filled] at parsed
  have allowed : guard.allowedSchemes.any (fun s => eqIgnoreAsciiCase s (toLowercase scheme)) =
      allowsScheme toLowercase guard scheme := rfl
  have vetted : stripBrackets (stripPort (stripUserinfo authority)) = vettedHost authority := rfl
  simp only [checkUrl, parsed, allowed, vetted, listsAllow]
  cases allowsScheme toLowercase guard scheme with
  | false => rfl
  | true =>
    cases ssrfCheck (vettedHost authority) with
    | some reason => rfl
    | none =>
      cases guard.blocklistedHosts.any (hostMatches toLowercase (vettedHost authority)) with
      | true => rfl
      | false =>
        cases guard.allowedHosts with
        | none => rfl
        | some allow =>
          cases listed : allow.any (hostMatches toLowercase (vettedHost authority)) <;>
            simp [listed, EgressVerdict.isDenied]

/-! ## A dot at the end of what is vetted -/

theorem hostMatches_dot (toLowercase : Text → Text) (host : Text) :
    hostMatches toLowercase (rootDot host) = hostMatches toLowercase host := by
  funext pattern
  simp only [hostMatches, rootDot, trimEnd_snoc, if_true]

theorem listsAllow_dot (toLowercase : Text → Text) (guard : Guard) (host : Text) :
    listsAllow toLowercase guard (rootDot host) = listsAllow toLowercase guard host := by
  simp only [listsAllow, hostMatches_dot]

theorem stripBrackets_dot (text : Text) : stripBrackets (rootDot text) = rootDot text :=
  stripBrackets_last List.getLast?_concat (by decide)

/-- A dot at the end makes the check let any host through. -/
theorem ssrfCheck_dot (text : Text) : (ssrfCheck (rootDot text)).isSome = false := by
  have last : (rootDot text).getLast? = some '.' := List.getLast?_concat
  rw [ssrfCheck_unnamed (stripBrackets_dot text) last (by decide)]
  simp [rootDot, isPrivateLiteral6, AddressSpelling.parseIpv6_dotted, parseIpv4Any_dotted]

/-! ## Where the dot ends up -/

/-- The user information ends at its first `@`; what is left of it ends at the last one. -/
theorem stripUserinfo_authority (u : Url) :
    ∃ front : Text, (front = [] ∨ ∃ before, front = before ++ ['@']) ∧
      ∀ host, '@' ∉ host → stripUserinfo (u.authority host) = front ++ (host ++ u.port) := by
  have inPort : '@' ∉ u.port := (port_address u.hport).avoids (by decide)
  cases user : u.userinfo with
  | none =>
    refine ⟨[], .inl rfl, fun host fresh => ?_⟩
    have plain : '@' ∉ host ++ u.port := by simp [fresh, inPort]
    simp [Url.authority, user, stripUserinfo_none plain]
  | some user' =>
    by_cases several : '@' ∈ user'
    · obtain ⟨first, rest, rfl, fresh⟩ := List.eq_append_cons_of_mem several
      refine ⟨rest ++ ['@'], .inr ⟨rest, rfl⟩, fun host _ => ?_⟩
      have split : u.authority host = first ++ '@' :: (rest ++ ['@'] ++ (host ++ u.port)) := by
        simp [Url.authority, user]
      rw [split, stripUserinfo_first fresh]
    · refine ⟨[], .inl rfl, fun host _ => ?_⟩
      have split : u.authority host = user' ++ '@' :: (host ++ u.port) := by
        simp [Url.authority, user]
      rw [split, stripUserinfo_first several, List.nil_append]

theorem HostText.nonempty {host : Text} (text : HostText host) : host ≠ [] := by
  cases text with
  | bracket _ => exact List.cons_ne_nil _ _
  | name named _ => exact named

theorem stripPort_unbracketed {front host port : Text}
    (user : front = [] ∨ ∃ before, front = before ++ ['@'])
    (opened : (front ++ host).head? ≠ some '[') (text : HostText host) (hport : Port port) :
    stripPort (front ++ (host ++ port)) = front ++ host := by
  cases text with
  | @bracket inner closed =>
    have shape : front ++ '[' :: (inner ++ [']']) = front ++ '[' :: inner ++ ']' :: [] := by simp
    rw [shape] at opened ⊢
    rw [← List.append_assoc, shape]
    exact stripPort_sealed opened (by decide) (by decide) hport
  | name named plain =>
    have colonless : ':' ∉ host := fun found => (plain ':' found).1 rfl
    rcases user with rfl | ⟨before, rfl⟩
    · exact stripPort_name named opened colonless hport
    · have shape : before ++ ['@'] ++ host = before ++ '@' :: host := by simp
      rw [← List.append_assoc, shape]
      exact stripPort_sealed (shape ▸ opened) (by decide) (by simp [colonless]) hport

theorem stripPort_dot {text port : Text} (filled : text ≠ []) (opened : text.head? ≠ some '[')
    (hport : Port port) : stripPort (rootDot text ++ port) = rootDot text := by
  refine stripPort_sealed ?_ (by decide) (by decide) hport
  rwa [List.head?_append_of_ne_nil _ filled]

theorem stripPort_closed {text : Text} (closed : Closed text) :
    ∃ inner, ∀ rest, stripPort (text ++ rest) = '[' :: (inner ++ [']']) := by
  obtain ⟨opened, mark⟩ := closed
  obtain ⟨after, rfl⟩ : ∃ after, text = '[' :: after := ⟨_, (List.cons_head?_tail opened).symm⟩
  obtain ⟨inner, behind, rfl, fresh⟩ :=
    List.eq_append_cons_of_mem (List.mem_of_ne_of_mem (by decide) mark)
  refine ⟨inner, fun rest => ?_⟩
  rw [List.cons_append, List.append_assoc, List.cons_append]
  exact stripPort_bracket fresh (behind ++ rest)

theorem stripPort_unclosed {text : Text} (unclosed : Unclosed text) : stripPort text = text := by
  simp only [stripPort, unclosed.1, if_true, splitOnce_none unclosed.2]

theorem stripBrackets_unclosed {text : Text} (unclosed : ']' ∉ text) :
    stripBrackets text = text := by
  have last : text.getLast? ≠ some ']' := fun found => unclosed (List.mem_of_getLast? found)
  simp [stripBrackets, last]

/-- A port in the text and a bracket before it make it neither a name nor an address. -/
theorem ssrfCheck_port {text ds : Text} (unclosed : Unclosed (text ++ ':' :: ds))
    (digits : ∀ c ∈ ds, Numerals.isDigit 10 c) :
    (ssrfCheck (text ++ ':' :: ds)).isSome = false := by
  have last : ∃ c, (text ++ ':' :: ds).getLast? = some c ∧ AddressSpelling.IsAddressChar c := by
    rcases List.eq_nil_or_concat ds with rfl | ⟨before, c, rfl⟩
    · exact ⟨':', by simp, .inr (.inr rfl)⟩
    · exact ⟨c, by simp [List.getLast?_append, List.getLast?_cons],
        .inl (Numerals.isDigit_mono (by decide) (digits c (by simp)))⟩
  obtain ⟨c, last, char⟩ := last
  have bracket : '[' ∈ text ++ ':' :: ds := List.mem_of_head? unclosed.1
  have noLiteral : isPrivateLiteral6 (text ++ ':' :: ds) = false := by
    simp only [isPrivateLiteral6]
    cases read : IpAddr.parseIpv6 (text ++ ':' :: ds) with
    | none => rfl
    | some addr =>
      exact absurd rfl (IsAddressChar.ne (AddressSpelling.parseIpv6_chars read '[' bracket)
        (by decide))
  rw [ssrfCheck_unnamed (stripBrackets_unclosed unclosed.2) last (IsAddressChar.lower_ne char),
    noLiteral]
  simp

/-- With the bracket open everything is vetted, the port included. -/
theorem vetted_unclosed {text port : Text} (unclosed : Unclosed text) (hport : Port port) :
    (stripPort (text ++ port) = text ∧ stripPort (rootDot text ++ port) = rootDot text) ∨
      (ssrfCheck (stripBrackets (stripPort (text ++ port)))).isSome = false ∧
        (ssrfCheck (stripBrackets (stripPort (rootDot text ++ port)))).isSome = false := by
  have filled : text ≠ [] := by
    rintro rfl
    cases unclosed.1
  have whole : ∀ {rest : Text}, ']' ∉ rest → Unclosed (text ++ rest) := by
    intro rest fresh
    refine ⟨by rw [List.head?_append_of_ne_nil _ filled, unclosed.1], ?_⟩
    simp [unclosed.2, fresh]
  have dotted : ∀ {rest : Text}, ']' ∉ rest → Unclosed (rootDot text ++ rest) := by
    intro rest fresh
    have joined : Unclosed (text ++ '.' :: rest) := whole (by simp [fresh])
    simpa [rootDot] using joined
  cases hport with
  | absent =>
    have plain : Unclosed (text ++ []) := whole (by decide)
    have plain' : Unclosed (rootDot text ++ []) := dotted (by decide)
    rw [stripPort_unclosed plain, stripPort_unclosed plain', List.append_nil, List.append_nil]
    exact .inl ⟨rfl, rfl⟩
  | @digits ds digits =>
    have portMark : ']' ∉ ':' :: ds := (port_address (.digits digits)).avoids (by decide)
    have kept := whole portMark
    have kept' := dotted portMark
    rw [stripPort_unclosed kept, stripPort_unclosed kept', stripBrackets_unclosed kept.2,
      stripBrackets_unclosed kept'.2]
    exact .inr ⟨ssrfCheck_port kept digits, ssrfCheck_port kept' digits⟩

/-- The dot is cut off, or ends what is vetted, or stands before a port that was kept. -/
theorem vetted_cases {front host port : Text} (user : front = [] ∨ ∃ before, front = before ++ ['@'])
    (text : HostText host) (hport : Port port) :
    let vetted := stripBrackets (stripPort (front ++ (host ++ port)))
    let dotted := stripBrackets (stripPort (front ++ (rootDot host ++ port)))
    (Closed (front ++ (host ++ port)) ∧ dotted = vetted) ∨
      (¬ Closed (front ++ (host ++ port)) ∧ dotted = rootDot vetted) ∨
      (Unclosed (front ++ (host ++ port)) ∧ (ssrfCheck vetted).isSome = false ∧
        (ssrfCheck dotted).isSome = false) := by
  have filled : front ++ host ≠ [] := by simp [text.nonempty]
  have portMark : ']' ∉ port := (port_address hport).avoids (by decide)
  have shape : front ++ (host ++ port) = front ++ host ++ port := by simp
  have shape' : front ++ (rootDot host ++ port) = rootDot (front ++ host) ++ port := by
    simp [rootDot]
  have head : (front ++ host ++ port).head? = (front ++ host).head? :=
    List.head?_append_of_ne_nil _ filled
  by_cases opened : (front ++ host).head? = some '['
  · by_cases mark : ']' ∈ front ++ host
    · obtain ⟨inner, kept⟩ := stripPort_closed ⟨opened, mark⟩
      have behind : rootDot (front ++ host) ++ port = front ++ host ++ '.' :: port := by
        simp [rootDot]
      rw [shape', behind, shape, kept, kept]
      exact .inl ⟨⟨head.trans opened, List.mem_append_left _ mark⟩, rfl⟩
    · have unclosed : Unclosed (front ++ host ++ port) :=
        ⟨head.trans opened, by simp [portMark, List.mem_append.not.mp mark]⟩
      rw [shape', shape]
      rcases vetted_unclosed ⟨opened, mark⟩ hport with ⟨vetted, dotted⟩ | unrefused
      · rw [vetted, dotted, stripBrackets_unclosed mark, stripBrackets_dot]
        exact .inr (.inl ⟨fun closed => unclosed.2 closed.2, rfl⟩)
      · exact .inr (.inr ⟨unclosed, unrefused⟩)
  · have vetted := stripPort_unbracketed user opened text hport
    have dotted := stripPort_dot filled opened hport
    rw [vetted, shape', dotted, stripBrackets_plain opened, stripBrackets_dot]
    refine .inr (.inl ⟨?_, rfl⟩)
    rintro ⟨closed, -⟩
    rw [shape, head] at closed
    exact opened closed

/-- Nothing is left only of a text that is a port or nothing itself. -/
theorem stripPort_empty {text : Text} (empty : stripPort text = []) :
    text = [] ∨ text.head? = some ':' ∧ '@' ∉ text := by
  by_cases bracketed : text.head? = some '['
  · simp only [stripPort, if_pos bracketed] at empty
    split at empty
    · simp at empty
    · exact .inl empty
  · simp only [stripPort, if_neg bracketed] at empty
    by_cases colon : ':' ∈ text
    · obtain ⟨before, after, rfl, fresh⟩ := exists_last colon
      rw [rsplitOnce_last fresh] at empty
      by_cases digits : after.all (Numerals.isDigit 10) = true
      · simp only [digits, if_true] at empty
        subst empty
        refine .inr ⟨rfl, ?_⟩
        rintro (_ | ⟨_, inPort⟩)
        exact absurd (List.all_eq_true.mp digits '@' inPort) (by decide)
      · simp [digits] at empty
    · rw [rsplitOnce_none colon] at empty
      exact .inl empty

theorem stripPort_nonempty {front host : Text}
    (user : front = [] ∨ ∃ before, front = before ++ ['@']) (text : HostText host)
    (rest : Text) : stripPort (front ++ (host ++ rest)) ≠ [] := by
  intro empty
  rcases stripPort_empty empty with nothing | ⟨head, clean⟩
  · simp [text.nonempty] at nothing
  · rcases user with rfl | ⟨before, rfl⟩
    · rw [List.nil_append, List.head?_append_of_ne_nil _ text.nonempty] at head
      cases text with
      | bracket _ => cases head
      | name _ plain => exact (plain ':' (List.mem_of_head? head)).1 rfl
    · simp at clean

theorem Url.inside_authority (u : Url) {host : Text} (inside : AuthorityText host) :
    AuthorityText (u.authority host) := by
  have address := port_address u.hport
  have inPort : AuthorityText u.port :=
    ⟨address.avoids (by decide), address.avoids (by decide), address.avoids (by decide)⟩
  have whole := u.inside
  refine .append ?_ (inside.append inPort)
  cases user : u.userinfo with
  | none => exact ⟨List.not_mem_nil, List.not_mem_nil, List.not_mem_nil⟩
  | some front =>
    simp only [user, Option.getD_some, AuthorityText, List.mem_append, not_or] at whole
    obtain ⟨⟨slash, -⟩, ⟨question, -⟩, hash, -⟩ := whole
    simp [AuthorityText, slash, question, hash]

theorem Url.inside_host (u : Url) : AuthorityText u.host ∧ AuthorityText (rootDot u.host) := by
  have whole := u.inside
  simp only [AuthorityText, List.mem_append, not_or] at whole
  obtain ⟨⟨-, slash⟩, ⟨-, question⟩, -, hash⟩ := whole
  have inside : AuthorityText u.host := ⟨slash, question, hash⟩
  exact ⟨inside, inside.append (by unfold AuthorityText; decide)⟩

/-- A URL and the same URL with a root dot behind its host get the same verdict exactly where the
dot is blind. -/
theorem root_dot_iff (toLowercase : Text → Text) (guard : Guard) (u : Url) :
    (checkUrl toLowercase guard (u.withHost (rootDot u.host))).isDenied =
        (checkUrl toLowercase guard (u.withHost u.host)).isDenied ↔
      DotBlind toLowercase guard u := by
  obtain ⟨front, user, cut⟩ := stripUserinfo_authority u
  obtain ⟨inside, inside'⟩ := u.inside_host
  have plainCut := cut u.host u.last
  have dottedCut := cut (rootDot u.host) (by simp [rootDot, u.last])
  have filled : stripPort (stripUserinfo (u.authority u.host)) ≠ [] := by
    rw [plainCut]
    exact stripPort_nonempty user u.hostText u.port
  have filled' : stripPort (stripUserinfo (u.authority (rootDot u.host))) ≠ [] := by
    rw [dottedCut, rootDot, List.append_assoc]
    exact stripPort_nonempty user u.hostText _
  have plain := isDenied_parsed toLowercase guard u.named (u.inside_authority inside) u.htail filled
  have dotted :=
    isDenied_parsed toLowercase guard u.named (u.inside_authority inside') u.htail filled'
  rw [Url.withHost, Url.withHost, plain, dotted, DotBlind, plainCut]
  simp only [vettedHost, plainCut, dottedCut]
  rcases vetted_cases user u.hostText u.hport with ⟨closed, same⟩ | ⟨closed, ends⟩ |
    ⟨unclosed, unrefused, unrefused'⟩
  · have noUnclosed : ¬ Unclosed (front ++ (u.host ++ u.port)) := fun unclosed =>
      unclosed.2 closed.2
    simp [same, closed, noUnclosed]
  · rw [ends, ssrfCheck_dot, listsAllow_dot]
    cases allowsScheme toLowercase guard u.scheme <;>
      cases (ssrfCheck (stripBrackets (stripPort (front ++ (u.host ++ u.port))))).isSome <;>
      cases listsAllow toLowercase guard
        (stripBrackets (stripPort (front ++ (u.host ++ u.port)))) <;>
      simp [closed]
  · rw [unrefused, unrefused']
    cases allowsScheme toLowercase guard u.scheme <;> simp [unclosed]

def localhostUrl : Url where
  scheme := "https".toList
  userinfo := none
  host := "localhost".toList
  port := []
  tail := "/".toList
  named := by decide
  inside := by unfold AuthorityText; decide
  hostText := .name (by decide) (by simp)
  last := by decide
  hport := .absent
  htail := .starts (.inl rfl) []

/-- A root dot takes loopback past the guard. -/
theorem root_dot_hides_localhost :
    localhostUrl.withHost localhostUrl.host = "https://localhost/".toList ∧
    localhostUrl.withHost (rootDot localhostUrl.host) = "https://localhost./".toList ∧
    (checkUrl toAsciiLowercase Guard.default "https://localhost/".toList).isDenied = true ∧
    checkUrl toAsciiLowercase Guard.default "https://localhost./".toList = .allow := by
  decide

end EgressGuard
