import AnimaOS.GuardAgreement
import AnimaOS.WebhookRegistry

/-!
# The hosts that webhooks are delivered to

A client ends the authority of a URL at a backslash as well. The registry reads
on, so that what it vets may lie behind the host that is contacted.
-/

namespace WebhookRegistry

open AddressSpelling GuardAgreement IpAddr MotorGate TextSplit
open EgressGuard (AuthorityText HostPort ReferenceHost Tail stripBrackets)

/-! ## The host a client contacts -/

def InternalV4 (addr : Ipv4Addr) : Prop :=
  isLoopback addr ∨ isPrivate addr ∨ isLinkLocal addr ∨ isUnspecified addr

/-- `::1`, `::`, `fc00::/7`, `fe80::/10` and the mapped IPv4 addresses. -/
def InternalV6 (addr : Ipv6Addr) : Prop :=
  addr.segments = [0, 0, 0, 0, 0, 0, 0, 1] ∨ addr.segments = [0, 0, 0, 0, 0, 0, 0, 0] ∨
    addr.segments.headD 0 &&& 0xfe00 = 0xfc00 ∨ addr.segments.headD 0 &&& 0xffc0 = 0xfe80 ∨
    ∃ v4, addr.segments = [0, 0, 0, 0, 0, 0xffff, highSegment v4, lowSegment v4] ∧ InternalV4 v4

inductive InternalName : Text → Prop where
  | localhost : InternalName "localhost".toList
  | subdomain (label : Text) : InternalName (label ++ ".localhost".toList)
  | metadata : InternalName "metadata.google.internal".toList

/-- Letter case, root dots and a zone identifier make no difference. -/
inductive InternalHost : Text → Prop where
  | name {host : Text} (named : InternalName (toAsciiLowercase host))
      (plain : host.head? ≠ some '[') (dots : Nat) : InternalHost (host ++ List.replicate dots '.')
  | inetAton {text : Text} {v4 : Ipv4Addr} (spelled : InetAton text v4.toNat)
      (internal : InternalV4 v4) (dots : Nat) : InternalHost (text ++ List.replicate dots '.')
  | literal {text zone : Text} {addr : Ipv6Addr} (literal : Ipv6Literal text addr)
      (internal : InternalV6 addr) (zoned : zone = [] ∨ ∃ id, zone = '%' :: id) :
      InternalHost ('[' :: (text ++ zone ++ [']']))

def ClientAuthority (text : Text) : Prop := AuthorityText text ∧ '\\' ∉ text

inductive ClientTail : Text → Prop where
  | shared {tail : Text} (htail : Tail tail) : ClientTail tail
  | backslash (rest : Text) : ClientTail ('\\' :: rest)

def WebScheme (scheme : Text) : Prop := scheme = "https".toList ∨ scheme = "http".toList

/-- A client of the URL contacts an internal host. -/
def TargetsInternal (url : Text) : Prop :=
  ∃ scheme authority tail host, url = scheme ++ "://".toList ++ (authority ++ tail) ∧
    WebScheme (toAsciiLowercase scheme) ∧ ClientAuthority authority ∧ ClientTail tail ∧
    ReferenceHost authority host ∧ InternalHost host

/-- A backslash ends the internal host, and what the registry makes of the whole authority is some
other host that it does not refuse. -/
def BackslashHides (url : Text) : Prop :=
  ∃ scheme front behind host, url = scheme ++ "://".toList ++ (front ++ '\\' :: behind) ∧
    WebScheme scheme ∧ ClientAuthority front ∧ ReferenceHost front host ∧ InternalHost host ∧
    webhookHost url ≠ [] ∧ hostIsSsrfUnsafe (webhookHost url) = false

/-! ## Internal hosts are refused -/

theorem internalV4_private {addr : Ipv4Addr} (internal : InternalV4 addr) :
    ipIsPrivateOrMetadata (.v4 addr) = true := by
  simpa [ipIsPrivateOrMetadata, InternalV4, or_assoc] using internal

theorem toIpv4Mapped_segments {addr : Ipv6Addr} {v4 : Ipv4Addr}
    (shape : addr.segments = [0, 0, 0, 0, 0, 0xffff, highSegment v4, lowSegment v4]) :
    toIpv4Mapped addr = some v4 := by
  rw [toIpv4Mapped, shape]
  exact congrArg some ((EgressGuard.ipv4OfSegments_bytes _ _).symm.trans
    (EgressGuard.ipv4OfSegments_segments v4))

/-- What is private as an IPv6 address is not the mapping of an IPv4 address. -/
theorem native_private {addr : Ipv6Addr} (native : EgressGuard.isPrivateIpv6 addr = true) :
    ipIsPrivateOrMetadata (unmapped (.v6 addr)) = true := by
  cases mapped : toIpv4Mapped addr with
  | none =>
    have same : ipIsPrivateOrMetadata (.v6 addr) = EgressGuard.isPrivateIpv6 addr := by
      simp only [ipIsPrivateOrMetadata, EgressGuard.isPrivateIpv6]
      grind
    simpa [unmapped, mapped, same] using native
  | some v4 =>
    have refused := (toIpv4Mapped_some mapped).2
    rw [native] at refused
    cases refused

theorem internalV6_private {addr : Ipv6Addr} (internal : InternalV6 addr) :
    ipIsPrivateOrMetadata (unmapped (.v6 addr)) = true := by
  rcases internal with same | same | same | same | ⟨v4, shape, inner⟩
  · exact native_private (by simp only [EgressGuard.isPrivateIpv6, same, decide_true, Bool.true_or])
  · exact native_private (by
      simp only [EgressGuard.isPrivateIpv6, same, decide_true, Bool.or_true, Bool.true_or])
  · exact native_private (by simp only [EgressGuard.isPrivateIpv6, same, decide_true, Bool.or_true])
  · exact native_private (by
      simp only [EgressGuard.isPrivateIpv6, same, decide_true, Bool.or_true, Bool.true_or])
  · simpa [unmapped, toIpv4Mapped_segments shape] using internalV4_private inner

theorem unsafe_of_ip {host : Text} {address : Address} (parsed : parseHostIp host = some address)
    (internal : ipIsPrivateOrMetadata address = true) : hostIsSsrfUnsafe host = true := by
  simp only [hostIsSsrfUnsafe, isPrivateOrMetadataHost]
  split
  · rfl
  · split
    · rfl
    · simp only [parsed, Option.any_some, internal]

theorem internalName_unsafe {host : Text} (named : InternalName host) :
    hostIsSsrfUnsafe host = true ∧ host.getLast? ≠ some '.' := by
  cases named with
  | localhost => exact ⟨rfl, by decide⟩
  | subdomain label =>
    have suffix : ".localhost".toList.isSuffixOf (label ++ ".localhost".toList) = true :=
      List.isSuffixOf_iff_suffix.mpr (List.suffix_append _ _)
    refine ⟨by simp only [hostIsSsrfUnsafe, isPrivateOrMetadataHost, suffix, Bool.or_true, if_true], ?_⟩
    simp [List.getLast?_append]
  | metadata => exact ⟨by decide, by decide⟩

theorem trimEnd_dots {text : Text} (last : text.getLast? ≠ some '.') (dots : Nat) :
    trimEnd '.' (text ++ List.replicate dots '.') = text := by
  induction dots with
  | zero => simpa [trailingDot] using trimEnd_dot last false
  | succ dots ih => rw [List.replicate_succ', ← List.append_assoc, trimEnd_snoc, if_pos rfl, ih]

theorem parseHostIp_zone {text : Text} (fresh : '%' ∉ text) (id : Text) :
    parseHostIp (text ++ '%' :: id) = parseHostIp text := by
  simp only [parseHostIp, firstPiece_stop fresh, firstPiece_whole fresh]

/-- Trimming the end of a zoned literal stops in the zone. -/
theorem trimEnd_zone (text id : Text) :
    ∃ id', trimEnd '.' (text ++ '%' :: id) = text ++ '%' :: id' := by
  induction id using List.reverseRecOn with
  | nil => exact ⟨[], by rw [trimEnd_snoc, if_neg (by decide)]⟩
  | append_singleton id c ih =>
    have shape : text ++ '%' :: (id ++ [c]) = text ++ '%' :: id ++ [c] := by simp
    rw [shape, trimEnd_snoc]
    split
    · exact ih
    · exact ⟨id ++ [c], shape.symm⟩

theorem inetAton_undotted {text : Text} {value : Nat} (spelled : InetAton text value) :
    text.getLast? ≠ some '.' := by
  obtain ⟨c, last, digit⟩ := spelled.last
  rw [last]
  rintro ⟨rfl⟩
  cases digit

theorem lower_last {text : Text} (last : (toAsciiLowercase text).getLast? ≠ some '.') :
    text.getLast? ≠ some '.' := by
  intro dot
  simp [toAsciiLowercase, dot] at last

theorem internalHost_unsafe {host : Text} (internal : InternalHost host) :
    hostIsSsrfUnsafe (toAsciiLowercase (trimEnd '.' (stripBrackets host))) = true := by
  cases internal with
  | @name host named plain dots =>
    obtain ⟨refused, last⟩ := internalName_unsafe named
    have filled : host ≠ [] := by
      rintro rfl
      exact absurd refused (by decide)
    have front : (host ++ List.replicate dots '.').head? ≠ some '[' := by
      rwa [List.head?_append_of_ne_nil _ filled]
    rw [EgressGuard.stripBrackets_plain front, trimEnd_dots (lower_last last), refused]
  | @inetAton text v4 spelled internal dots =>
    have front : (text ++ List.replicate dots '.').head? ≠ some '[' := by
      rw [List.head?_append_of_ne_nil _ (EgressGuard.inetAton_nonempty spelled)]
      exact EgressGuard.head_not_bracket (EgressGuard.inetAton_address spelled)
    rw [EgressGuard.stripBrackets_plain front, trimEnd_dots (inetAton_undotted spelled)]
    exact unsafe_of_ip (parseHostIp_inetAton spelled.toLower) (internalV4_private internal)
  | @literal text zone addr literal internal zoned =>
    have lower := Ipv6Literal.toLower literal
    have fresh : '%' ∉ toAsciiLowercase text :=
      (EgressGuard.literal_address lower).avoids (by decide)
    have parsed := parseHostIp_literal lower
    rw [EgressGuard.stripBrackets_bracket]
    rcases zoned with rfl | ⟨id, rfl⟩
    · have kept : trimEnd '.' (text ++ []) = text := trimEnd_dots literal.last 0
      rw [kept]
      exact unsafe_of_ip parsed (internalV6_private internal)
    · obtain ⟨id', trimmed⟩ := trimEnd_zone text id
      have split : toAsciiLowercase (text ++ '%' :: id') =
          toAsciiLowercase text ++ '%' :: toAsciiLowercase id' := by
        simp [toAsciiLowercase]
      rw [trimmed, split]
      refine unsafe_of_ip ?_ (internalV6_private internal)
      rw [parseHostIp_zone fresh]
      exact parsed

/-! ## The authority as the registry reads it -/

theorem hostOf_hostPort {text host : Text} (split : HostPort text host) (fresh : '@' ∉ text) :
    hostOf text = stripBrackets host := by
  simp only [hostOf, rsplitOnce_none fresh]
  cases split with
  | @bracket inner port closed _ =>
    simp only [firstPiece_stop closed, EgressGuard.stripBrackets_bracket]
  | @name host port named plain hport =>
    have colonless : ':' ∉ host := fun found => (plain ':' found).1 rfl
    have open' : host.head? ≠ some '[' := fun found =>
      (plain '[' (List.mem_of_head? found)).2.1 rfl
    rw [EgressGuard.stripBrackets_plain open']
    split
    · rename_i opened
      have head : (host ++ port).head? = host.head? := List.head?_append_of_ne_nil _ named
      rw [opened] at head
      exact absurd head.symm open'
    · exact firstPiece_port colonless hport

theorem hostOf_reference {authority host : Text} (reference : ReferenceHost authority host) :
    hostOf authority = stripBrackets host := by
  cases reference with
  | bare noUser split => exact hostOf_hostPort split noUser
  | @userinfo user hostPort _ last split => rw [hostOf_last user _ last, hostOf_hostPort split last]

/-- Where nothing but a slash, a question mark or a hash ends it, the authority is the client's. -/
theorem webhookHost_reference {scheme authority tail host : Text} (named : ':' ∉ scheme)
    (inside : AuthorityText authority) (htail : Tail tail)
    (reference : ReferenceHost authority host) :
    webhookHost (scheme ++ "://".toList ++ (authority ++ tail)) =
      toAsciiLowercase (trimEnd '.' (stripBrackets host)) := by
  have cut : splitOnce "://".toList (scheme ++ "://".toList ++ (authority ++ tail)) =
      some (scheme, authority ++ tail) := splitOnce_first named _
  simp only [webhookHost, extractHost, cut, authorityOf_tail inside htail,
    hostOf_reference reference]

theorem validate_iff {scheme rest : Text} (named : ':' ∉ scheme) :
    let url := scheme ++ "://".toList ++ rest
    validateWebhookUrl url = .ok () ↔ WebScheme scheme ∧ webhookHost url ≠ [] ∧
      hostIsSsrfUnsafe (webhookHost url) = false := by
  intro url
  have cut : splitOnce "://".toList url = some (scheme, rest) := splitOnce_first named _
  simp only [validateWebhookUrl, cut]
  by_cases web : WebScheme scheme
  · have known : ¬ (scheme ≠ "https".toList ∧ scheme ≠ "http".toList) := by
      rintro ⟨notHttps, notHttp⟩
      exact web.elim notHttps notHttp
    rw [if_neg known]
    by_cases empty : webhookHost url = []
    · simp [empty]
    · have filled : (webhookHost url).isEmpty = false := by simpa using empty
      rw [filled, if_neg Bool.false_ne_true]
      cases hostIsSsrfUnsafe (webhookHost url) <;> simp [web, empty]
  · have unknown : scheme ≠ "https".toList ∧ scheme ≠ "http".toList :=
      ⟨fun same => web (.inl same), fun same => web (.inr same)⟩
    rw [if_pos unknown]
    simp [web]

theorem WebScheme.named {scheme : Text} (web : WebScheme (toAsciiLowercase scheme)) :
    ':' ∉ scheme := by
  intro colon
  have lower : ':' ∈ toAsciiLowercase scheme := List.mem_map.mpr ⟨':', colon, rfl⟩
  rcases web with https | http
  · rw [https] at lower
    exact absurd lower (by decide)
  · rw [http] at lower
    exact absurd lower (by decide)

/-- An accepted URL has an internal target exactly when a backslash hides it. -/
theorem accepted_internal_iff (url : Text) :
    validateWebhookUrl url = .ok () ∧ TargetsInternal url ↔ BackslashHides url := by
  constructor
  · rintro ⟨valid, scheme, authority, tail, host, rfl, web, ⟨inside, noBackslash⟩, htail, reference,
      internal⟩
    obtain ⟨exact', filled, unrefused⟩ := (validate_iff web.named).mp valid
    cases htail with
    | shared htail =>
      rw [webhookHost_reference web.named inside htail reference,
        internalHost_unsafe internal] at unrefused
      cases unrefused
    | backslash behind =>
      exact ⟨scheme, authority, behind, host, rfl, exact', ⟨inside, noBackslash⟩, reference,
        internal, filled, unrefused⟩
  · rintro ⟨scheme, front, behind, host, rfl, web, inside, reference, internal, filled, unrefused⟩
    have lowered : WebScheme (toAsciiLowercase scheme) := by
      rcases web with rfl | rfl
      · exact .inl rfl
      · exact .inr rfl
    exact ⟨(validate_iff lowered.named).mpr ⟨web, filled, unrefused⟩, scheme, front, _, host, rfl,
      lowered, inside, .backslash behind, reference, internal⟩

/-- A run that is offered no URL with a hidden target never returns an endpoint with an internal
one, and whatever was run, any URL with a hidden target can be offered next and is returned. -/
theorem endpoints_external (ops : List RegistryOp) :
    ((∀ op ∈ ops, ∀ url, Offers op url → ¬ BackslashHides url) →
      ∀ kind, ∀ ep ∈ endpointsForEvent (registry ops) kind, ¬ TargetsInternal ep.url) ∧
    ∀ url, BackslashHides url → ∃ op, Offers op url ∧ ∀ kind,
      ∃ ep ∈ endpointsForEvent (registry (ops ++ [op])) kind, TargetsInternal ep.url := by
  constructor
  · intro meets kind ep listed targets
    obtain ⟨valid, op, given, offers⟩ := endpointsForEvent_vetted listed
    exact meets op given ep.url offers ((accepted_internal_iff ep.url).mp ⟨valid, targets⟩)
  · intro url hidden
    obtain ⟨valid, targets⟩ := (accepted_internal_iff url).mpr hidden
    let ep : WebhookEndpoint := ⟨"wh-1", url, .all, true⟩
    have stored : (KeyedMap.empty.insert ep.id ep).get ep.id = some ep :=
      KeyedMap.get_insert_self _ _ _
    have surfaced : (loaded (KeyedMap.empty.insert ep.id ep)).get ep.id = some ep := by
      have vetted : (validateWebhookUrl ep.url).isOk = true := by rw [valid]; rfl
      rw [loaded, KeyedMap.get_retain, stored, Option.filter_some, if_pos vetted]
    refine ⟨.openRegistry "webhooks.json" (.store (KeyedMap.empty.insert ep.id ep)),
      ⟨ep.id, ep, stored, rfl⟩, fun kind => ⟨ep, ?_, targets⟩⟩
    rw [registry, List.foldl_append]
    exact List.mem_filter.mpr ⟨KeyedMap.mem_values_get.mpr ⟨ep.id, surfaced⟩, rfl⟩

/-- The registry vets `example.com`, the client contacts `127.0.0.1`. -/
theorem backslash_hides_loopback :
    let hidden : WebhookEndpoint := ⟨"wh-1", "http://127.0.0.1\\@example.com/".toList, .all, true⟩
    validateWebhookUrl hidden.url = .ok () ∧ TargetsInternal hidden.url ∧
      endpointsForEvent (registry [.register hidden (.ok ())]) "task_completed" = [hidden] := by
  intro hidden
  have loopback : InetAton "127.0.0.1".toList (0x7f000001#32).toNat :=
    EgressGuard.parseIpv4_sound (by decide)
  have split : HostPort ("127.0.0.1".toList ++ []) "127.0.0.1".toList :=
    .name (by decide) (by simp) .absent
  have internal : InternalHost ("127.0.0.1".toList ++ List.replicate 0 '.') :=
    .inetAton loopback (.inl (by decide)) 0
  have targets : TargetsInternal hidden.url :=
    ⟨"http".toList, "127.0.0.1".toList, "\\@example.com/".toList, "127.0.0.1".toList, by decide,
      .inr (by decide), ⟨by unfold AuthorityText; decide, by decide⟩, .backslash _,
      .bare (by decide) split, internal⟩
  exact ⟨by decide, targets, by decide⟩

end WebhookRegistry
