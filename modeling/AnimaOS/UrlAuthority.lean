import AnimaOS.EgressScreen

/-!
# The host the guard vets and the host a client connects to

The reference split of an authority takes everything up to its last `@` as user
information; the guard stops at the first one.
-/

namespace EgressGuard

open AddressSpelling IpAddr Numerals TextSplit

/-- `host [":" port]`: the host is a bracketed literal or a name without delimiters. -/
inductive HostPort : Text → Text → Prop where
  | bracket {inner port : Text} (closed : ']' ∉ inner) (hport : Port port) :
      HostPort ('[' :: (inner ++ ']' :: port)) ('[' :: (inner ++ [']']))
  | name {host port : Text} (named : host ≠ [])
      (plain : ∀ c ∈ host, c ≠ ':' ∧ c ≠ '[' ∧ c ≠ ']') (hport : Port port) :
      HostPort (host ++ port) host

/-- The reference split of an authority into user information, host and port. -/
inductive ReferenceHost : Text → Text → Prop where
  | bare {authority host : Text} (noUser : '@' ∉ authority) (split : HostPort authority host) :
      ReferenceHost authority host
  | userinfo {user hostPort host : Text} (last : '@' ∉ hostPort) (split : HostPort hostPort host) :
      ReferenceHost (user ++ '@' :: hostPort) host

/-- At most one `@`, or the first one stands right before the bracketed reference host. -/
def SplitsAlike (authority host : Text) : Prop :=
  authority.count '@' ≤ 1 ∨
    ∃ user rest, authority = user ++ '@' :: (host ++ rest) ∧ '@' ∉ user ∧ host.head? = some '['

def PrivateHost (host : Text) : Prop :=
  (∃ v4, isPrivateIpv4 v4 = true ∧ HostSpelling host v4) ∨
    ∃ text addr, host = '[' :: (text ++ [']']) ∧ Ipv6Literal text addr ∧ isPrivateIpv6 addr = true

theorem HostPort.nonempty {text host : Text} (split : HostPort text host) : host ≠ [] := by
  cases split with
  | bracket _ _ => exact List.cons_ne_nil _ _
  | name named _ _ => exact named

theorem HostPort.mem {text host : Text} (split : HostPort text host) {c : Char}
    (hc : c ∈ host) : c ∈ text := by
  cases split with
  | @bracket inner port _ _ =>
    simp only [List.mem_cons, List.mem_append, List.not_mem_nil, or_false] at hc ⊢
    rcases hc with rfl | hc | rfl
    · exact .inl rfl
    · exact .inr (.inl hc)
    · exact .inr (.inr (.inl rfl))
  | name _ _ _ => exact List.mem_append_left _ hc

theorem stripPort_hostPort {text host : Text} (split : HostPort text host) :
    stripPort text = host := by
  cases split with
  | bracket closed _ => exact stripPort_bracket closed _
  | @name host port named plain hport =>
    refine stripPort_name named ?_ (fun h => (plain ':' h).1 rfl) hport
    intro h
    exact (plain '[' (List.mem_of_head? h)).2.1 rfl

/-- A bracketed host is found again whatever follows it. -/
theorem stripPort_bracketed {text host : Text} (split : HostPort text host)
    (bracketed : host.head? = some '[') (rest : Text) : stripPort (host ++ rest) = host := by
  cases split with
  | @bracket inner port closed _ =>
    rw [List.cons_append, List.append_assoc, List.singleton_append]
    exact stripPort_bracket closed rest
  | name _ plain _ => exact absurd rfl (plain '[' (List.mem_of_head? bracketed)).2.1

theorem stripUserinfo_first {user : Text} (fresh : '@' ∉ user) (rest : Text) :
    stripUserinfo (user ++ '@' :: rest) = rest := by
  simp only [stripUserinfo, splitOnce_char fresh]

/-- With an `@` left in the text, only a bracketed host can come out without one. -/
theorem stripPort_at {text host : Text} (mark : '@' ∈ text) (clean : '@' ∉ host)
    (vetted : stripPort text = host) :
    host.head? = some '[' ∧ ∃ rest, text = host ++ rest := by
  have whole : text ≠ host := fun h => clean (h ▸ mark)
  simp only [stripPort] at vetted
  by_cases bracketed : text.head? = some '['
  · rw [if_pos bracketed] at vetted
    by_cases closed : ']' ∈ text
    · obtain ⟨inner, after, rfl, fresh⟩ := List.eq_append_cons_of_mem closed
      rw [splitOnce_char fresh] at vetted
      subst vetted
      refine ⟨?_, after, by simp⟩
      cases inner with
      | nil => simp at bracketed
      | cons c inner => simpa using bracketed
    · rw [splitOnce_none closed] at vetted
      exact absurd vetted whole
  · rw [if_neg bracketed] at vetted
    by_cases colon : ':' ∈ text
    · obtain ⟨before, after, rfl, fresh⟩ := exists_last colon
      rw [rsplitOnce_last fresh] at vetted
      by_cases digits : after.all (isDigit 10) = true
      · -- the port has no `@`, so it is in what is kept
        simp only [digits, if_true] at vetted
        subst vetted
        rcases List.mem_append.mp mark with kept | _ | ⟨_, inPort⟩
        · exact absurd kept clean
        · exact absurd (List.all_eq_true.mp digits '@' inPort) (by decide)
      · simp only [digits] at vetted
        exact absurd vetted whole
    · rw [rsplitOnce_none colon] at vetted
      exact absurd vetted whole

theorem ReferenceHost.nonempty {authority host : Text} (reference : ReferenceHost authority host) :
    host ≠ [] := by
  cases reference with
  | bare _ split => exact split.nonempty
  | userinfo _ split => exact split.nonempty

theorem vetted_splits_alike {authority host : Text} (reference : ReferenceHost authority host)
    (vetted : stripPort (stripUserinfo authority) = host) : SplitsAlike authority host := by
  cases reference with
  | bare noUser _ => exact .inl (by rw [List.count_eq_zero.mpr noUser]; decide)
  | @userinfo user hostPort host last split =>
    have clean : '@' ∉ host := fun h => last (split.mem h)
    by_cases inner : '@' ∈ user
    · obtain ⟨first, middle, rfl, fresh⟩ := List.eq_append_cons_of_mem inner
      have cut : first ++ '@' :: middle ++ '@' :: hostPort =
          first ++ '@' :: (middle ++ '@' :: hostPort) := by simp
      simp only [cut, stripUserinfo_first fresh] at vetted
      obtain ⟨bracketed, rest, found⟩ := stripPort_at (by simp) clean vetted
      exact .inr ⟨first, rest, by rw [cut, found], fresh, bracketed⟩
    · refine .inl ?_
      simp [List.count_eq_zero.mpr inner, List.count_eq_zero.mpr last]

theorem splits_alike_vetted {authority host : Text} (reference : ReferenceHost authority host)
    (alike : SplitsAlike authority host) : stripPort (stripUserinfo authority) = host := by
  have hostSplit : ∃ text, HostPort text host := by
    cases reference with
    | bare _ split => exact ⟨_, split⟩
    | userinfo _ split => exact ⟨_, split⟩
  obtain ⟨text, hostSplit⟩ := hostSplit
  rcases alike with single | ⟨user, rest, rfl, fresh, bracketed⟩
  · cases reference with
    | bare noUser split => rw [stripUserinfo_none noUser, stripPort_hostPort split]
    | @userinfo user hostPort host last split =>
      have fresh : '@' ∉ user := by
        simp only [List.count_append, List.count_cons_self] at single
        exact List.count_eq_zero.mp (by omega)
      simp only [stripUserinfo_first fresh, stripPort_hostPort split]
  · simp only [stripUserinfo_first fresh, stripPort_bracketed hostSplit bracketed]

theorem private_host_ssrf {host : Text} (hidden : PrivateHost host) :
    (ssrfCheck (stripBrackets host)).isSome := by
  rcases hidden with ⟨v4, hidden, spelled⟩ | ⟨text, addr, rfl, literal, hidden⟩
  · exact spelling_ssrf spelled hidden
  · exact literal_ssrf literal (by rw [hidden, Bool.or_true])

/-- The guard vets the reference host, and so denies a private one, exactly when both splits
agree on it. -/
theorem vetted_host_iff (toLowercase : Text → Text) (guard : Guard)
    {scheme authority tail host : Text} (named : ':' ∉ scheme) (inside : AuthorityText authority)
    (htail : Tail tail) (reference : ReferenceHost authority host) :
    let url := scheme ++ "://".toList ++ (authority ++ tail)
    ((parseSchemeHost toLowercase url).map Prod.snd = some host ∧
      (PrivateHost host → (checkUrl toLowercase guard url).isDenied = true)) ↔
        SplitsAlike authority host := by
  intro url
  have parsed := parseSchemeHost_eq toLowercase named inside htail
  have found : ∀ {h : Text}, stripPort (stripUserinfo authority) = h → h ≠ [] →
      parseSchemeHost toLowercase url = some (toLowercase scheme, h) := by
    rintro h rfl nonempty
    rw [parsed, if_neg nonempty]
  constructor
  · rintro ⟨vetted, -⟩
    apply vetted_splits_alike reference
    by_cases empty : stripPort (stripUserinfo authority) = []
    · rw [parsed, if_pos empty] at vetted
      cases vetted
    · rw [found rfl empty] at vetted
      exact Option.some.inj vetted
  · intro alike
    have agreed := found (splits_alike_vetted reference alike) reference.nonempty
    constructor
    · rw [agreed]
      rfl
    · intro hidden
      exact denied_of_ssrf agreed (private_host_ssrf hidden)

theorem vetted_host_iff_userinfo :
    ((parseSchemeHost toAsciiLowercase
        ("https".toList ++ "://".toList ++ ("me@10.0.0.1:443".toList ++ "/x".toList))).map Prod.snd =
      some "10.0.0.1".toList ∧
      (PrivateHost "10.0.0.1".toList → (checkUrl toAsciiLowercase Guard.default
        ("https".toList ++ "://".toList ++ ("me@10.0.0.1:443".toList ++ "/x".toList))).isDenied =
          true)) ↔
      SplitsAlike "me@10.0.0.1:443".toList "10.0.0.1".toList := by
  have port : Port (':' :: "443".toList) := .digits (List.all_eq_true.mp rfl)
  have split : HostPort ("10.0.0.1".toList ++ ':' :: "443".toList) "10.0.0.1".toList :=
    .name (by decide) (by simp) port
  have reference : ReferenceHost ("me".toList ++ '@' :: "10.0.0.1:443".toList) "10.0.0.1".toList :=
    .userinfo (by decide) split
  exact vetted_host_iff toAsciiLowercase Guard.default (by decide)
    (by unfold AuthorityText; decide) (.starts (.inl rfl) _) reference

/-- A second `@` hides a loopback host: the guard vets `b@127.0.0.1` and lets it through. -/
theorem second_at_hides_loopback :
    ReferenceHost "a@b@127.0.0.1".toList "127.0.0.1".toList ∧
    PrivateHost "127.0.0.1".toList ∧
    parseSchemeHost toAsciiLowercase "https://a@b@127.0.0.1/".toList =
      some ("https".toList, "b@127.0.0.1".toList) ∧
    checkUrl toAsciiLowercase Guard.default "https://a@b@127.0.0.1/".toList = .allow := by
  have loopback : InetAton "127.0.0.1".toList (0x7f000001#32).toNat := parseIpv4_sound (by decide)
  have split : HostPort ("127.0.0.1".toList ++ []) "127.0.0.1".toList :=
    .name (by decide) (by simp) .absent
  have reference : ReferenceHost ("a@b".toList ++ '@' :: "127.0.0.1".toList) "127.0.0.1".toList :=
    .userinfo (by decide) split
  exact ⟨reference, .inl ⟨_, by decide, .inetAton loopback⟩, by decide, by decide⟩

end EgressGuard
