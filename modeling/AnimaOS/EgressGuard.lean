import AnimaOS.IpAddr
import AnimaOS.TextSplit

/-!
# The egress guard

`check_url` and the functions under it, on texts as lists of characters.
Unicode lowercasing is the parameter `toLowercase`; the ASCII operations are
exact.
-/

namespace EgressGuard

open IpAddr Numerals TextSplit

abbrev Text := List Char

inductive EgressDenialReason where
  | forbiddenScheme (scheme : Text)
  | ssrfPrivateAddress (address : Text)
  | blocklistedHost (host : Text)
  | hostNotAllowed (host : Text)
  deriving DecidableEq, Repr

inductive EgressVerdict where
  | allow
  | deny (reason : EgressDenialReason)
  deriving DecidableEq, Repr

def EgressVerdict.isAllowed : EgressVerdict → Bool
  | .allow => true
  | .deny _ => false

def EgressVerdict.isDenied : EgressVerdict → Bool
  | .allow => false
  | .deny _ => true

structure Guard where
  allowedSchemes : List Text
  blocklistedHosts : List Text
  allowedHosts : Option (List Text)
  deriving DecidableEq, Repr

def Guard.default : Guard := ⟨["https".toList], [], none⟩

def eqIgnoreAsciiCase (a b : Text) : Bool := toAsciiLowercase a = toAsciiLowercase b

/-- The first `@` ends what is taken for the user information. -/
def stripUserinfo (authority : Text) : Text :=
  match splitOnce ['@'] authority with
  | some (_, after) => after
  | none => authority

def stripPort (authority : Text) : Text :=
  if authority.head? = some '[' then
    match splitOnce [']'] authority with
    | some (inner, _) => inner ++ [']']
    | none => authority
  else
    match rsplitOnce ':' authority with
    | some (host, after) => if after.all (isDigit 10) then host else authority
    | none => authority

def authorityOf (rest : Text) : Text := firstPiece '#' (firstPiece '?' (firstPiece '/' rest))

def parseSchemeHost (toLowercase : Text → Text) (url : Text) : Option (Text × Text) := do
  let (scheme, rest) ← splitOnce "://".toList url
  let host := stripPort (stripUserinfo (authorityOf rest))
  if host = [] then none else return (toLowercase scheme, host)

def stripBrackets (host : Text) : Text :=
  if host.head? = some '[' && host.getLast? = some ']' then (host.drop 1).dropLast else host

def isPrivateIpv4 (addr : Ipv4Addr) : Bool :=
  isLoopback addr || isPrivate addr || isLinkLocal addr || isUnspecified addr ||
    isBroadcast addr || octet addr 0 = 0 ||
    (octet addr 0 = 100 && 64 ≤ octet addr 1 && octet addr 1 ≤ 127) ||
    addr = ipv4OfOctets 169 254 169 254

def isPrivateIpv6 (addr : Ipv6Addr) : Bool :=
  addr.segments = [0, 0, 0, 0, 0, 0, 0, 1] || addr.segments = [0, 0, 0, 0, 0, 0, 0, 0] ||
    addr.segments.headD 0 &&& 0xffc0 = 0xfe80 || addr.segments.headD 0 &&& 0xfe00 = 0xfc00

def ipv4OfSegments (high low : Segment) : Ipv4Addr :=
  ipv4OfOctets ((high >>> 8).toNat % 256) ((high &&& 0xff).toNat % 256)
    ((low >>> 8).toNat % 256) ((low &&& 0xff).toNat % 256)

/-- The two addresses `::` and `::1` are left to the native classification. -/
def embeddedIpv4 (addr : Ipv6Addr) : Option Ipv4Addr :=
  match addr.segments with
  | [s0, s1, s2, s3, s4, s5, s6, s7] =>
    if [s0, s1, s2, s3, s4] = [0, 0, 0, 0, 0] ∧ s5 = 0xffff then some (ipv4OfSegments s6 s7)
    else if [s0, s1, s2, s3, s4, s5] = [0, 0, 0, 0, 0, 0] ∧ (s6 ≠ 0 ∨ s7 > 1) then
      some (ipv4OfSegments s6 s7)
    else none
  | _ => none

def u64Max : Nat := 2 ^ 64 - 1

def parseNumericPart (p : Text) : Option Nat :=
  if p = [] then none
  else if ['0', 'x'].isPrefixOf (toAsciiLowercase p) then
    let hex := (toAsciiLowercase p).drop 2
    if hex = [] || !hex.all (isDigit 16) then none else fromStrRadix 16 u64Max hex
  else if p.length > 1 && p.head? = some '0' then
    if !p.all (isDigit 8) then none else fromStrRadix 8 u64Max p
  else if !p.all (isDigit 10) then none
  else fromStrRadix 10 u64Max p

/-- `inet_aton` composition: the last part takes the bytes the others leave. -/
def composeParts : List Nat → Option Nat
  | [a] => some a
  | [a, b] => if a > 0xff || b > 0x00ffffff then none else some (a <<< 24 ||| b)
  | [a, b, c] =>
    if a > 0xff || b > 0xff || c > 0xffff then none else some (a <<< 24 ||| b <<< 16 ||| c)
  | [a, b, c, d] =>
    if [a, b, c, d].any (· > 0xff) then none
    else some (a <<< 24 ||| b <<< 16 ||| c <<< 8 ||| d)
  | _ => none

/-- The numeric part of `parse_ipv4_any`, after its fast path. -/
def parseIpv4Parts (host : Text) : Option Ipv4Addr := do
  let parts := host.splitOn '.'
  if parts.length > 4 then none
  else
    let nums ← parts.mapM parseNumericPart
    let value ← composeParts nums
    if value > 2 ^ 32 - 1 then none else return BitVec.ofNat 32 value

def parseIpv4Any (host : Text) : Option Ipv4Addr :=
  match parseIpv4 host with
  | some addr => some addr
  | none => parseIpv4Parts host

def namesLocalhost (host : Text) : Bool :=
  let lower := toAsciiLowercase host
  lower = "localhost".toList || ".localhost".toList.isSuffixOf lower

def isPrivateLiteral6 (host : Text) : Bool :=
  match parseIpv6 host with
  | some addr => (embeddedIpv4 addr).any isPrivateIpv4 || isPrivateIpv6 addr
  | none => false

def ssrfCheck (host : Text) : Option EgressDenialReason :=
  let host := stripBrackets host
  if namesLocalhost host then some (.ssrfPrivateAddress host)
  else if ':' ∈ host then
    if isPrivateLiteral6 host then some (.ssrfPrivateAddress host) else none
  else if (parseIpv4Any host).any isPrivateIpv4 then some (.ssrfPrivateAddress host)
  else none

def hostMatches (toLowercase : Text → Text) (host pattern : Text) : Bool :=
  let h := trimEnd '.' host
  let p := trimEnd '.' (trimStart '.' pattern)
  eqIgnoreAsciiCase h p || ('.' :: p).isSuffixOf h ||
    ('.' :: toLowercase p).isSuffixOf (toLowercase h)

def checkUrl (toLowercase : Text → Text) (guard : Guard) (url : Text) : EgressVerdict :=
  match parseSchemeHost toLowercase url with
  | none => .deny (.forbiddenScheme "<unparseable>".toList)
  | some (scheme, host) =>
    if !guard.allowedSchemes.any (fun s => eqIgnoreAsciiCase s scheme) then
      .deny (.forbiddenScheme scheme)
    else
      let hostClean := stripBrackets host
      match ssrfCheck hostClean with
      | some reason => .deny reason
      | none =>
        if guard.blocklistedHosts.any (hostMatches toLowercase hostClean) then
          .deny (.blocklistedHost hostClean)
        else
          match guard.allowedHosts with
          | some allow =>
            if allow.any (hostMatches toLowercase hostClean) then .allow
            else .deny (.hostNotAllowed hostClean)
          | none => .allow

end EgressGuard
