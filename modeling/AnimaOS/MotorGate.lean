import AnimaOS.IpAddr
import AnimaOS.PathSegments

/-!
# The unsafe motor action gate

Filesystem and network screening, on texts as lists of characters.
-/

namespace MotorGate

open IpAddr Numerals PathSegments TextSplit

abbrev Text := List Char

inductive VetoReason where
  | unsafeMotorAction (action policy : Text)
  deriving DecidableEq, Repr

inductive VetoResult where
  | allow
  | veto (reason : VetoReason)
  deriving DecidableEq, Repr

def VetoResult.isVetoed : VetoResult → Bool
  | .allow => false
  | .veto _ => true

/-- A verified capability; the gate reads its name. -/
structure Capability where
  capability : Text
  deriving DecidableEq, Repr

def defaultCriticalPrefixes : List Text :=
  ["/etc", "/boot", "/sys", "/proc", "/dev", "/usr/lib", "/usr/bin", "/usr/sbin", "/sbin", "/bin",
    "/lib", "/lib64"].map String.toList

def writeOps : List Text :=
  ["write", "delete", "remove", "move", "rename", "chmod", "chown", "truncate", "overwrite",
    "append"].map String.toList

structure UnsafeMotorActionGate where
  criticalPrefixes : List Text
  blocklistedHosts : List Text
  deriving DecidableEq, Repr

def UnsafeMotorActionGate.new : UnsafeMotorActionGate := ⟨defaultCriticalPrefixes, []⟩

def withCriticalPrefix (gate : UnsafeMotorActionGate) (path : Text) : UnsafeMotorActionGate :=
  { gate with criticalPrefixes := gate.criticalPrefixes ++ [path] }

def withBlocklistedHost (gate : UnsafeMotorActionGate) (host : Text) : UnsafeMotorActionGate :=
  { gate with blocklistedHosts := gate.blocklistedHosts ++ [host] }

/-! ## Filesystem screening -/

/-- The stack of segments that is left after `.` and `..`. -/
def components (path : Text) : List Text := resolve ['.'] ['.', '.'] (path.splitOn '/')

def normalizePath (path : Text) : Text := '/' :: ['/'].intercalate (components path)

def pathUnderPrefix (path pre : Text) : Bool :=
  match path.dropPrefix? (trimEnd '/' pre) with
  | some rest => rest.isEmpty || rest.head? = some '/'
  | none => false

def isWrite (operation : Text) : Bool := writeOps.any (toAsciiLowercase operation = ·)

def grantsFilesystem (cap : Capability) : Bool :=
  cap.capability = "motor.filesystem.critical".toList ||
    cap.capability = "motor.filesystem.*".toList

def screenFilesystem (gate : UnsafeMotorActionGate) (operation path : Text)
    (capability : Option Capability) : VetoResult :=
  if !isWrite operation then .allow
  else if !gate.criticalPrefixes.any (pathUnderPrefix (normalizePath path)) then .allow
  else if capability.any grantsFilesystem then .allow
  else .veto (.unsafeMotorAction (operation ++ " ".toList ++ path)
    "motor.filesystem.critical".toList)

/-! ## Network screening -/

/-- `std::net::IpAddr`. -/
inductive Address where
  | v4 (addr : Ipv4Addr)
  | v6 (addr : Ipv6Addr)
  deriving DecidableEq, Repr

def authorityOf (afterScheme : Text) : Text :=
  afterScheme.takeWhile fun c => !(c = '/' || c = '?' || c = '#')

/-- The last `@` ends the user information; a bracketed literal keeps its inner text. -/
def hostOf (authority : Text) : Text :=
  let hostPort :=
    match rsplitOnce '@' authority with
    | some (_, hostPort) => hostPort
    | none => authority
  match hostPort with
  | '[' :: rest => firstPiece ']' rest
  | _ => firstPiece ':' hostPort

def extractHost (url : Text) : Text :=
  let afterScheme :=
    match splitOnce "://".toList url with
    | some (_, rest) => rest
    | none => url
  toAsciiLowercase (trimEnd '.' (hostOf (authorityOf afterScheme)))

def hostMatchesBlock (host blocked : Text) : Bool :=
  let blocked := trimStart '.' (extractHost (trimWhitespace blocked))
  if blocked.isEmpty then false else host = blocked || ('.' :: blocked).isSuffixOf host

/-- Once a quad is read, text after it is an error and not a reason to try IPv6. -/
def readIpAddr (text : Text) : Option (Address × Text) :=
  match readIpv4Addr text with
  | some (addr, rest) => some (.v4 addr, rest)
  | none => (readIpv6Addr text).map fun (addr, rest) => (.v6 addr, rest)

def toIpv4Mapped (addr : Ipv6Addr) : Option Ipv4Addr :=
  match addr.segments with
  | [0, 0, 0, 0, 0, 0xffff, ab, cd] =>
    some (ipv4OfOctets (ab.toNat / 256) (ab.toNat % 256) (cd.toNat / 256) (cd.toNat % 256))
  | _ => none

def parseInetNumber (s : Text) : Option Nat :=
  if s = ['0'] then some 0
  else
    let (radix, digits) :=
      match s with
      | '0' :: 'x' :: hex => (16, hex)
      | '0' :: 'X' :: hex => (16, hex)
      | '0' :: oct => (8, oct)
      | s => (10, s)
    if digits.isEmpty then none else fromStrRadix radix (2 ^ 32 - 1) digits

def composeNumbers : List Nat → Option Nat
  | [a] => some a
  | [a, b] => if a ≤ 0xff ∧ b ≤ 0x00ffffff then some (a <<< 24 ||| b) else none
  | [a, b, c] =>
    if a ≤ 0xff ∧ b ≤ 0xff ∧ c ≤ 0xffff then some (a <<< 24 ||| b <<< 16 ||| c) else none
  | [a, b, c, d] =>
    if a ≤ 0xff ∧ b ≤ 0xff ∧ c ≤ 0xff ∧ d ≤ 0xff then
      some (a <<< 24 ||| b <<< 16 ||| c <<< 8 ||| d)
    else none
  | _ => none

def parseIpv4Relaxed (host : Text) : Option Ipv4Addr :=
  if host.isEmpty then none
  else
    let parts := host.splitOn '.'
    if parts.length > 4 then none
    else do
      let nums ← parts.mapM parseInetNumber
      let addr ← composeNumbers nums
      return BitVec.ofNat 32 addr

/-- A zone identifier is dropped before the address is read. -/
def parseHostIp (host : Text) : Option Address :=
  let host := firstPiece '%' host
  match parseWith readIpAddr host with
  | some (.v6 addr) => some ((toIpv4Mapped addr).elim (.v6 addr) .v4)
  | some (.v4 addr) => some (.v4 addr)
  | none => (parseIpv4Relaxed host).map .v4

def ipIsPrivateOrMetadata : Address → Bool
  | .v4 addr => isLoopback addr || isPrivate addr || isLinkLocal addr || isUnspecified addr
  | .v6 addr =>
    addr.segments = [0, 0, 0, 0, 0, 0, 0, 1] || addr.segments = [0, 0, 0, 0, 0, 0, 0, 0] ||
      addr.segments.headD 0 &&& 0xfe00 = 0xfc00 || addr.segments.headD 0 &&& 0xffc0 = 0xfe80

def isPrivateOrMetadataHost (host : Text) : Bool :=
  if host = "localhost".toList || ".localhost".toList.isSuffixOf host then true
  else if host = "metadata.google.internal".toList then true
  else (parseHostIp host).any ipIsPrivateOrMetadata

def screenNetwork (gate : UnsafeMotorActionGate) (url method : Text) : VetoResult :=
  let host := extractHost url
  let action := method ++ " ".toList ++ url
  if isPrivateOrMetadataHost host then
    .veto (.unsafeMotorAction action "ssrf-private-address".toList)
  else
    match gate.blocklistedHosts.find? (hostMatchesBlock host) with
    | some blocked => .veto (.unsafeMotorAction action ("blocklisted-host:".toList ++ blocked))
    | none => .allow

end MotorGate
