import AnimaOS.Numerals

/-!
# Standard IP addresses and their parsers

The parts of `std::net` the guards call. A reader takes the remaining text and
gives its value and what is left; `none` leaves the caller where it was.
-/

namespace IpAddr

open Numerals

abbrev Ipv4Addr := BitVec 32

abbrev Segment := BitVec 16

structure Ipv6Addr where
  segments : List Segment
  eight : segments.length = 8
  deriving DecidableEq, Repr

def ipv4OfOctets (a b c d : Nat) : Ipv4Addr :=
  BitVec.ofNat 32 (((a * 256 + b) * 256 + c) * 256 + d)

def octet (addr : Ipv4Addr) (i : Nat) : Nat := addr.toNat / 256 ^ (3 - i) % 256

def isLoopback (addr : Ipv4Addr) : Bool := octet addr 0 = 127

def isPrivate (addr : Ipv4Addr) : Bool :=
  octet addr 0 = 10 || (octet addr 0 = 172 && 16 ≤ octet addr 1 && octet addr 1 ≤ 31) ||
    (octet addr 0 = 192 && octet addr 1 = 168)

def isLinkLocal (addr : Ipv4Addr) : Bool := octet addr 0 = 169 && octet addr 1 = 254

def isUnspecified (addr : Ipv4Addr) : Bool := addr = ipv4OfOctets 0 0 0 0

def isBroadcast (addr : Ipv4Addr) : Bool := addr = ipv4OfOctets 255 255 255 255

/-- The two segments an embedded IPv4 address fills. -/
def highSegment (addr : Ipv4Addr) : Segment := BitVec.ofNat 16 (addr.toNat / 2 ^ 16)

def lowSegment (addr : Ipv4Addr) : Segment := BitVec.ofNat 16 addr.toNat

/-! ## Readers -/

/-- The digit loop: it gives up on one digit more than allowed. -/
def readDigits (radix maxDigits : Nat) (result digitCount : Nat) :
    List Char → Option (Nat × Nat × List Char)
  | [] => some (result, digitCount, [])
  | c :: rest =>
    match toDigit radix c with
    | none => some (result, digitCount, c :: rest)
    | some d =>
      if digitCount + 1 > maxDigits then none
      else readDigits radix maxDigits (result * radix + d) (digitCount + 1) rest

def readNumber (radix maxDigits : Nat) (allowZeroPrefix : Bool) (largest : Nat)
    (text : List Char) : Option (Nat × List Char) :=
  match readDigits radix maxDigits 0 0 text with
  | none => none
  | some (result, digitCount, rest) =>
    if digitCount = 0 then none
    else if !allowZeroPrefix && text.head? = some '0' && digitCount > 1 then none
    else if result ≤ largest then some (result, rest) else none

def readGivenChar (target : Char) : List Char → Option (List Char)
  | [] => none
  | c :: rest => if c = target then some rest else none

def readSeparator {α : Type} (sep : Char) (index : Nat) (inner : List Char → Option (α × List Char))
    (text : List Char) : Option (α × List Char) :=
  if index > 0 then (readGivenChar sep text).bind inner else inner text

def readOctet (index : Nat) (text : List Char) : Option (Nat × List Char) :=
  readSeparator '.' index (readNumber 10 3 false 255) text

def readIpv4Addr (text : List Char) : Option (Ipv4Addr × List Char) := do
  let (a, text) ← readOctet 0 text
  let (b, text) ← readOctet 1 text
  let (c, text) ← readOctet 2 text
  let (d, text) ← readOctet 3 text
  return (ipv4OfOctets a b c d, text)

def readGroup (text : List Char) : Option (Segment × List Char) :=
  (readNumber 16 4 true 65535 text).map fun (g, rest) => (BitVec.ofNat 16 g, rest)

structure Groups where
  read : List Segment
  endsInIpv4 : Bool
  rest : List Char

/-- Up to `remaining` groups; a dotted quad is tried first and needs two of them. -/
def readGroups : Nat → Nat → List Char → Groups
  | 0, _, text => ⟨[], false, text⟩
  | remaining + 1, index, text =>
    match if remaining > 0 then readSeparator ':' index readIpv4Addr text else none with
    | some (v4, rest) => ⟨[highSegment v4, lowSegment v4], true, rest⟩
    | none =>
      match readSeparator ':' index readGroup text with
      | some (group, rest) =>
        let more := readGroups remaining (index + 1) rest
        ⟨group :: more.read, more.endsInIpv4, more.rest⟩
      | none => ⟨[], false, text⟩

theorem readGroups_length (remaining index : Nat) (text : List Char) :
    (readGroups remaining index text).read.length ≤ remaining := by
  induction remaining generalizing index text with
  | zero => exact Nat.le_refl 0
  | succ remaining ih =>
    simp only [readGroups]
    split
    · rename_i quad
      by_cases room : remaining > 0
      · exact Nat.succ_le_succ room
      · simp [room] at quad
    · split
      · simpa using ih _ _
      · exact Nat.zero_le _

/-- A `::` stands for the groups missing between the head and the tail, at least one. -/
def elide (head tail : List Segment) (room : head.length + tail.length ≤ 8) : Ipv6Addr where
  segments := head ++ List.replicate (8 - (head.length + tail.length)) 0 ++ tail
  eight := by
    simp only [List.length_append, List.length_replicate]
    omega

theorem elided_room (text rest : List Char) :
    (readGroups 8 0 text).read.length +
      (readGroups (8 - ((readGroups 8 0 text).read.length + 1)) 0 rest).read.length ≤ 8 := by
  have head := readGroups_length 8 0 text
  have tail := readGroups_length (8 - ((readGroups 8 0 text).read.length + 1)) 0 rest
  omega

def readIpv6Addr (text : List Char) : Option (Ipv6Addr × List Char) :=
  let head := readGroups 8 0 text
  if full : head.read.length = 8 then some (⟨head.read, full⟩, head.rest)
  else if head.endsInIpv4 then none
  else do
    let rest ← readGivenChar ':' head.rest
    let rest ← readGivenChar ':' rest
    let tail := readGroups (8 - (head.read.length + 1)) 0 rest
    return (elide head.read tail.read (elided_room text rest), tail.rest)

def parseWith {α : Type} (inner : List Char → Option (α × List Char)) (text : List Char) :
    Option α :=
  match inner text with
  | some (a, []) => some a
  | _ => none

def parseIpv4 (text : List Char) : Option Ipv4Addr :=
  if text.length > 15 then none else parseWith readIpv4Addr text

def parseIpv6 (text : List Char) : Option Ipv6Addr := parseWith readIpv6Addr text

end IpAddr
