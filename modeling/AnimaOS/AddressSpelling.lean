import AnimaOS.IpAddr

/-!
# How addresses may be written

The `inet_aton` spellings of an IPv4 address and the IPv6 literals, stated as
relations between a text and a value, and the completeness of the standard
readers for them.
-/

namespace AddressSpelling

open IpAddr Numerals

/-- One part: decimal without a leading zero, octal after `0`, or hex after `0x`. -/
inductive PartSpelling : List Char → Nat → Prop where
  | decimal {text : List Char} {n : Nat} (numeral : Numeral 10 text n)
      (noPrefix : text = ['0'] ∨ text.head? ≠ some '0') : PartSpelling text n
  | octal {text : List Char} {n : Nat} (numeral : Numeral 8 text n) :
      PartSpelling ('0' :: text) n
  | hex {text : List Char} {n : Nat} {x : Char} (marker : x = 'x' ∨ x = 'X')
      (numeral : Numeral 16 text n) : PartSpelling ('0' :: x :: text) n

/-- Parts before the last are single bytes; the last carries the bytes they leave. -/
inductive InetAton : List Char → Nat → Prop where
  | one {t : List Char} {a : Nat} (part : PartSpelling t a) (bound : a < 2 ^ 32) : InetAton t a
  | two {t u : List Char} {a b : Nat} (first : PartSpelling t a) (byte : a < 256)
      (last : PartSpelling u b) (bound : b < 2 ^ 24) :
      InetAton (t ++ '.' :: u) (a * 2 ^ 24 + b)
  | three {t u v : List Char} {a b c : Nat} (first : PartSpelling t a) (byte : a < 256)
      (second : PartSpelling u b) (byte' : b < 256) (last : PartSpelling v c)
      (bound : c < 2 ^ 16) :
      InetAton (t ++ '.' :: (u ++ '.' :: v)) (a * 2 ^ 24 + b * 2 ^ 16 + c)
  | four {t u v w : List Char} {a b c d : Nat} (first : PartSpelling t a) (byte : a < 256)
      (second : PartSpelling u b) (byte' : b < 256) (third : PartSpelling v c)
      (byte'' : c < 256) (last : PartSpelling w d) (bound : d < 256) :
      InetAton (t ++ '.' :: (u ++ '.' :: (v ++ '.' :: w)))
        (a * 2 ^ 24 + b * 2 ^ 16 + c * 2 ^ 8 + d)

/-- A decimal octet as it stands in a dotted quad. -/
structure DecOctet (text : List Char) (n : Nat) : Prop where
  numeral : Numeral 10 text n
  byte : n ≤ 255
  short : text.length ≤ 3
  noPrefix : text = ['0'] ∨ text.head? ≠ some '0'

inductive DottedQuad : List Char → Ipv4Addr → Prop where
  | octets {t u v w : List Char} {a b c d : Nat} (first : DecOctet t a) (second : DecOctet u b)
      (third : DecOctet v c) (fourth : DecOctet w d) :
      DottedQuad (t ++ '.' :: (u ++ '.' :: (v ++ '.' :: w))) (ipv4OfOctets a b c d)

structure HexGroup (text : List Char) (g : Segment) : Prop where
  numeral : Numeral 16 text g.toNat
  short : text.length ≤ 4

/-- Groups joined by colons; only where `quad` holds may the last two be a dotted quad. -/
inductive GroupList (quad : Prop) : List Char → List Segment → Prop where
  | group {t : List Char} {g : Segment} (hex : HexGroup t g) : GroupList quad t [g]
  | dotted {t : List Char} {v4 : Ipv4Addr} (allowed : quad) (dotted : DottedQuad t v4) :
      GroupList quad t [highSegment v4, lowSegment v4]
  | cons {t rest : List Char} {g : Segment} {gs : List Segment} (hex : HexGroup t g)
      (more : GroupList quad rest gs) : GroupList quad (t ++ ':' :: rest) (g :: gs)

inductive OptionalGroups (quad : Prop) : List Char → List Segment → Prop where
  | empty : OptionalGroups quad [] []
  | groups {t : List Char} {gs : List Segment} (groups : GroupList quad t gs) :
      OptionalGroups quad t gs

/-- An IPv6 literal: eight groups, or a `::` for one missing group or more. -/
inductive Ipv6Literal : List Char → Ipv6Addr → Prop where
  | full {t : List Char} {addr : Ipv6Addr} (groups : GroupList True t addr.segments) :
      Ipv6Literal t addr
  | elided {h t : List Char} {hs ts : List Segment} (head : OptionalGroups False h hs)
      (tail : OptionalGroups True t ts) (missing : hs.length + ts.length ≤ 7) :
      Ipv6Literal (h ++ ':' :: ':' :: t) (elide hs ts (Nat.le_succ_of_le missing))

/-! ## Numbers -/

/-- The text after a number does not carry it on. -/
def Ends (radix : Nat) (rest : List Char) : Prop := ∀ c, rest.head? = some c → ¬ isDigit radix c

theorem ends_nil (radix : Nat) : Ends radix [] := by
  intro c hc
  cases hc

theorem ends_cons {radix : Nat} {c : Char} (h : isDigit radix c = false) (rest : List Char) :
    Ends radix (c :: rest) := by
  intro a ha
  cases ha
  simp [h]

theorem readDigits_complete {radix maxDigits : Nat} {text rest : List Char}
    (digits : ∀ c ∈ text, isDigit radix c) (ends : Ends radix rest) (result count : Nat)
    (fits : count + text.length ≤ maxDigits) :
    readDigits radix maxDigits result count (text ++ rest) =
      some (valueFrom radix result text, count + text.length, rest) := by
  induction text generalizing result count with
  | nil =>
    cases rest with
    | nil => rfl
    | cons c rest =>
      have stop : toDigit radix c = none := by
        simpa [isDigit] using ends c rfl
      simp [readDigits, stop, valueFrom]
  | cons c text ih =>
    obtain ⟨d, hd⟩ := digit_of_isDigit (digits c List.mem_cons_self)
    rw [List.length_cons] at fits
    have room : ¬ count + 1 > maxDigits := by omega
    have read := ih (fun c hc => digits c (List.mem_cons_of_mem _ hc))
      (result * radix + d) (count + 1) (by omega)
    simp only [List.cons_append, readDigits, hd, room, if_false, read, valueFrom_cons,
      Option.getD_some, List.length_cons]
    rw [show count + 1 + text.length = count + (text.length + 1) by omega]

theorem readNumber_complete {radix maxDigits largest n : Nat} {allowZeroPrefix : Bool}
    {text rest : List Char} (numeral : Numeral radix text n) (short : text.length ≤ maxDigits)
    (fits : n ≤ largest)
    (zeros : allowZeroPrefix = true ∨ text = ['0'] ∨ text.head? ≠ some '0')
    (ends : Ends radix rest) :
    readNumber radix maxDigits allowZeroPrefix largest (text ++ rest) = some (n, rest) := by
  obtain ⟨nonempty, digits, rfl⟩ := numeral
  have read := readDigits_complete digits ends 0 0 (by omega : 0 + text.length ≤ maxDigits)
  have counted : text.length ≠ 0 := fun h => nonempty (List.length_eq_zero_iff.mp h)
  have front : (text ++ rest).head? = text.head? := List.head?_append_of_ne_nil _ nonempty
  have prefixed : (!allowZeroPrefix && (text ++ rest).head? = some '0' &&
      0 + text.length > 1) = false := by
    rcases zeros with h | h | h
    · simp [h]
    · simp [h]
    · simp [front, h]
  simp only [readNumber, read, Nat.zero_add] at prefixed ⊢
  simp only [if_neg counted, prefixed, if_neg Bool.false_ne_true, if_pos fits]

/-- What a digit loop returns is the digits it passed and the text they leave. -/
theorem readDigits_sound {radix maxDigits : Nat} {text rest : List Char}
    {result count value digits : Nat}
    (read : readDigits radix maxDigits result count text = some (value, digits, rest)) :
    ∃ passed, text = passed ++ rest ∧ (∀ c ∈ passed, isDigit radix c) ∧
      value = valueFrom radix result passed ∧ digits = count + passed.length ∧
      Ends radix rest := by
  induction text generalizing result count with
  | nil =>
    simp only [readDigits, Option.some.injEq, Prod.mk.injEq] at read
    obtain ⟨rfl, rfl, rfl⟩ := read
    exact ⟨[], rfl, by simp, rfl, rfl, ends_nil radix⟩
  | cons c text ih =>
    cases hd : toDigit radix c with
    | none =>
      simp only [readDigits, hd, Option.some.injEq, Prod.mk.injEq] at read
      obtain ⟨rfl, rfl, rfl⟩ := read
      exact ⟨[], rfl, by simp, rfl, rfl, ends_cons (by simp [isDigit, hd]) text⟩
    | some d =>
      by_cases room : count + 1 > maxDigits
      · simp [readDigits, hd, room] at read
      · simp only [readDigits, hd, room, if_false] at read
        obtain ⟨passed, rfl, all, rfl, rfl, ends⟩ := ih read
        refine ⟨c :: passed, rfl, ?_, by rw [valueFrom_cons, hd]; rfl, ?_, ends⟩
        · rintro a (_ | ⟨_, ha⟩)
          · simp [isDigit, hd]
          · exact all a ha
        · rw [List.length_cons]
          omega

theorem readNumber_sound {radix maxDigits largest n : Nat} {allowZeroPrefix : Bool}
    {text rest : List Char}
    (read : readNumber radix maxDigits allowZeroPrefix largest text = some (n, rest)) :
    ∃ passed, text = passed ++ rest ∧ Numeral radix passed n ∧ n ≤ largest ∧
      (allowZeroPrefix = true ∨ passed = ['0'] ∨ passed.head? ≠ some '0') ∧
      Ends radix rest := by
  simp only [readNumber] at read
  split at read
  · cases read
  · rename_i value digits left loop
    obtain ⟨passed, rfl, all, rfl, rfl, ends⟩ := readDigits_sound loop
    split at read
    · cases read
    · rename_i counted
      split at read
      · cases read
      · rename_i zeros
        split at read
        · rename_i fits
          simp only [Option.some.injEq, Prod.mk.injEq] at read
          obtain ⟨rfl, rfl⟩ := read
          have nonempty : passed ≠ [] := by
            rintro rfl
            exact counted rfl
          refine ⟨passed, rfl, ⟨nonempty, all, rfl⟩, fits, ?_, ends⟩
          cases passed with
          | nil => exact absurd rfl nonempty
          | cons c tail =>
            by_cases allow : allowZeroPrefix = true
            · exact .inl allow
            by_cases zero : c = '0'
            · subst zero
              have single : tail.length = 0 := by
                simpa [allow] using zeros
              exact .inr (.inl (by rw [List.length_eq_zero_iff.mp single]))
            · exact .inr (.inr (by simpa using zero))
        · cases read

/-! ## Dotted quads -/

theorem dot_ends (rest : List Char) : Ends 10 ('.' :: rest) := ends_cons rfl rest

theorem readOctet_first {t rest : List Char} {a : Nat} (octet : DecOctet t a)
    (ends : Ends 10 rest) : readOctet 0 (t ++ rest) = some (a, rest) :=
  readNumber_complete octet.numeral octet.short octet.byte (.inr octet.noPrefix) ends

theorem readOctet_next {t rest : List Char} {a index : Nat} (octet : DecOctet t a)
    (ends : Ends 10 rest) : readOctet (index + 1) ('.' :: (t ++ rest)) = some (a, rest) :=
  readNumber_complete octet.numeral octet.short octet.byte (.inr octet.noPrefix) ends

theorem readIpv4Addr_complete {text rest : List Char} {addr : Ipv4Addr}
    (quad : DottedQuad text addr) (ends : Ends 10 rest) :
    readIpv4Addr (text ++ rest) = some (addr, rest) := by
  obtain ⟨first, second, third, fourth⟩ := quad
  simp only [readIpv4Addr, List.append_assoc, List.cons_append,
    readOctet_first first (dot_ends _), readOctet_next second (dot_ends _),
    readOctet_next third (dot_ends _), readOctet_next fourth ends,
    Option.bind_eq_bind, Option.bind_some, Option.pure_def]

theorem readOctet_sound {text rest : List Char} {a : Nat}
    (read : readOctet 0 text = some (a, rest)) :
    ∃ t, text = t ++ rest ∧ Numeral 10 t a ∧ a ≤ 255 ∧
      (t = ['0'] ∨ t.head? ≠ some '0') ∧ Ends 10 rest := by
  obtain ⟨t, split, numeral, byte, zeros, ends⟩ := readNumber_sound read
  exact ⟨t, split, numeral, byte, zeros.resolve_left Bool.false_ne_true, ends⟩

theorem readGivenChar_sound {c : Char} {text rest : List Char}
    (read : readGivenChar c text = some rest) : text = c :: rest := by
  cases text with
  | nil => cases read
  | cons a text =>
    by_cases same : a = c
    · subst same
      simp only [readGivenChar, if_true, Option.some.injEq] at read
      rw [read]
    · simp [readGivenChar, same] at read

theorem readOctet_next_sound {text rest : List Char} {a index : Nat}
    (read : readOctet (index + 1) text = some (a, rest)) :
    ∃ inner, text = '.' :: inner ∧ readOctet 0 inner = some (a, rest) := by
  obtain ⟨inner, dot, number⟩ := Option.bind_eq_some_iff.mp read
  exact ⟨inner, readGivenChar_sound dot, number⟩

/-- A whole text that reads as a quad is an `inet_aton` spelling of the same address. -/
theorem readIpv4Addr_sound {text : List Char} {addr : Ipv4Addr}
    (read : readIpv4Addr text = some (addr, [])) : InetAton text addr.toNat := by
  simp only [readIpv4Addr, Option.bind_eq_bind, Option.bind_eq_some_iff, Option.pure_def,
    Option.some.injEq, Prod.mk.injEq, Prod.exists] at read
  obtain ⟨a, ra, reada, b, rb, readb, c, rc, readc, d, rd, readd, rfl, rfl⟩ := read
  obtain ⟨ib, rfl, readb⟩ := readOctet_next_sound readb
  obtain ⟨ic, rfl, readc⟩ := readOctet_next_sound readc
  obtain ⟨id, rfl, readd⟩ := readOctet_next_sound readd
  obtain ⟨t, rfl, numa, bytea, zeroa, -⟩ := readOctet_sound reada
  obtain ⟨u, rfl, numb, byteb, zerob, -⟩ := readOctet_sound readb
  obtain ⟨v, rfl, numc, bytec, zeroc, -⟩ := readOctet_sound readc
  obtain ⟨w, rfl, numd, byted, zerod, -⟩ := readOctet_sound readd
  have value : (ipv4OfOctets a b c d).toNat = a * 2 ^ 24 + b * 2 ^ 16 + c * 2 ^ 8 + d := by
    rw [ipv4OfOctets, BitVec.toNat_ofNat, Nat.mod_eq_of_lt (by omega)]
    omega
  simp only [value, List.append_nil]
  exact .four (.decimal numa zeroa) (by omega) (.decimal numb zerob) (by omega)
    (.decimal numc zeroc) (by omega) (.decimal numd zerod) (by omega)

/-- A group is followed by a colon or by nothing. -/
def AtColon (rest : List Char) : Prop := ∀ c, rest.head? = some c → c = ':'

theorem atColon_nil : AtColon [] := by
  intro c hc
  cases hc

theorem atColon_cons (rest : List Char) : AtColon (':' :: rest) := by
  intro c hc
  exact (Option.some.inj hc).symm

theorem AtColon.ends {rest : List Char} (colon : AtColon rest) {radix : Nat} :
    Ends radix rest := by
  intro c hc
  rw [colon c hc]
  exact Bool.false_ne_true

/-- No quad starts at a hex group: what its first octet passes is not followed by a dot. -/
theorem readIpv4Addr_none {text rest : List Char} (digits : ∀ c ∈ text, isDigit 16 c)
    (colon : AtColon rest) : readIpv4Addr (text ++ rest) = none := by
  cases read : readIpv4Addr (text ++ rest) with
  | none => rfl
  | some result =>
    obtain ⟨addr, left⟩ := result
    simp only [readIpv4Addr, Option.bind_eq_bind, Option.bind_eq_some_iff, Option.pure_def,
      Option.some.injEq, Prod.mk.injEq, Prod.exists] at read
    obtain ⟨a, ra, reada, b, rb, readb, -⟩ := read
    obtain ⟨ib, rfl, -⟩ := readOctet_next_sound readb
    obtain ⟨t, split, numeral, -⟩ := readOctet_sound reada
    rcases List.append_eq_append_iff.mp split with ⟨m, rfl, hm⟩ | ⟨m, rfl, hm⟩
    · -- the octet runs past the group into the rest
      cases m with
      | nil => exact absurd (colon '.' (by rw [hm]; rfl)) (by decide)
      | cons c m =>
        have digit := numeral.digits c (by simp)
        exact absurd digit (colon.ends c (by rw [hm]; rfl))
    · -- the octet stops inside the group
      cases m with
      | nil => exact absurd (colon '.' (by rw [← List.nil_append rest, ← hm]; rfl)) (by decide)
      | cons c m =>
        have dot : c = '.' := (List.cons.inj hm).1.symm
        have digit := digits c (by simp)
        rw [dot] at digit
        exact absurd digit (by decide)

/-! ## IPv6 literals -/

theorem readGroup_complete {t rest : List Char} {g : Segment} (hex : HexGroup t g)
    (colon : AtColon rest) : readGroup (t ++ rest) = some (g, rest) := by
  have byte : g.toNat ≤ 65535 := Nat.le_of_lt_succ g.isLt
  simp only [readGroup, readNumber_complete hex.numeral hex.short byte (.inl rfl) colon.ends]
  simp

/-- A separator stands before every group but the first. -/
def separated (index : Nat) (text : List Char) : List Char :=
  if index > 0 then ':' :: text else text

theorem readSeparator_separated {α : Type} (inner : List Char → Option (α × List Char))
    (index : Nat) (text : List Char) :
    readSeparator ':' index inner (separated index text) = inner text := by
  by_cases first : index > 0 <;> simp [readSeparator, separated, first, readGivenChar]

/-- Where a group list ends: at the end of the text or before `::`. -/
def Stops (rest : List Char) : Prop := rest = [] ∨ ∃ more, rest = ':' :: ':' :: more

theorem Stops.atColon {rest : List Char} (stops : Stops rest) : AtColon rest := by
  rcases stops with rfl | ⟨more, rfl⟩
  · exact atColon_nil
  · exact atColon_cons _

theorem separated_append (index : Nat) (text rest : List Char) :
    separated index text ++ rest = separated index (text ++ rest) := by
  by_cases first : index > 0 <;> simp [separated, first]

theorem readNumber_atColon {radix maxDigits largest : Nat} {allowZeroPrefix : Bool}
    {rest : List Char} (colon : AtColon rest) :
    readNumber radix maxDigits allowZeroPrefix largest rest = none := by
  cases rest with
  | nil => rfl
  | cons c rest =>
    have same := colon c rfl
    subst same
    rfl

theorem readIpv4Addr_atColon {rest : List Char} (colon : AtColon rest) :
    readIpv4Addr rest = none := by
  have first : readOctet 0 rest = none := readNumber_atColon colon
  simp [readIpv4Addr, first]

theorem readGroup_atColon {rest : List Char} (colon : AtColon rest) : readGroup rest = none := by
  simp only [readGroup, readNumber_atColon colon, Option.map_none]

theorem readSeparator_stops {α : Type} {inner : List Char → Option (α × List Char)}
    (refuses : ∀ text, AtColon text → inner text = none) {rest : List Char}
    (stops : Stops rest) (index : Nat) : readSeparator ':' index inner rest = none := by
  by_cases first : index > 0
  · rcases stops with rfl | ⟨more, rfl⟩
    · simp [readSeparator, first, readGivenChar]
    · simp [readSeparator, first, readGivenChar, refuses _ (atColon_cons more)]
  · simp [readSeparator, first, refuses _ stops.atColon]

theorem readGroups_stops {rest : List Char} (stops : Stops rest) (remaining index : Nat) :
    readGroups remaining index rest = ⟨[], false, rest⟩ := by
  cases remaining with
  | zero => rfl
  | succ remaining =>
    have quad := readSeparator_stops (fun _ => readIpv4Addr_atColon) stops index
    have group := readSeparator_stops (fun _ => readGroup_atColon) stops index
    simp [readGroups, quad, group]

/-- One hex group is read as a group, not as the start of a quad. -/
theorem readGroups_hex {t rest : List Char} {g : Segment} (hex : HexGroup t g)
    (colon : AtColon rest) (remaining index : Nat) :
    readGroups (remaining + 1) index (separated index (t ++ rest)) =
      ⟨g :: (readGroups remaining (index + 1) rest).read,
        (readGroups remaining (index + 1) rest).endsInIpv4,
        (readGroups remaining (index + 1) rest).rest⟩ := by
  have quad := readIpv4Addr_none hex.numeral.digits colon
  simp [readGroups, readSeparator_separated, quad, readGroup_complete hex colon]

theorem readGroups_complete {quad : Prop} {t : List Char} {gs : List Segment}
    (groups : GroupList quad t gs) {rest : List Char} (stops : Stops rest)
    {remaining : Nat} (room : gs.length ≤ remaining) (index : Nat) :
    ∃ endsInIpv4, (endsInIpv4 = true → quad) ∧
      readGroups remaining index (separated index t ++ rest) = ⟨gs, endsInIpv4, rest⟩ := by
  rw [separated_append]
  induction groups generalizing remaining index with
  | @group t g hex =>
    obtain ⟨left, rfl⟩ : ∃ left, remaining = left + 1 := ⟨remaining - 1, by simp at room; omega⟩
    refine ⟨false, fun h => absurd h Bool.false_ne_true, ?_⟩
    simp only [readGroups_hex hex stops.atColon, readGroups_stops stops]
  | @dotted t v4 allowed dotted =>
    obtain ⟨left, rfl⟩ : ∃ left, remaining = left + 1 := ⟨remaining - 1, by simp at room; omega⟩
    have two : left > 0 := by simp at room; omega
    refine ⟨true, fun _ => allowed, ?_⟩
    simp [readGroups, two, readSeparator_separated,
      readIpv4Addr_complete dotted stops.atColon.ends]
  | @cons t more g gs hex _ ih =>
    obtain ⟨left, rfl⟩ : ∃ left, remaining = left + 1 := ⟨remaining - 1, by simp at room; omega⟩
    obtain ⟨endsInIpv4, allowed, read⟩ := ih (show gs.length ≤ left by simpa using room)
      (index + 1)
    refine ⟨endsInIpv4, allowed, ?_⟩
    have next : separated (index + 1) (more ++ rest) = ':' :: more ++ rest := by
      simp [separated]
    rw [next] at read
    rw [List.append_assoc, List.cons_append, readGroups_hex hex (atColon_cons _),
      ← List.cons_append, read]

theorem readOptionalGroups_complete {quad : Prop} {t : List Char} {gs : List Segment}
    (groups : OptionalGroups quad t gs) {rest : List Char} (stops : Stops rest)
    {remaining : Nat} (room : gs.length ≤ remaining) :
    ∃ endsInIpv4, (endsInIpv4 = true → quad) ∧
      readGroups remaining 0 (t ++ rest) = ⟨gs, endsInIpv4, rest⟩ := by
  cases groups with
  | empty => exact ⟨false, fun h => absurd h Bool.false_ne_true, readGroups_stops stops _ _⟩
  | groups groups => exact readGroups_complete groups stops room 0

theorem parseIpv6_complete {text : List Char} {addr : Ipv6Addr} (literal : Ipv6Literal text addr) :
    parseIpv6 text = some addr := by
  cases literal with
  | full groups =>
    obtain ⟨_, -, read⟩ := readGroups_complete groups (.inl rfl)
      (Nat.le_of_eq addr.eight) 0
    simp only [separated, List.append_nil, gt_iff_lt, Nat.lt_irrefl, if_false] at read
    simp [parseIpv6, parseWith, readIpv6Addr, read, addr.eight]
  | @elided h t hs ts head tail missing =>
    obtain ⟨endsInIpv4, noQuad, readHead⟩ := readOptionalGroups_complete head
      (.inr ⟨t, rfl⟩) (by omega : hs.length ≤ 8)
    obtain ⟨_, -, readTail⟩ := readOptionalGroups_complete tail (.inl rfl)
      (by omega : ts.length ≤ 7 - hs.length)
    rw [List.append_nil] at readTail
    have short : hs.length ≠ 8 := by omega
    have first : endsInIpv4 = false := by simpa using noQuad
    simp [parseIpv6, parseWith, readIpv6Addr, readHead, readTail, short, first, readGivenChar]

end AddressSpelling
