import AnimaOS.AddressSpelling

/-!
# Letter case and characters of addresses

A spelling stays one when its letters are lowered, and whatever a standard
reader accepts consists of hex digits, dots and colons.
-/

namespace AddressSpelling

open IpAddr Numerals

/-! ## Lower case -/

theorem toLower_decimal {c : Char} (digit : isDigit 10 c) : c.toLower = c := by
  obtain ⟨d, hd⟩ := digit_of_isDigit digit
  refine toLower_other fun upper => ?_
  simp only [toDigit, Char.reduceToNat] at hd upper
  have notDigit : ¬ (48 ≤ c.toNat ∧ c.toNat ≤ 57) := by omega
  have notLower : ¬ (97 ≤ c.toNat ∧ c.toNat ≤ 122) := by omega
  simp only [notDigit, notLower, upper, and_self, if_true, if_false,
    Option.filter_eq_some_iff, Option.some.injEq, decide_eq_true_eq] at hd
  omega

theorem lower_decimal {text : List Char} (digits : ∀ c ∈ text, isDigit 10 c) :
    text.map Char.toLower = text :=
  (List.map_congr_left fun c hc => toLower_decimal (digits c hc)).trans (List.map_id text)

theorem PartSpelling.toLower {text : List Char} {n : Nat} (part : PartSpelling text n) :
    PartSpelling (text.map Char.toLower) n := by
  cases part with
  | decimal numeral noPrefix =>
    rw [lower_decimal numeral.digits]
    exact .decimal numeral noPrefix
  | octal numeral => exact .octal numeral.toLower
  | hex marker numeral =>
    rcases marker with rfl | rfl <;> exact .hex (.inl rfl) numeral.toLower

theorem InetAton.toLower {text : List Char} {value : Nat} (spelled : InetAton text value) :
    InetAton (text.map Char.toLower) value := by
  cases spelled with
  | one part bound => exact .one part.toLower bound
  | two first byte last bound =>
    rw [List.map_append, List.map_cons]
    exact .two first.toLower byte last.toLower bound
  | three first byte second byte' last bound =>
    simp only [List.map_append, List.map_cons]
    exact .three first.toLower byte second.toLower byte' last.toLower bound
  | four first byte second byte' third byte'' last bound =>
    simp only [List.map_append, List.map_cons]
    exact .four first.toLower byte second.toLower byte' third.toLower byte'' last.toLower bound

theorem DottedQuad.toLower {text : List Char} {addr : Ipv4Addr} (quad : DottedQuad text addr) :
    DottedQuad (text.map Char.toLower) addr := by
  cases quad with
  | octets first second third fourth =>
    simp only [List.map_append, List.map_cons, lower_decimal first.numeral.digits,
      lower_decimal second.numeral.digits, lower_decimal third.numeral.digits,
      lower_decimal fourth.numeral.digits]
    exact .octets first second third fourth

theorem HexGroup.toLower {text : List Char} {g : Segment} (hex : HexGroup text g) :
    HexGroup (text.map Char.toLower) g :=
  ⟨hex.numeral.toLower, by simpa using hex.short⟩

theorem GroupList.toLower {quad : Prop} {text : List Char} {gs : List Segment}
    (groups : GroupList quad text gs) : GroupList quad (text.map Char.toLower) gs := by
  induction groups with
  | group hex => exact .group hex.toLower
  | dotted allowed dotted => exact .dotted allowed dotted.toLower
  | cons hex _ ih =>
    rw [List.map_append, List.map_cons]
    exact .cons hex.toLower ih

theorem OptionalGroups.toLower {quad : Prop} {text : List Char} {gs : List Segment}
    (groups : OptionalGroups quad text gs) : OptionalGroups quad (text.map Char.toLower) gs := by
  cases groups with
  | empty => exact .empty
  | groups groups => exact .groups groups.toLower

theorem Ipv6Literal.toLower {text : List Char} {addr : Ipv6Addr} (literal : Ipv6Literal text addr) :
    Ipv6Literal (text.map Char.toLower) addr := by
  cases literal with
  | full groups => exact .full groups.toLower
  | elided head tail missing =>
    simp only [List.map_append, List.map_cons]
    exact .elided head.toLower tail.toLower missing

/-! ## Characters -/

def IsAddressChar (c : Char) : Prop := isDigit 16 c ∨ c = '.' ∨ c = ':'

/-- The reader takes address characters off the front of the text. -/
def Consumes {α : Type} (inner : List Char → Option (α × List Char)) : Prop :=
  ∀ text v rest, inner text = some (v, rest) →
    ∃ used, text = used ++ rest ∧ ∀ c ∈ used, IsAddressChar c

theorem readNumber_consumes {radix : Nat} (small : radix ≤ 16) (maxDigits : Nat)
    (allowZeroPrefix : Bool) (largest : Nat) :
    Consumes (readNumber radix maxDigits allowZeroPrefix largest) := by
  intro text n rest read
  obtain ⟨passed, split, numeral, -⟩ := readNumber_sound read
  exact ⟨passed, split, fun c hc => .inl (isDigit_mono small (numeral.digits c hc))⟩

theorem readSeparator_consumes {α : Type} {inner : List Char → Option (α × List Char)}
    (consumes : Consumes inner) {sep : Char} (mark : IsAddressChar sep) (index : Nat) :
    Consumes (readSeparator sep index inner) := by
  intro text v rest read
  by_cases first : index > 0
  · simp only [readSeparator, if_pos first] at read
    obtain ⟨more, given, read⟩ := Option.bind_eq_some_iff.mp read
    obtain ⟨used, rfl, all⟩ := consumes more v rest read
    refine ⟨sep :: used, readGivenChar_sound given, ?_⟩
    rintro c (_ | ⟨_, hc⟩)
    · exact mark
    · exact all c hc
  · simp only [readSeparator, if_neg first] at read
    exact consumes text v rest read

theorem readOctet_consumes (index : Nat) : Consumes (readOctet index) :=
  readSeparator_consumes (readNumber_consumes (by decide) 3 false 255) (.inr (.inl rfl)) index

/-- What the reader takes off the front of the text has the property. -/
def Takes {α : Type} (P : List Char → Prop) (inner : List Char → Option (α × List Char)) : Prop :=
  ∀ text v rest, inner text = some (v, rest) → ∃ used, text = used ++ rest ∧ P used

/-- A property of texts that passes to the text they are joined to. -/
structure Joins (P : List Char → Prop) : Prop where
  nil : P []
  append {xs ys : List Char} : P xs → P ys → P (xs ++ ys)

theorem joins_chars : Joins fun used => ∀ c ∈ used, IsAddressChar c where
  nil := by simp
  append := by
    intro xs ys hx hy c hc
    rcases List.mem_append.mp hc with hc | hc
    · exact hx c hc
    · exact hy c hc

theorem readIpv4Addr_consumes : Consumes readIpv4Addr := by
  intro text addr rest read
  simp only [readIpv4Addr, Option.bind_eq_bind, Option.bind_eq_some_iff, Option.pure_def,
    Option.some.injEq, Prod.mk.injEq, Prod.exists] at read
  obtain ⟨a, ra, reada, b, rb, readb, c, rc, readc, d, rd, readd, -, rfl⟩ := read
  obtain ⟨t, rfl, ht⟩ := readOctet_consumes 0 _ _ _ reada
  obtain ⟨u, rfl, hu⟩ := readOctet_consumes 1 _ _ _ readb
  obtain ⟨v, rfl, hv⟩ := readOctet_consumes 2 _ _ _ readc
  obtain ⟨w, rfl, hw⟩ := readOctet_consumes 3 _ _ _ readd
  exact ⟨t ++ (u ++ (v ++ w)), by simp,
    joins_chars.append ht (joins_chars.append hu (joins_chars.append hv hw))⟩

theorem readGroup_consumes : Consumes readGroup := by
  intro text g rest read
  obtain ⟨⟨n, left⟩, number, same⟩ := Option.map_eq_some_iff.mp read
  cases same
  exact readNumber_consumes (by decide) 4 true 65535 _ _ _ number

/-- Without all eight groups there is a `::`, and the groups after it are read from there. -/
theorem readIpv6Addr_rest {text rest : List Char} {addr : Ipv6Addr}
    (read : readIpv6Addr text = some (addr, rest)) :
    rest = (readGroups 8 0 text).rest ∨ ∃ second,
      (readGroups 8 0 text).rest = ':' :: ':' :: second ∧
        rest = (readGroups (8 - ((readGroups 8 0 text).read.length + 1)) 0 second).rest := by
  simp only [readIpv6Addr] at read
  split at read
  · simp only [Option.some.injEq, Prod.mk.injEq] at read
    exact .inl read.2.symm
  · split at read
    · cases read
    · simp only [Option.bind_eq_bind, Option.bind_eq_some_iff, Option.pure_def,
        Option.some.injEq, Prod.mk.injEq] at read
      obtain ⟨first, given, second, again, -, rfl⟩ := read
      exact .inr ⟨second, by rw [readGivenChar_sound given, readGivenChar_sound again], rfl⟩

section Joined

variable {P : List Char → Prop} (joins : Joins P)
  (quads : ∀ index, Takes P (readSeparator ':' index readIpv4Addr))
  (hexes : ∀ index, Takes P (readSeparator ':' index readGroup))
include joins quads hexes

theorem readGroups_takes (remaining index : Nat) (text : List Char) :
    ∃ used, text = used ++ (readGroups remaining index text).rest ∧ P used := by
  induction remaining generalizing index text with
  | zero => exact ⟨[], rfl, joins.nil⟩
  | succ remaining ih =>
    simp only [readGroups]
    split
    · rename_i v4 rest quad
      by_cases room : remaining > 0
      · rw [if_pos room] at quad
        exact quads index _ _ _ quad
      · simp [room] at quad
    · split
      · rename_i group rest read
        obtain ⟨used, rfl, all⟩ := hexes index _ _ _ read
        obtain ⟨more, split, others⟩ := ih (index + 1) rest
        exact ⟨used ++ more, by rw [List.append_assoc, ← split], joins.append all others⟩
      · exact ⟨[], rfl, joins.nil⟩

/-- The groups before the `::`, the two colons and the groups behind them. -/
theorem readIpv6Addr_takes (colons : P [':', ':']) : Takes P readIpv6Addr := by
  intro text addr rest read
  obtain ⟨head, split, all⟩ := readGroups_takes joins quads hexes 8 0 text
  rcases readIpv6Addr_rest read with whole | ⟨second, joined, ended⟩
  · exact ⟨head, by rw [whole, ← split], all⟩
  · obtain ⟨tail, splitTail, others⟩ := readGroups_takes joins quads hexes
      (8 - ((readGroups 8 0 text).read.length + 1)) 0 second
    have parted : (readGroups 8 0 text).rest = [':', ':'] ++ second := joined
    refine ⟨head ++ ([':', ':'] ++ tail), ?_, joins.append all (joins.append colons others)⟩
    rw [List.append_assoc, List.append_assoc, ended, ← splitTail, ← parted, ← split]

end Joined

theorem readGroups_consumes (remaining index : Nat) (text : List Char) :
    ∃ used, text = used ++ (readGroups remaining index text).rest ∧
      ∀ c ∈ used, IsAddressChar c :=
  readGroups_takes joins_chars
    (readSeparator_consumes readIpv4Addr_consumes (.inr (.inr rfl)))
    (readSeparator_consumes readGroup_consumes (.inr (.inr rfl))) remaining index text

/-- Without a colon at most one group, or one quad, is read. -/
theorem readGroups_colonless {text : List Char} (colonless : ':' ∉ text) (remaining : Nat) :
    (readGroups remaining 0 text).read.length ≤ 2 ∧
      ':' ∉ (readGroups remaining 0 text).rest := by
  have refused : ∀ {α : Type} {inner : List Char → Option (α × List Char)} {rest : List Char}
      (index : Nat), ':' ∉ rest → readSeparator ':' (index + 1) inner rest = none := by
    intro α inner rest index none
    cases rest with
    | nil => rfl
    | cons c rest =>
      have other : ¬ c = ':' := fun same => none (same ▸ List.mem_cons_self)
      simp [readSeparator, readGivenChar, other]
  obtain ⟨used, split, -⟩ := readGroups_consumes remaining 0 text
  refine ⟨?_, fun found => colonless (split ▸ List.mem_append_right used found)⟩
  cases remaining with
  | zero => simp [readGroups]
  | succ remaining =>
    simp only [readGroups]
    split
    · exact Nat.le_refl 2
    · split
      · rename_i group rest read
        obtain ⟨passed, rfl, -⟩ := readGroup_consumes _ _ _ read
        have after : ':' ∉ rest := fun found => colonless (List.mem_append_right passed found)
        cases remaining with
        | zero => simp [readGroups]
        | succ remaining =>
          simp [readGroups, refused 0 after]
      · exact Nat.zero_le 2

theorem readIpv6Addr_colonless {text : List Char} (colonless : ':' ∉ text) :
    readIpv6Addr text = none := by
  obtain ⟨few, after⟩ := readGroups_colonless colonless 8
  have short : ¬ (readGroups 8 0 text).read.length = 8 := by omega
  have refused : readGivenChar ':' (readGroups 8 0 text).rest = none := by
    cases given : readGivenChar ':' (readGroups 8 0 text).rest with
    | none => rfl
    | some rest =>
      rw [readGivenChar_sound given] at after
      exact absurd List.mem_cons_self after
  simp [readIpv6Addr, short, refused]

theorem readIpv6Addr_consumes : Consumes readIpv6Addr := by
  have colons : ∀ c ∈ [':', ':'], IsAddressChar c := by
    intro c hc
    simp only [List.mem_cons, List.not_mem_nil, or_false, or_self] at hc
    exact .inr (.inr hc)
  exact readIpv6Addr_takes joins_chars
    (readSeparator_consumes readIpv4Addr_consumes (.inr (.inr rfl)))
    (readSeparator_consumes readGroup_consumes (.inr (.inr rfl))) colons

theorem parseIpv6_chars {text : List Char} {addr : Ipv6Addr} (read : parseIpv6 text = some addr) :
    ∀ c ∈ text, IsAddressChar c := by
  simp only [parseIpv6, parseWith] at read
  split at read
  · rename_i whole
    obtain ⟨used, rfl, all⟩ := readIpv6Addr_consumes _ _ _ whole
    simpa using all
  · cases read

/-! ## Ends of spellings -/

theorem PartSpelling.last {text : List Char} {n : Nat} (part : PartSpelling text n) :
    ∃ c, text.getLast? = some c ∧ isDigit 16 c := by
  have numeral : ∀ {radix : Nat} {text : List Char} {n : Nat}, radix ≤ 16 →
      Numeral radix text n → ∃ c, text.getLast? = some c ∧ isDigit 16 c := by
    intro radix text n small numeral
    refine ⟨text.getLast numeral.nonempty, List.getLast?_eq_some_getLast numeral.nonempty, ?_⟩
    exact isDigit_mono small (numeral.digits _ (List.getLast_mem numeral.nonempty))
  have after : ∀ {c : Char} {text : List Char}, (∃ d, text.getLast? = some d ∧ isDigit 16 d) →
      ∃ d, (c :: text).getLast? = some d ∧ isDigit 16 d := by
    rintro c text ⟨d, last, digit⟩
    exact ⟨d, by simp [List.getLast?_cons, last], digit⟩
  cases part with
  | decimal decimal _ => exact numeral (by decide) decimal
  | octal octal => exact after (numeral (by decide) octal)
  | hex _ hex => exact after (after (numeral (by decide) hex))

theorem InetAton.last {text : List Char} {value : Nat} (spelled : InetAton text value) :
    ∃ c, text.getLast? = some c ∧ isDigit 16 c := by
  have joined : ∀ {a b : List Char}, (∃ c, b.getLast? = some c ∧ isDigit 16 c) →
      ∃ c, (a ++ '.' :: b).getLast? = some c ∧ isDigit 16 c := by
    rintro a b ⟨c, last, digit⟩
    exact ⟨c, by simp [List.getLast?_append, List.getLast?_cons, last], digit⟩
  cases spelled with
  | one part _ => exact part.last
  | two _ _ last _ => exact joined last.last
  | three _ _ _ _ last _ => exact joined (joined last.last)
  | four _ _ _ _ _ _ last _ => exact joined (joined (joined last.last))

theorem GroupList.last {quad : Prop} {text : List Char} {gs : List Segment}
    (groups : GroupList quad text gs) : ∃ c, text.getLast? = some c ∧ c ≠ '.' := by
  have digit : ∀ {radix : Nat} {t : List Char} {n : Nat}, Numeral radix t n →
      ∃ c, t.getLast? = some c ∧ c ≠ '.' := by
    intro radix t n numeral
    refine ⟨t.getLast numeral.nonempty, List.getLast?_eq_some_getLast numeral.nonempty, ?_⟩
    intro dot
    have digit := numeral.digits _ (List.getLast_mem numeral.nonempty)
    rw [dot] at digit
    cases digit
  have joined : ∀ {sep : Char} {a b : List Char}, (∃ c, b.getLast? = some c ∧ c ≠ '.') →
      ∃ c, (a ++ sep :: b).getLast? = some c ∧ c ≠ '.' := by
    rintro sep a b ⟨c, last, other⟩
    exact ⟨c, by simp [List.getLast?_append, List.getLast?_cons, last], other⟩
  induction groups with
  | group hex => exact digit hex.numeral
  | dotted _ dotted =>
    cases dotted with
    | octets _ _ _ fourth => exact joined (joined (joined (digit fourth.numeral)))
  | cons _ _ ih => exact joined ih

theorem Ipv6Literal.last {text : List Char} {addr : Ipv6Addr} (literal : Ipv6Literal text addr) :
    text.getLast? ≠ some '.' := by
  have ends : ∀ {t : List Char}, (∃ c, t.getLast? = some c ∧ c ≠ '.') → t.getLast? ≠ some '.' := by
    rintro t ⟨c, last, other⟩ dot
    rw [last] at dot
    exact other (Option.some.inj dot)
  cases literal with
  | full groups => exact ends groups.last
  | elided head tail _ =>
    cases tail with
    | empty => simp [List.getLast?_append]
    | groups groups =>
      obtain ⟨c, last, other⟩ := groups.last
      simp [List.getLast?_append, List.getLast?_cons, last, other]

/-- A literal starts with a hex group and a colon, or with the colon itself. -/
theorem readIpv4Addr_literal {text : List Char} {addr : Ipv6Addr}
    (literal : Ipv6Literal text addr) : readIpv4Addr text = none := by
  have grouped : ∀ {quad : Prop} {t : List Char} {gs : List Segment} (rest : List Char),
      GroupList quad t gs → (quad → gs.length ≠ 2) → AtColon rest →
      readIpv4Addr (t ++ rest) = none := by
    intro quad t gs rest groups few colon
    cases groups with
    | group hex => exact readIpv4Addr_none hex.numeral.digits colon
    | dotted allowed _ => exact absurd rfl (few allowed)
    | cons hex more =>
      rw [List.append_assoc]
      exact readIpv4Addr_none hex.numeral.digits (atColon_cons _)
  cases literal with
  | full groups =>
    have eight := addr.eight
    have none := grouped [] groups (fun _ two => by omega) atColon_nil
    rwa [List.append_nil] at none
  | elided head tail _ =>
    cases head with
    | empty => exact readIpv4Addr_atColon (atColon_cons _)
    | groups groups => exact grouped _ groups False.elim (atColon_cons _)

/-! ## Ends of what is read -/

/-- The reader stops behind a character other than a dot. -/
def Closes {α : Type} (inner : List Char → Option (α × List Char)) : Prop :=
  ∀ text v rest, inner text = some (v, rest) → ∃ used c, text = used ++ c :: rest ∧ c ≠ '.'

theorem readNumber_closes (radix maxDigits : Nat) (allowZeroPrefix : Bool) (largest : Nat) :
    Closes (readNumber radix maxDigits allowZeroPrefix largest) := by
  intro text n rest read
  obtain ⟨passed, rfl, numeral, -⟩ := readNumber_sound read
  obtain ⟨before, c, rfl⟩ := (List.eq_nil_or_concat passed).resolve_left numeral.nonempty
  refine ⟨before, c, by simp, ?_⟩
  rintro rfl
  cases numeral.digits '.' (by simp)

theorem readSeparator_closes {α : Type} {inner : List Char → Option (α × List Char)}
    (closes : Closes inner) (sep : Char) (index : Nat) :
    Closes (readSeparator sep index inner) := by
  intro text v rest read
  by_cases first : index > 0
  · simp only [readSeparator, if_pos first] at read
    obtain ⟨more, given, read⟩ := Option.bind_eq_some_iff.mp read
    obtain ⟨used, c, rfl, other⟩ := closes more v rest read
    exact ⟨sep :: used, c, readGivenChar_sound given, other⟩
  · simp only [readSeparator, if_neg first] at read
    exact closes text v rest read

theorem readOctet_closes (index : Nat) : Closes (readOctet index) :=
  readSeparator_closes (readNumber_closes 10 3 false 255) '.' index

theorem readIpv4Addr_closes : Closes readIpv4Addr := by
  intro text addr rest read
  simp only [readIpv4Addr, Option.bind_eq_bind, Option.bind_eq_some_iff, Option.pure_def,
    Option.some.injEq, Prod.mk.injEq, Prod.exists] at read
  obtain ⟨a, ra, reada, b, rb, readb, c, rc, readc, d, rd, readd, -, rfl⟩ := read
  obtain ⟨t, x, rfl, -⟩ := readOctet_closes 0 _ _ _ reada
  obtain ⟨u, y, rfl, -⟩ := readOctet_closes 1 _ _ _ readb
  obtain ⟨v, z, rfl, -⟩ := readOctet_closes 2 _ _ _ readc
  obtain ⟨w, last, rfl, other⟩ := readOctet_closes 3 _ _ _ readd
  exact ⟨t ++ x :: (u ++ y :: (v ++ z :: w)), last, by simp, other⟩

theorem readGroup_closes : Closes readGroup := by
  intro text g rest read
  obtain ⟨⟨n, left⟩, number, same⟩ := Option.map_eq_some_iff.mp read
  cases same
  exact readNumber_closes 16 4 true 65535 _ _ _ number

theorem Closes.undotted {α : Type} {inner : List Char → Option (α × List Char)}
    (closes : Closes inner) : Takes (fun used => used.getLast? ≠ some '.') inner := by
  intro text v rest read
  obtain ⟨used, c, rfl, other⟩ := closes text v rest read
  exact ⟨used ++ [c], by simp, by simpa using other⟩

theorem joins_undotted : Joins fun used => used.getLast? ≠ some '.' where
  nil := by simp
  append := by
    intro xs ys hx hy
    rw [List.getLast?_append]
    cases last : ys.getLast? with
    | none => exact hx
    | some c => rwa [last] at hy

theorem readIpv6Addr_undotted : Takes (fun used => used.getLast? ≠ some '.') readIpv6Addr :=
  readIpv6Addr_takes joins_undotted
    (fun index => (readSeparator_closes readIpv4Addr_closes ':' index).undotted)
    (fun index => (readSeparator_closes readGroup_closes ':' index).undotted) (by decide)

theorem parseIpv6_dotted (text : List Char) : parseIpv6 (text ++ ['.']) = none := by
  simp only [parseIpv6, parseWith]
  split
  · rename_i addr whole
    obtain ⟨used, split, last⟩ := readIpv6Addr_undotted _ _ _ whole
    rw [List.append_nil] at split
    rw [← split, List.getLast?_concat] at last
    exact absurd rfl last
  · rfl

end AddressSpelling
