import AnimaOS.JsonGrammar

/-!
# A parser of JSON texts

Recursive descent over the grammar, with the depth bounded by the length of the
text. It reads every text of the grammar as the value it spells, so that a text
spells at most one value.
-/

namespace JsonGrammar

open JsonString Numerals

universe u

variable {α : Type u}

def skipSpace (text : List Char) : List Char := text.dropWhile isSpace

/-- A string behind its opening quote, up to the closing one. -/
def parseString : List Char → Option (List Char × List Char)
  | [] => none
  | '"' :: rest => some ([], rest)
  | '\\' :: 'u' :: a :: b :: c :: d :: rest =>
    match hexCode a b c d with
    | none => none
    | some n =>
      if n.isValidChar then (parseString rest).map fun (s, rest) => (Char.ofNat n :: s, rest)
      else
        match rest with
        | '\\' :: 'u' :: a' :: b' :: c' :: d' :: rest =>
          match hexCode a' b' c' d' with
          | none => none
          | some m =>
            if isHigh n && isLow m then
              (parseString rest).map fun (s, rest) => (paired n m :: s, rest)
            else none
        | _ => none
  | '\\' :: e :: rest =>
    match unescape e with
    | some c => (parseString rest).map fun (s, rest) => (c :: s, rest)
    | none => none
  | c :: rest =>
    if c.toNat < 0x20 ∨ c = '\\' then none
    else (parseString rest).map fun (s, rest) => (c :: s, rest)

/-! ## Numbers -/

def isNumberChar (c : Char) : Bool :=
  isDigit 10 c || c = '+' || c = '-' || c = '.' || c = 'e' || c = 'E'

def allDigits (text : List Char) : Bool := !text.isEmpty && text.all (isDigit 10)

def isExponent : List Char → Bool
  | [] => true
  | e :: rest =>
    (e = 'e' || e = 'E') &&
      match rest with
      | '+' :: ds => allDigits ds
      | '-' :: ds => allDigits ds
      | ds => allDigits ds

def isTail : List Char → Bool
  | '.' :: rest =>
    allDigits (rest.takeWhile (isDigit 10)) && isExponent (rest.dropWhile (isDigit 10))
  | rest => isExponent rest

def isUnsigned : List Char → Bool
  | '0' :: rest => isTail rest
  | text => allDigits (text.takeWhile (isDigit 10)) && isTail (text.dropWhile (isDigit 10))

def isNumber : List Char → Bool
  | '-' :: rest => isUnsigned rest
  | text => isUnsigned text

def parseNumber (text : List Char) : Option (Json × List Char) :=
  let lexeme := text.takeWhile isNumberChar
  if isNumber lexeme then some (.number lexeme, text.dropWhile isNumberChar) else none

/-! ## Values -/

/-- The items of a list behind its opening bracket, with the closing one. -/
def parseList (item : List Char → Option (α × List Char)) (close : Char) :
    Nat → List Char → Option (List α × List Char)
  | 0, _ => none
  | fuel + 1, text =>
    match item (skipSpace text) with
    | none => none
    | some (a, text) =>
      match skipSpace text with
      | [] => none
      | c :: text =>
        if c = ',' then (parseList item close fuel text).map fun (as, text) => (a :: as, text)
        else if c = close then some ([a], text)
        else none

def parseMember (value : List Char → Option (Json × List Char)) :
    List Char → Option ((List Char × Json) × List Char)
  | '"' :: text =>
    match parseString text with
    | none => none
    | some (name, text) =>
      match skipSpace text with
      | ':' :: text => (value (skipSpace text)).map fun (v, text) => ((name, v), text)
      | _ => none
  | _ => none

def parseValue : Nat → List Char → Option (Json × List Char)
  | 0, _ => none
  | fuel + 1, text =>
    match text with
    | '"' :: text => (parseString text).map fun (s, text) => (.string s, text)
    | '[' :: text =>
      match skipSpace text with
      | ']' :: text => some (.array [], text)
      | _ =>
        (parseList (parseValue fuel) ']' text.length text).map fun (vs, text) => (.array vs, text)
    | '{' :: text =>
      match skipSpace text with
      | '}' :: text => some (.object [], text)
      | _ =>
        (parseList (parseMember (parseValue fuel)) '}' text.length text).map fun (ms, text) =>
          (.object ms, text)
    | 'n' :: 'u' :: 'l' :: 'l' :: text => some (.null, text)
    | 't' :: 'r' :: 'u' :: 'e' :: text => some (.bool true, text)
    | 'f' :: 'a' :: 'l' :: 's' :: 'e' :: text => some (.bool false, text)
    | text => parseNumber text

def parse (text : List Char) : Option Json :=
  match parseValue text.length (skipSpace text) with
  | some (v, rest) => if skipSpace rest = [] then some v else none
  | none => none


/-! ## Every text of the grammar is read -/

/-- The text does not go on with a character of the class. -/
def Stops (p : Char → Bool) (rest : List Char) : Prop := ∀ c ∈ rest.head?, p c = false

theorem scan_stops {p : Char → Bool} {text rest : List Char} (inside : ∀ c ∈ text, p c = true)
    (stops : Stops p rest) :
    (text ++ rest).takeWhile p = text ∧ (text ++ rest).dropWhile p = rest := by
  rw [List.takeWhile_append_of_pos inside, List.dropWhile_append_of_pos inside]
  cases rest with
  | nil => exact ⟨List.append_nil text, rfl⟩
  | cons c more =>
    have out : p c = false := stops c rfl
    rw [List.takeWhile_cons, List.dropWhile_cons, out]
    exact ⟨List.append_nil text, rfl⟩

theorem skipSpace_append {blank : List Char} (h : Blank blank) (text : List Char) :
    skipSpace (blank ++ text) = skipSpace text :=
  List.dropWhile_append_of_pos h

theorem skipSpace_cons {c : Char} (solid : isSpace c = false) (text : List Char) :
    skipSpace (c :: text) = c :: text := by
  simp only [skipSpace, List.dropWhile_cons, solid, Bool.false_eq_true, if_false]

theorem isValidChar_of_high {n : Nat} (high : isHigh n = true) : ¬ n.isValidChar := by
  simp only [isHigh, Bool.decide_and, Bool.and_eq_true, decide_eq_true_eq] at high
  simp only [Nat.isValidChar]
  omega

/-- A string is read up to its closing quote, whatever follows it. -/
theorem parseString_complete {s t : List Char} (h : StringText s t) (rest : List Char) :
    parseString (t ++ '"' :: rest) = some (s, rest) := by
  induction h with
  | nil => rfl
  | plain printable quote backslash _ ih =>
    simp [parseString, backslash, ih, Nat.not_lt.mpr printable]
  | @short c e s t names _ ih =>
    have letter : e ≠ 'u' := by
      rintro rfl
      cases names
    simp [parseString, letter, names, ih]
  | code digits scalar _ ih =>
    simp only [List.cons_append, parseString, digits, if_pos scalar, ih, Option.map_some]
  | pair first second high low _ ih =>
    simp only [List.cons_append, parseString, first, if_neg (isValidChar_of_high high), second,
      high, low, Bool.and_self, if_true, ih, Option.map_some]


theorem isNumberChar_of_digit {c : Char} (h : isDigit 10 c = true) : isNumberChar c = true := by
  simp only [isNumberChar, h, Bool.true_or]

theorem allDigits_of_digits {ds : List Char} (h : Digits ds) : allDigits ds = true := by
  obtain ⟨some, digits⟩ := h
  simpa [allDigits, some] using digits

theorem Digits.head {ds : List Char} (h : Digits ds) :
    ∃ d rest, ds = d :: rest ∧ isDigit 10 d = true := by
  obtain ⟨some, digits⟩ := h
  cases ds with
  | nil => exact absurd rfl some
  | cons d rest => exact ⟨d, rest, rfl, digits d List.mem_cons_self⟩

theorem digit_ne {c d : Char} (h : isDigit 10 c = true) (other : isDigit 10 d = false) : c ≠ d := by
  rintro rfl
  rw [h] at other
  cases other

theorem exponent_letter {e : Char} (letter : e = 'e' ∨ e = 'E') :
    isDigit 10 e = false ∧ e ≠ '.' ∧ isNumberChar e = true := by
  rcases letter with rfl | rfl
  · decide
  · decide

theorem sign_chars {sign : List Char} (signed : sign = [] ∨ sign = ['+'] ∨ sign = ['-']) :
    ∀ c ∈ sign, isNumberChar c = true := by
  intro c hc
  rcases signed with rfl | rfl | rfl
  · cases hc
  · rw [List.mem_singleton.mp hc]
    decide
  · rw [List.mem_singleton.mp hc]
    decide

theorem isExponent_complete {text : List Char} (h : Exponent text) :
    isExponent text = true ∧ Stops (isDigit 10) text ∧ (∀ rest, text ≠ '.' :: rest) ∧
      ∀ c ∈ text, isNumberChar c = true := by
  cases h with
  | none => exact ⟨rfl, by simp [Stops], by simp, by simp⟩
  | @some e sign ds letter signed digits =>
    have read := allDigits_of_digits digits
    have shape : (e = 'e' || e = 'E') = true := by simpa using letter
    obtain ⟨noDigit, noPoint, inside⟩ := exponent_letter letter
    refine ⟨?_, ?_, fun rest same => noPoint (List.cons.inj same).1, ?_⟩
    · rcases signed with rfl | rfl | rfl
      · obtain ⟨d, more, rfl, isD⟩ := digits.head
        have plus : d ≠ '+' := digit_ne isD (by decide)
        have minus : d ≠ '-' := digit_ne isD (by decide)
        simp [isExponent, shape, plus, minus, read]
      · simp [isExponent, shape, read]
      · simp [isExponent, shape, read]
    · intro c first
      rw [← Option.some.inj first]
      exact noDigit
    · intro c hc
      rcases List.mem_cons.mp hc with rfl | hc
      · exact inside
      · rcases List.mem_append.mp hc with hc | hc
        · exact sign_chars signed c hc
        · exact isNumberChar_of_digit (digits.2 c hc)

theorem isTail_complete {fraction exponent : List Char} (f : Fraction fraction)
    (x : Exponent exponent) :
    isTail (fraction ++ exponent) = true ∧ Stops (isDigit 10) (fraction ++ exponent) ∧
      ∀ c ∈ fraction ++ exponent, isNumberChar c = true := by
  obtain ⟨read, stops, noPoint, chars⟩ := isExponent_complete x
  cases f with
  | none =>
    refine ⟨?_, stops, chars⟩
    simp only [List.nil_append, isTail]
    exact read
  | @point ds digits =>
    obtain ⟨taken, left⟩ := scan_stops digits.2 stops
    refine ⟨?_, ?_, ?_⟩
    · simp only [List.cons_append, isTail, taken, left, allDigits_of_digits digits, read,
        Bool.and_self]
    · intro c first
      rw [← Option.some.inj first]
      decide
    · intro c hc
      rcases List.mem_cons.mp hc with rfl | hc
      · decide
      · rcases List.mem_append.mp hc with hc | hc
        · exact isNumberChar_of_digit (digits.2 c hc)
        · exact chars c hc

theorem isUnsigned_complete {whole tail : List Char} (w : Whole whole) (read : isTail tail = true)
    (stops : Stops (isDigit 10) tail) : isUnsigned (whole ++ tail) = true := by
  cases w with
  | zero => exact read
  | @digits d ds lead digits =>
    obtain ⟨taken, left⟩ := scan_stops digits.2 stops
    rw [List.cons_append] at taken left
    simp [isUnsigned, lead, taken, left, allDigits_of_digits digits, read]

theorem Whole.digits_text {whole : List Char} (w : Whole whole) : Digits whole := by
  cases w with
  | zero =>
    refine ⟨List.cons_ne_nil _ _, ?_⟩
    intro c hc
    rw [List.mem_singleton.mp hc]
    rfl
  | digits lead digits => exact digits

/-- A number is made of the scanner's characters and passes its check. -/
theorem isNumber_complete {text : List Char} (h : NumberText text) :
    isNumber text = true ∧ text ≠ [] ∧ ∀ c ∈ text, isNumberChar c = true := by
  cases h with | @mk sign whole fraction exponent signed isWhole isFraction isExponent =>
  obtain ⟨read, stops, chars⟩ := isTail_complete isFraction isExponent
  have unsigned := isUnsigned_complete isWhole read stops
  have digits := isWhole.digits_text
  obtain ⟨d, ds, same, isD⟩ := digits.head
  have body : ∀ c ∈ whole ++ (fraction ++ exponent), isNumberChar c = true := by
    intro c hc
    rcases List.mem_append.mp hc with hc | hc
    · exact isNumberChar_of_digit (digits.2 c hc)
    · exact chars c hc
  rcases signed with rfl | rfl
  · refine ⟨?_, ?_, body⟩
    · have minus : d ≠ '-' := digit_ne isD (by decide)
      rw [same] at unsigned ⊢
      simpa [isNumber, minus] using unsigned
    · simp [same]
  · refine ⟨unsigned, by simp, ?_⟩
    intro c hc
    rcases List.mem_cons.mp hc with rfl | hc
    · decide
    · exact body c hc

/-- What may follow a number. -/
def Ends (rest : List Char) : Prop := Stops isNumberChar rest

theorem parseNumber_complete {text : List Char} (h : NumberText text) {rest : List Char}
    (ends : Ends rest) : parseNumber (text ++ rest) = some (.number text, rest) := by
  obtain ⟨read, -, chars⟩ := isNumber_complete h
  obtain ⟨taken, left⟩ := scan_stops chars ends
  simp only [parseNumber, taken, left, read, if_true]

theorem ends_cons {c : Char} (h : isNumberChar c = false) (rest : List Char) :
    Ends (c :: rest) := by
  intro d first
  rw [← Option.some.inj first]
  exact h

theorem isSpace_ends {c : Char} (h : isSpace c = true) : isNumberChar c = false := by
  simp only [isSpace, Bool.or_eq_true, decide_eq_true_eq] at h
  rcases h with ((rfl | rfl) | rfl) | rfl
  · decide
  · decide
  · decide
  · decide

theorem ends_blank {blank : List Char} (h : Blank blank) {c : Char} (close : isNumberChar c = false)
    (rest : List Char) : Ends (blank ++ c :: rest) := by
  cases blank with
  | nil => exact ends_cons close rest
  | cons d blank => exact ends_cons (isSpace_ends (h d List.mem_cons_self)) _

/-- The text opens a value: neither white space nor the end of a list. -/
def Opens (text : List Char) : Prop :=
  ∃ c more, text = c :: more ∧ isSpace c = false ∧ c ≠ ']' ∧ c ≠ '}'

theorem isNumberChar_opens {c : Char} (h : isNumberChar c = true) :
    isSpace c = false ∧ c ≠ ']' ∧ c ≠ '}' := by
  refine ⟨?_, ?_, ?_⟩
  · cases space : isSpace c with
    | false => rfl
    | true =>
      rw [isSpace_ends space] at h
      cases h
  · rintro rfl
    exact absurd h (by decide)
  · rintro rfl
    exact absurd h (by decide)

theorem Spells.opens {v : Json} {t : List Char} (h : Spells v t) : Opens t := by
  cases h with
  | null => exact ⟨'n', _, rfl, by decide⟩
  | true => exact ⟨'t', _, rfl, by decide⟩
  | false => exact ⟨'f', _, rfl, by decide⟩
  | number isNumber =>
    obtain ⟨-, some, chars⟩ := isNumber_complete isNumber
    cases t with
    | nil => exact absurd rfl some
    | cons c t => exact ⟨c, t, rfl, isNumberChar_opens (chars c List.mem_cons_self)⟩
  | string isString => exact ⟨'"', _, rfl, by decide⟩
  | emptyArray blank => exact ⟨'[', _, rfl, by decide⟩
  | array some spaced items => exact ⟨'[', _, rfl, by decide⟩
  | emptyObject blank => exact ⟨'{', _, rfl, by decide⟩
  | object some formed values => exact ⟨'{', _, rfl, by decide⟩

theorem skipSpace_opens {text : List Char} (h : Opens text) {blank : List Char}
    (spaced : Blank blank) (rest : List Char) :
    skipSpace (blank ++ (text ++ rest)) = text ++ rest := by
  obtain ⟨c, more, rfl, solid, -, -⟩ := h
  rw [skipSpace_append spaced]
  exact skipSpace_cons solid _

/-- What a reader of items does on the pieces of a list. -/
structure ReadsPieces (item : List Char → Option (α × List Char)) (ps : List (Piece α)) : Prop where
  spaced : ∀ p ∈ ps, p.Spaced
  opens : ∀ p ∈ ps, Opens p.text
  reads : ∀ p ∈ ps, ∀ rest, Ends rest → item (p.text ++ rest) = some (p.item, rest)

theorem ReadsPieces.tail {item : List Char → Option (α × List Char)} {p : Piece α}
    {ps : List (Piece α)} (h : ReadsPieces item (p :: ps)) : ReadsPieces item ps where
  spaced := fun q hq => h.spaced q (List.mem_cons_of_mem _ hq)
  opens := fun q hq => h.opens q (List.mem_cons_of_mem _ hq)
  reads := fun q hq => h.reads q (List.mem_cons_of_mem _ hq)

/-- One piece is read up to the comma or the bracket behind it. -/
theorem parsePiece_complete {item : List Char → Option (α × List Char)} {p : Piece α}
    {ps : List (Piece α)} (h : ReadsPieces item (p :: ps)) {c : Char}
    (number : isNumberChar c = false) (solid : isSpace c = false) (rest : List Char) :
    item (skipSpace (p.whole ++ c :: rest)) = some (p.item, p.after ++ c :: rest) ∧
      skipSpace (p.after ++ c :: rest) = c :: rest := by
  have first : p ∈ p :: ps := List.mem_cons_self
  have spaced := h.spaced p first
  constructor
  · rw [Piece.whole, List.append_assoc, List.append_assoc,
      skipSpace_opens (h.opens p first) spaced.before]
    exact h.reads p first _ (ends_blank spaced.after number rest)
  · rw [skipSpace_append spaced.after]
    exact skipSpace_cons solid rest

theorem parseList_complete {item : List Char → Option (α × List Char)} {close : Char}
    (comma : close ≠ ',') (number : isNumberChar close = false) (solid : isSpace close = false)
    (rest : List Char) {ps : List (Piece α)} (nonempty : ps ≠ []) (h : ReadsPieces item ps)
    {fuel : Nat} (enough : ps.length ≤ fuel) :
    parseList item close fuel (listed ps ++ close :: rest) = some (ps.map Piece.item, rest) := by
  induction ps generalizing fuel with
  | nil => exact absurd rfl nonempty
  | cons p ps ih =>
    obtain ⟨fuel, rfl⟩ : ∃ n, fuel = n + 1 := ⟨fuel - 1, by simp at enough; omega⟩
    cases ps with
    | nil =>
      obtain ⟨read, skipped⟩ := parsePiece_complete h number solid rest
      simp only [listed, parseList, read, skipped, comma, if_false, if_true, List.map_cons,
        List.map_nil]
    | cons q ps =>
      obtain ⟨read, skipped⟩ :=
        parsePiece_complete h (by decide : isNumberChar ',' = false) (by decide)
          (listed (q :: ps) ++ close :: rest)
      have later := ih (List.cons_ne_nil q ps) h.tail (Nat.le_of_succ_le_succ enough)
      simp only [listed, List.append_assoc, List.cons_append, parseList, read, skipped, later,
        if_true, Option.map_some, List.map_cons]

theorem length_le_listed {ps : List (Piece α)} (opens : ∀ p ∈ ps, Opens p.text) :
    ps.length ≤ (listed ps).length ∧ ∀ p ∈ ps, p.text.length ≤ (listed ps).length := by
  induction ps with
  | nil => exact ⟨Nat.le_refl _, by simp⟩
  | cons p ps ih =>
    obtain ⟨counted, fits⟩ := ih fun q hq => opens q (List.mem_cons_of_mem _ hq)
    obtain ⟨c, more, same, -⟩ := opens p List.mem_cons_self
    have some : 0 < p.text.length := by simp [same]
    have whole : p.text.length ≤ p.whole.length := by simp [Piece.whole]; omega
    cases ps with
    | nil =>
      refine ⟨Nat.le_trans some whole, ?_⟩
      intro q hq
      rw [List.mem_singleton.mp hq]
      exact whole
    | cons r ps =>
      have length : (listed (p :: r :: ps)).length =
          p.whole.length + ((listed (r :: ps)).length + 1) := by
        simp only [listed, List.length_append, List.length_cons]
      constructor
      · simp only [length, List.length_cons] at counted ⊢
        omega
      · intro q hq
        rcases List.mem_cons.mp hq with rfl | hq
        · omega
        · have := fits q hq
          omega

theorem listed_opens {item : List Char → Option (α × List Char)} {ps : List (Piece α)}
    (nonempty : ps ≠ []) (h : ReadsPieces item ps) (rest : List Char) :
    ∃ c more, skipSpace (listed ps ++ rest) = c :: more ∧ c ≠ ']' ∧ c ≠ '}' := by
  have front : ∃ p tail, p ∈ ps ∧ listed ps ++ rest = p.before ++ (p.text ++ tail) := by
    cases ps with
    | nil => exact absurd rfl nonempty
    | cons p ps =>
      cases ps with
      | nil => exact ⟨p, _, List.mem_cons_self, by simp [listed, Piece.whole]; rfl⟩
      | cons q ps => exact ⟨p, _, List.mem_cons_self, by simp [listed, Piece.whole]; rfl⟩
  obtain ⟨p, tail, hp, same⟩ := front
  obtain ⟨c, more, text, -, square, curly⟩ := h.opens p hp
  rw [same, skipSpace_opens (h.opens p hp) (h.spaced p hp).before, text]
  exact ⟨c, _, rfl, square, curly⟩

theorem parseMember_complete {value : List Char → Option (Json × List Char)} {m : Member}
    (formed : m.WellFormed) (opens : Opens m.valueText)
    (reads : ∀ rest, Ends rest → value (m.valueText ++ rest) = some (m.value, rest))
    (rest : List Char) (ends : Ends rest) :
    parseMember value (m.piece.text ++ rest) = some (m.piece.item, rest) := by
  have text : m.piece.text ++ rest =
      '"' :: (m.nameText ++ '"' :: (m.beforeColon ++ ':' ::
        (m.afterColon ++ (m.valueText ++ rest)))) := by
    simp [Member.piece]
  have colon : isSpace ':' = false := rfl
  have item : m.piece.item = (m.name, m.value) := rfl
  rw [text, item]
  simp only [parseMember, parseString_complete formed.named, skipSpace_append formed.beforeColon,
    skipSpace_cons colon, skipSpace_opens opens formed.afterColon, reads rest ends, Option.map_some]

/-! ## Values -/

theorem parseValue_number {c : Char} (h : isNumberChar c = true) (fuel : Nat) (text : List Char) :
    parseValue (fuel + 1) (c :: text) = parseNumber (c :: text) := by
  have other : ∀ {d : Char}, isNumberChar d = false → c ≠ d := by
    rintro d out rfl
    rw [h] at out
    cases out
  simp [parseValue, other (by decide : isNumberChar '"' = false),
    other (by decide : isNumberChar '[' = false), other (by decide : isNumberChar '{' = false),
    other (by decide : isNumberChar 'n' = false), other (by decide : isNumberChar 't' = false),
    other (by decide : isNumberChar 'f' = false)]

theorem parseValue_array {fuel : Nat} {text rest more : List Char} {c : Char} {vs : List Json}
    (first : skipSpace text = c :: more) (other : c ≠ ']')
    (read : parseList (parseValue fuel) ']' text.length text = some (vs, rest)) :
    parseValue (fuel + 1) ('[' :: text) = some (.array vs, rest) := by
  simp [parseValue, first, other, read]

theorem parseValue_object {fuel : Nat} {text rest more : List Char} {c : Char}
    {ms : List (List Char × Json)} (first : skipSpace text = c :: more) (other : c ≠ '}')
    (read : parseList (parseMember (parseValue fuel)) '}' text.length text = some (ms, rest)) :
    parseValue (fuel + 1) ('{' :: text) = some (.object ms, rest) := by
  simp [parseValue, first, other, read]

/-- The text is read as the value whatever follows it, given as much fuel as it is long. -/
def ReadsValue (v : Json) (t : List Char) : Prop :=
  ∀ fuel, t.length ≤ fuel → ∀ rest, Ends rest → parseValue fuel (t ++ rest) = some (v, rest)

theorem readsValue_intro {v : Json} {t : List Char} (opens : Opens t)
    (h : ∀ fuel, t.length ≤ fuel + 1 → ∀ rest, Ends rest →
      parseValue (fuel + 1) (t ++ rest) = some (v, rest)) : ReadsValue v t := by
  intro fuel enough rest ends
  cases fuel with
  | zero =>
    obtain ⟨c, more, rfl, -⟩ := opens
    cases enough
  | succ fuel => exact h fuel enough rest ends

theorem readsValue_number {t : List Char} (isNumber : NumberText t) : ReadsValue (.number t) t := by
  refine readsValue_intro (Spells.number isNumber).opens ?_
  intro fuel enough rest ends
  have read := parseNumber_complete isNumber ends
  obtain ⟨-, nonempty, chars⟩ := isNumber_complete isNumber
  cases t with
  | nil => exact absurd rfl nonempty
  | cons c t =>
    rw [List.cons_append] at read ⊢
    rw [parseValue_number (chars c List.mem_cons_self)]
    exact read

theorem readsValue_string {s t : List Char} (isString : StringText s t) :
    ReadsValue (.string s) ('"' :: (t ++ ['"'])) := by
  refine readsValue_intro (Spells.string isString).opens ?_
  intro fuel enough rest ends
  simp only [List.cons_append, List.append_assoc, List.nil_append, parseValue,
    parseString_complete isString, Option.map_some]

theorem readsValue_array {ps : List (Piece Json)} (nonempty : ps ≠ [])
    (spaced : ∀ p ∈ ps, p.Spaced) (opens : ∀ p ∈ ps, Opens p.text)
    (reads : ∀ p ∈ ps, ReadsValue p.item p.text) :
    ReadsValue (.array (ps.map Piece.item)) ('[' :: (listed ps ++ [']'])) := by
  refine readsValue_intro ⟨'[', _, rfl, by decide⟩ ?_
  intro fuel enough rest ends
  obtain ⟨counted, fits⟩ := length_le_listed opens
  simp only [List.length_cons, List.length_append, List.length_nil] at enough
  have pieces : ReadsPieces (parseValue fuel) ps := by
    refine ⟨spaced, opens, fun p hp => reads p hp fuel ?_⟩
    have := fits p hp
    omega
  have text : '[' :: (listed ps ++ [']']) ++ rest = '[' :: (listed ps ++ ']' :: rest) := by
    simp
  obtain ⟨c, more, first, square, -⟩ := listed_opens nonempty pieces (']' :: rest)
  rw [text]
  refine parseValue_array first square ?_
  refine parseList_complete (by decide) (by decide) (by decide) rest nonempty pieces ?_
  simp only [List.length_append]
  omega

theorem readsValue_object {ms : List Member} (nonempty : ms ≠ []) (formed : ∀ m ∈ ms, m.WellFormed)
    (opens : ∀ m ∈ ms, Opens m.valueText) (reads : ∀ m ∈ ms, ReadsValue m.value m.valueText) :
    ReadsValue (.object (ms.map fun m => (m.name, m.value)))
      ('{' :: (listed (ms.map Member.piece) ++ ['}'])) := by
  refine readsValue_intro ⟨'{', _, rfl, by decide⟩ ?_
  intro fuel enough rest ends
  have quoted : ∀ p ∈ ms.map Member.piece, Opens p.text := by
    intro p hp
    obtain ⟨m, -, rfl⟩ := List.mem_map.mp hp
    exact ⟨'"', _, rfl, by decide⟩
  obtain ⟨counted, fits⟩ := length_le_listed quoted
  simp only [List.length_cons, List.length_append, List.length_nil] at enough
  have pieces : ReadsPieces (parseMember (parseValue fuel)) (ms.map Member.piece) := by
    refine ⟨?_, quoted, ?_⟩
    · intro p hp
      obtain ⟨m, hm, rfl⟩ := List.mem_map.mp hp
      exact (formed m hm).spaced
    · intro p hp
      obtain ⟨m, hm, rfl⟩ := List.mem_map.mp hp
      refine parseMember_complete (formed m hm) (opens m hm) (reads m hm fuel ?_)
      have whole := fits _ hp
      have inside : m.valueText.length ≤ m.piece.text.length := by
        simp only [Member.piece, List.length_cons, List.length_append]
        omega
      omega
  have text : '{' :: (listed (ms.map Member.piece) ++ ['}']) ++ rest =
      '{' :: (listed (ms.map Member.piece) ++ '}' :: rest) := by
    simp
  have some : ms.map Member.piece ≠ [] := by simpa using nonempty
  have items : ms.map (fun m => (m.name, m.value)) = (ms.map Member.piece).map Piece.item := by
    rw [List.map_map]
    rfl
  obtain ⟨c, more, first, -, curly⟩ := listed_opens some pieces ('}' :: rest)
  rw [text, items]
  refine parseValue_object first curly ?_
  refine parseList_complete (by decide) (by decide) (by decide) rest some pieces ?_
  simp only [List.length_append]
  omega

theorem readsValue_empty {w : List Char} (blank : Blank w) :
    ReadsValue (.array []) ('[' :: (w ++ [']'])) ∧
      ReadsValue (.object []) ('{' :: (w ++ ['}'])) := by
  have square : isSpace ']' = false := rfl
  have curly : isSpace '}' = false := rfl
  constructor
  · refine readsValue_intro ⟨'[', _, rfl, by decide⟩ ?_
    intro fuel enough rest ends
    simp only [List.cons_append, List.append_assoc, List.nil_append, parseValue,
      skipSpace_append blank, skipSpace_cons square]
  · refine readsValue_intro ⟨'{', _, rfl, by decide⟩ ?_
    intro fuel enough rest ends
    simp only [List.cons_append, List.append_assoc, List.nil_append, parseValue,
      skipSpace_append blank, skipSpace_cons curly]

theorem parseValue_complete {v : Json} {t : List Char} (h : Spells v t) : ReadsValue v t := by
  induction h with
  | null => exact readsValue_intro Spells.null.opens fun _ _ _ _ => rfl
  | true => exact readsValue_intro Spells.true.opens fun _ _ _ _ => rfl
  | false => exact readsValue_intro Spells.false.opens fun _ _ _ _ => rfl
  | number isNumber => exact readsValue_number isNumber
  | string isString => exact readsValue_string isString
  | emptyArray blank => exact (readsValue_empty blank).1
  | array nonempty spaced items ih =>
    exact readsValue_array nonempty spaced (fun p hp => (items p hp).opens) ih
  | emptyObject blank => exact (readsValue_empty blank).2
  | object nonempty formed values ih =>
    exact readsValue_object nonempty formed (fun m hm => (values m hm).opens) ih

/-- The parser reads every text of the grammar as the value it spells. -/
theorem parse_complete {v : Json} {text : List Char} (h : JsonText v text) :
    parse text = some v := by
  obtain ⟨before, t, after, rfl, spaced, spaced', spells⟩ := h
  have enough : t.length ≤ (before ++ (t ++ after)).length := by
    simp only [List.length_append]
    omega
  have ends : Ends after := by
    cases after with
    | nil => simp [Ends, Stops]
    | cons c after => exact ends_cons (isSpace_ends (spaced' c List.mem_cons_self)) after
  have read := parseValue_complete spells _ enough after ends
  have closed : skipSpace after = [] := by
    rw [← List.append_nil after, skipSpace_append spaced']
    rfl
  simp only [parse, skipSpace_opens spells.opens spaced, read, closed, if_true]

/-- A text spells at most one value. -/
theorem jsonText_unique {v w : Json} {text : List Char} (h : JsonText v text)
    (h' : JsonText w text) : v = w :=
  Option.some.inj ((parse_complete h).symm.trans (parse_complete h'))

/-! ## The characters of a text -/

/-- No control character, apart from those that are white space. -/
def Visible (c : Char) : Prop := 0x20 ≤ c.toNat ∨ isSpace c = true

theorem visible_of_digit {radix : Nat} {c : Char} (h : isDigit radix c = true) : Visible c := by
  left
  by_cases low : c.toNat < 0x20
  · have zero : '0'.toNat = 48 := rfl
    have lower : 'a'.toNat = 97 := rfl
    have upper : 'A'.toNat = 65 := rfl
    have none : toDigit radix c = none := by
      simp only [toDigit]
      rw [if_neg (by omega), if_neg (by omega), if_neg (by omega)]
      rfl
    rw [isDigit, none] at h
    cases h
  · omega

theorem visible_of_unescape {c e : Char} (h : unescape e = some c) : Visible e := by
  unfold unescape at h
  split at h <;> first | cases h; done | exact .inl (by decide)

theorem hexCode_digits {a b c d : Char} {n : Nat} (h : hexCode a b c d = some n) :
    ∀ x ∈ [a, b, c, d], Visible x := by
  intro x hx
  have digits : ∀ y ∈ [a, b, c, d], isDigit 16 y = true := by
    simp only [hexCode, Option.bind_eq_bind, Option.bind_eq_some_iff] at h
    obtain ⟨_, ha, _, hb, _, hc, _, hd, -⟩ := h
    simp [isDigit, ha, hb, hc, hd]
  exact visible_of_digit (digits x hx)

theorem StringText.visible {s t : List Char} (h : StringText s t) : ∀ c ∈ t, Visible c := by
  have backslash : Visible '\\' := .inl (by decide)
  have letter : Visible 'u' := .inl (by decide)
  induction h with
  | nil => simp
  | plain printable quote slash rest ih =>
    intro c hc
    rcases List.mem_cons.mp hc with rfl | hc
    · exact .inl printable
    · exact ih c hc
  | short names rest ih =>
    simp only [List.mem_cons, forall_eq_or_imp]
    exact ⟨backslash, visible_of_unescape names, ih⟩
  | code digits scalar rest ih =>
    have hex := hexCode_digits digits
    simp only [List.mem_cons, forall_eq_or_imp, List.not_mem_nil, false_implies, implies_true,
      and_true] at hex ⊢
    exact ⟨backslash, letter, hex.1, hex.2.1, hex.2.2.1, hex.2.2.2, ih⟩
  | pair first second high low rest ih =>
    have hex := hexCode_digits first
    have hex' := hexCode_digits second
    simp only [List.mem_cons, forall_eq_or_imp, List.not_mem_nil, false_implies, implies_true,
      and_true] at hex hex' ⊢
    exact ⟨backslash, letter, hex.1, hex.2.1, hex.2.2.1, hex.2.2.2, backslash, letter, hex'.1,
      hex'.2.1, hex'.2.2.1, hex'.2.2.2, ih⟩

theorem Blank.visible {blank : List Char} (h : Blank blank) : ∀ c ∈ blank, Visible c :=
  fun c hc => .inr (h c hc)

theorem visible_of_numberChar {c : Char} (h : isNumberChar c = true) : Visible c := by
  simp only [isNumberChar, Bool.or_eq_true, decide_eq_true_eq] at h
  rcases h with ((((digit | rfl) | rfl) | rfl) | rfl) | rfl
  · exact visible_of_digit digit
  all_goals exact .inl (by decide)

theorem listed_visible {ps : List (Piece α)} (spaced : ∀ p ∈ ps, p.Spaced)
    (texts : ∀ p ∈ ps, ∀ c ∈ p.text, Visible c) : ∀ c ∈ listed ps, Visible c := by
  induction ps with
  | nil => simp [listed]
  | cons p ps ih =>
    have whole : ∀ c ∈ p.whole, Visible c := by
      have ends := spaced p List.mem_cons_self
      intro c hc
      rcases List.mem_append.mp hc with hc | hc
      · exact ends.before.visible c hc
      rcases List.mem_append.mp hc with hc | hc
      · exact texts p List.mem_cons_self c hc
      · exact ends.after.visible c hc
    have tail := ih (fun q hq => spaced q (List.mem_cons_of_mem _ hq))
      (fun q hq => texts q (List.mem_cons_of_mem _ hq))
    cases ps with
    | nil => exact whole
    | cons q ps =>
      intro c hc
      rcases List.mem_append.mp hc with hc | hc
      · exact whole c hc
      rcases List.mem_cons.mp hc with rfl | hc
      · exact .inl (by decide)
      · exact tail c hc

theorem Member.WellFormed.visible {m : Member} (formed : m.WellFormed)
    (value : ∀ c ∈ m.valueText, Visible c) : ∀ c ∈ m.piece.text, Visible c := by
  have quote : Visible '"' := .inl (by decide)
  have colon : Visible ':' := .inl (by decide)
  intro c hc
  simp only [Member.piece, List.mem_cons, List.mem_append] at hc
  rcases hc with rfl | hc | rfl | hc | rfl | hc | hc
  · exact quote
  · exact formed.named.visible c hc
  · exact quote
  · exact formed.beforeColon.visible c hc
  · exact colon
  · exact formed.afterColon.visible c hc
  · exact value c hc

theorem visible_enclosed {first last : Char} {t : List Char} (opening : Visible first)
    (closing : Visible last) (inside : ∀ c ∈ t, Visible c) :
    ∀ c ∈ first :: (t ++ [last]), Visible c := by
  intro c hc
  simp only [List.mem_cons, List.mem_append, List.not_mem_nil, or_false] at hc
  rcases hc with rfl | hc | rfl
  · exact opening
  · exact inside c hc
  · exact closing

theorem Spells.visible {v : Json} {t : List Char} (h : Spells v t) : ∀ c ∈ t, Visible c := by
  have bracket : ∀ c ∈ ['"', '[', ']', '{', '}'], Visible c := by
    simp [Visible]
  induction h with
  | null => simp [Visible]
  | true => simp [Visible]
  | false => simp [Visible]
  | number isNumber =>
    exact fun c hc => visible_of_numberChar ((isNumber_complete isNumber).2.2 c hc)
  | string isString =>
    exact visible_enclosed (bracket _ (by simp)) (bracket _ (by simp)) isString.visible
  | emptyArray blank =>
    exact visible_enclosed (bracket _ (by simp)) (bracket _ (by simp)) blank.visible
  | array nonempty spaced items ih =>
    exact visible_enclosed (bracket _ (by simp)) (bracket _ (by simp)) (listed_visible spaced ih)
  | emptyObject blank =>
    exact visible_enclosed (bracket _ (by simp)) (bracket _ (by simp)) blank.visible
  | object nonempty formed values ih =>
    refine visible_enclosed (bracket _ (by simp)) (bracket _ (by simp)) (listed_visible ?_ ?_)
    · intro p hp
      obtain ⟨m, hm, rfl⟩ := List.mem_map.mp hp
      exact (formed m hm).spaced
    · intro p hp
      obtain ⟨m, hm, rfl⟩ := List.mem_map.mp hp
      exact (formed m hm).visible (ih m hm)

/-- Control characters stand in a text as white space only. -/
theorem JsonText.visible {v : Json} {text : List Char} (h : JsonText v text) :
    ∀ c ∈ text, Visible c := by
  obtain ⟨before, t, after, rfl, spaced, spaced', spells⟩ := h
  intro c hc
  rcases List.mem_append.mp hc with hc | hc
  · exact spaced.visible c hc
  rcases List.mem_append.mp hc with hc | hc
  · exact spells.visible c hc
  · exact spaced'.visible c hc

end JsonGrammar
