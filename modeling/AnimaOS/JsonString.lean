import AnimaOS.TextSplit

/-!
# Quoted strings of JSON

A writer may choose which characters get a short escape; the other control
characters are written by their code. A text quoted so has a quote inside only
after a backslash, which settles where a quoted plain key can be found in it.
-/

namespace JsonString

open TextSplit

/-- The character a short escape stands for. -/
def unescape : Char → Option Char
  | '"' => some '"'
  | '\\' => some '\\'
  | '/' => some '/'
  | 'b' => some '\x08'
  | 'f' => some '\x0c'
  | 'n' => some '\n'
  | 'r' => some '\r'
  | 't' => some '\t'
  | _ => none

/-- The short escapes a writer uses. -/
structure ShortEscapes where
  letter : Char → Option Char
  quote : letter '"' = some '"'
  backslash : letter '\\' = some '\\'
  standard : ∀ c e, letter c = some e → unescape e = some c

def hexDigit (n : Nat) : Char := Char.ofNat (if n < 10 then n + 48 else n + 87)

namespace ShortEscapes

def escapeChar (w : ShortEscapes) (c : Char) : List Char :=
  match w.letter c with
  | some e => ['\\', e]
  | none =>
    if c.toNat < 0x20 then ['\\', 'u', '0', '0', hexDigit (c.toNat / 16), hexDigit (c.toNat % 16)]
    else [c]

def escape (w : ShortEscapes) (text : List Char) : List Char := text.flatMap w.escapeChar

def quoted (w : ShortEscapes) (text : List Char) : List Char := '"' :: w.escape text ++ ['"']

/-- Characters that are written as they are. -/
def Plain (w : ShortEscapes) (c : Char) : Prop := w.escapeChar c = [c] ∧ c ≠ '"' ∧ c ≠ '\\'

instance (w : ShortEscapes) (c : Char) : Decidable (w.Plain c) :=
  inferInstanceAs (Decidable (_ ∧ _))

theorem escape_cons (w : ShortEscapes) (c : Char) (text : List Char) :
    w.escape (c :: text) = w.escapeChar c ++ w.escape text := List.flatMap_cons

theorem escapeChar_quote (w : ShortEscapes) : w.escapeChar '"' = ['\\', '"'] := by
  simp only [escapeChar, w.quote]

theorem hexDigit_ne_quote : ∀ n, n < 16 → hexDigit n ≠ '"' := by
  decide

theorem escapeChar_cases (w : ShortEscapes) {c : Char} (h : c ≠ '"') :
    w.Plain c ∨ ∃ rest, w.escapeChar c = '\\' :: rest ∧ '"' ∉ rest := by
  cases letter : w.letter c with
  | some e =>
    right
    refine ⟨[e], by simp only [escapeChar, letter], ?_⟩
    intro found
    have same : '"' = e := List.mem_singleton.mp found
    have read := w.standard c e letter
    rw [← same] at read
    exact h (Option.some.inj read).symm
  | none =>
    by_cases control : c.toNat < 0x20
    · right
      refine ⟨['u', '0', '0', hexDigit (c.toNat / 16), hexDigit (c.toNat % 16)], ?_, ?_⟩
      · simp only [escapeChar, letter, if_pos control]
      · have high := hexDigit_ne_quote (c.toNat / 16) (by omega)
        have low := hexDigit_ne_quote (c.toNat % 16) (by omega)
        simp [high.symm, low.symm]
    · left
      refine ⟨by simp only [escapeChar, letter, if_neg control], h, ?_⟩
      rintro rfl
      rw [w.backslash] at letter
      cases letter

/-! ## Where a quoted key is found -/

/-- The key stands quoted in the quoted text: as all of it, or after a quote at its end. -/
def Captures (text key : List Char) : Prop := text = key ∨ '"' :: key <:+ text

instance (text key : List Char) : Decidable (Captures text key) :=
  inferInstanceAs (Decidable (_ ∨ _))

/-- A field name: written as it is, and not mistaken for the punctuation of an object. -/
structure FieldName (w : ShortEscapes) (key : List Char) : Prop where
  nonempty : key ≠ []
  plain : ∀ c ∈ key, w.Plain c
  punctuation : ∀ c ∈ key, c ≠ ':' ∧ c ≠ ',' ∧ c ≠ '}'

def needle (key : List Char) : List Char := '"' :: (key ++ ['"'])

theorem escape_plain {w : ShortEscapes} {key : List Char} (plain : ∀ c ∈ key, w.Plain c) :
    w.escape key = key := by
  induction key with
  | nil => rfl
  | cons c key ih =>
    have rest := ih fun d hd => plain d (List.mem_cons_of_mem _ hd)
    rw [escape_cons, (plain c List.mem_cons_self).1, rest]
    rfl

theorem key_prefix_iff {w : ShortEscapes} {key : List Char} (plain : ∀ c ∈ key, w.Plain c)
    (text rest : List Char) :
    key ++ ['"'] <+: w.escape text ++ '"' :: rest ↔ text = key := by
  induction key generalizing text with
  | nil =>
    cases text with
    | nil => simp [escape]
    | cons c text =>
      by_cases quote : c = '"'
      · subst quote
        simp [escape_cons, escapeChar_quote]
      · rcases w.escapeChar_cases quote with ⟨same, -, -⟩ | ⟨more, escaped, -⟩
        · simp [escape_cons, same, Ne.symm quote]
        · simp [escape_cons, escaped]
  | cons k key ih =>
    obtain ⟨same, notQuote, notBackslash⟩ := plain k List.mem_cons_self
    have tail := ih fun d hd => plain d (List.mem_cons_of_mem _ hd)
    cases text with
    | nil => simp [escape, notQuote]
    | cons c text =>
      by_cases first : c = k
      · subst first
        simp [escape_cons, same, tail]
      · have apart : ¬ k = c := fun h => first h.symm
        by_cases quote : c = '"'
        · subst quote
          simp [escape_cons, escapeChar_quote, notBackslash, first]
        · rcases w.escapeChar_cases quote with ⟨written, -, -⟩ | ⟨more, escaped, -⟩
          · simp [escape_cons, written, apart, first]
          · simp [escape_cons, escaped, notBackslash, first]

theorem afterFirst_escape {w : ShortEscapes} {key : List Char} (plain : ∀ c ∈ key, w.Plain c)
    (text : List Char) {rest : List Char} (miss : ¬ key ++ ['"'] <+: rest) :
    afterFirst (needle key) (w.escape text ++ '"' :: rest) =
      if '"' :: key <:+ text then some rest else afterFirst (needle key) rest := by
  induction text with
  | nil =>
    simp only [escape, List.flatMap_nil, List.nil_append, needle, afterFirst_miss miss]
    rw [if_neg (by simp)]
  | cons c text ih =>
    simp only [needle] at ih ⊢
    by_cases quote : c = '"'
    · subst quote
      rw [escape_cons, escapeChar_quote, List.append_assoc]
      have backslash : '"' ∉ ['\\'] := by decide
      have skipped := afterFirst_skip backslash (key ++ ['"'])
        ('"' :: (w.escape text ++ '"' :: rest))
      simp only [List.cons_append, List.nil_append] at skipped ⊢
      rw [skipped]
      by_cases whole : text = key
      · subst whole
        have split : w.escape text ++ '"' :: rest = (text ++ ['"']) ++ rest := by
          rw [escape_plain plain]
          simp
        rw [split, afterFirst_hit, if_pos (List.suffix_refl _)]
      · rw [afterFirst_miss fun starts => whole ((key_prefix_iff plain text rest).mp starts), ih]
        have suffixes : '"' :: key <:+ '"' :: text ↔ '"' :: key <:+ text := by
          rw [List.suffix_cons_iff]
          constructor
          · rintro (same | longer)
            · exact absurd (List.cons.inj same).2.symm whole
            · exact longer
          · exact Or.inr
        simp only [suffixes]
    · have fresh : '"' ∉ w.escapeChar c := by
        rcases w.escapeChar_cases quote with ⟨same, -, -⟩ | ⟨more, escaped, absent⟩
        · rw [same]
          simpa using Ne.symm quote
        · rw [escaped]
          simp [absent]
      rw [escape_cons, List.append_assoc, afterFirst_skip fresh, ih]
      have suffixes : '"' :: key <:+ c :: text ↔ '"' :: key <:+ text := by
        rw [List.suffix_cons_iff]
        constructor
        · rintro (same | longer)
          · exact absurd (List.cons.inj same).1.symm quote
          · exact longer
        · exact Or.inr
      simp only [suffixes]

theorem afterFirst_quoted {w : ShortEscapes} {key : List Char} (plain : ∀ c ∈ key, w.Plain c)
    (text : List Char) {rest : List Char} (miss : ¬ key ++ ['"'] <+: rest) :
    afterFirst (needle key) (w.quoted text ++ rest) =
      if Captures text key then some rest else afterFirst (needle key) rest := by
  have opened : w.quoted text ++ rest = '"' :: (w.escape text ++ '"' :: rest) := by
    simp [quoted]
  rw [opened]
  by_cases whole : text = key
  · subst whole
    have captured : Captures text text := Or.inl rfl
    rw [if_pos captured, escape_plain plain, needle]
    have split : text ++ '"' :: rest = (text ++ ['"']) ++ rest := by simp
    rw [split, afterFirst_hit]
  · have inside := afterFirst_escape plain text miss
    rw [needle] at inside ⊢
    rw [afterFirst_miss fun starts => whole ((key_prefix_iff plain text rest).mp starts), inside]
    simp only [Captures, whole, false_or]

/-! ## Objects of string fields -/

def member (w : ShortEscapes) (field : List Char × List Char) : List Char :=
  w.quoted field.1 ++ ':' :: w.quoted field.2

def closing (w : ShortEscapes) : List (List Char × List Char) → List Char
  | [] => ['}']
  | field :: rest => ',' :: w.member field ++ w.closing rest

def object (w : ShortEscapes) : List (List Char × List Char) → List Char
  | [] => ['{', '}']
  | field :: rest => '{' :: w.member field ++ w.closing rest

/-- What a search for the quoted key meets first: its field, or a value that captures it. -/
def firstHit (key : List Char) : List (List Char × List Char) → Option (List Char)
  | [] => none
  | field :: rest =>
    if field.1 = key then some field.2
    else if Captures field.2 key then none
    else firstHit key rest

theorem firstHit_own (key value : List Char) (rest : List (List Char × List Char)) :
    firstHit key ((key, value) :: rest) = some value := if_pos rfl

theorem firstHit_unnamed {key : List Char} {fields : List (List Char × List Char)}
    (unnamed : ∀ f ∈ fields, f.1 ≠ key) : firstHit key fields = none := by
  induction fields with
  | nil => rfl
  | cons field rest ih =>
    have later := ih fun f hf => unnamed f (List.mem_cons_of_mem _ hf)
    simp only [firstHit, if_neg (unnamed field List.mem_cons_self), later, ite_self]

theorem firstHit_append {key : List Char} {fields : List (List Char × List Char)}
    (unnamed : ∀ f ∈ fields, f.1 ≠ key) (rest : List (List Char × List Char)) :
    firstHit key (fields ++ rest) =
      if ∃ f ∈ fields, Captures f.2 key then none else firstHit key rest := by
  induction fields with
  | nil => simp
  | cons field fields ih =>
    have later := ih fun f hf => unnamed f (List.mem_cons_of_mem _ hf)
    simp only [List.cons_append, firstHit, if_neg (unnamed field List.mem_cons_self), later]
    by_cases captured : Captures field.2 key
    · rw [if_pos captured, if_pos ⟨field, List.mem_cons_self, captured⟩]
    · simp only [List.exists_mem_cons_iff, captured, false_or, if_false]

theorem FieldName.not_prefix {w : ShortEscapes} {key : List Char} (name : FieldName w key)
    {c : Char} (punct : c = ':' ∨ c = ',' ∨ c = '}') (rest : List Char) :
    ¬ key ++ ['"'] <+: c :: rest := by
  cases key with
  | nil => exact absurd rfl name.nonempty
  | cons k key =>
    intro starts
    have same := (List.cons_prefix_cons.mp starts).1
    have apart := name.punctuation k List.mem_cons_self
    rw [same] at apart
    rcases punct with h | h | h
    · exact apart.1 h
    · exact apart.2.1 h
    · exact apart.2.2 h

theorem FieldName.captures_iff {w : ShortEscapes} {name : List Char} (field : FieldName w name)
    (key : List Char) : Captures name key ↔ name = key := by
  constructor
  · rintro (same | ends)
    · exact same
    · have quote : '"' ∈ name := ends.subset List.mem_cons_self
      exact absurd rfl (field.plain '"' quote).2.1
  · exact Or.inl

theorem closing_head (w : ShortEscapes) (fields : List (List Char × List Char)) :
    ∃ c rest, w.closing fields = c :: rest ∧ (c = ',' ∨ c = '}') := by
  cases fields with
  | nil => exact ⟨'}', [], rfl, Or.inr rfl⟩
  | cons field rest => exact ⟨',', _, rfl, Or.inl rfl⟩

theorem closing_last (w : ShortEscapes) (fields : List (List Char × List Char)) :
    ∃ text, w.closing fields = text ++ ['}'] := by
  induction fields with
  | nil => exact ⟨[], rfl⟩
  | cons field rest ih =>
    obtain ⟨text, closed⟩ := ih
    exact ⟨',' :: w.member field ++ text, by simp [closing, closed]⟩

theorem afterFirst_member {w : ShortEscapes} {key : List Char} (name : FieldName w key)
    {field : List Char × List Char} (named : FieldName w field.1)
    (fields : List (List Char × List Char)) :
    afterFirst (needle key) (w.member field ++ w.closing fields) =
      if field.1 = key then some (':' :: (w.quoted field.2 ++ w.closing fields))
      else if Captures field.2 key then some (w.closing fields)
      else afterFirst (needle key) (w.closing fields) := by
  obtain ⟨c, rest, closed, punct⟩ := w.closing_head fields
  have split : w.member field ++ w.closing fields =
      w.quoted field.1 ++ (':' :: (w.quoted field.2 ++ w.closing fields)) := by
    simp [member]
  rw [split, afterFirst_quoted name.plain _ (name.not_prefix (Or.inl rfl) _)]
  simp only [named.captures_iff]
  have colon : '"' ∉ [':'] := by decide
  have skipped := afterFirst_skip colon (key ++ ['"']) (w.quoted field.2 ++ w.closing fields)
  have value : afterFirst (needle key) (w.quoted field.2 ++ w.closing fields) =
      if Captures field.2 key then some (w.closing fields)
      else afterFirst (needle key) (w.closing fields) := by
    apply afterFirst_quoted name.plain
    rw [closed]
    exact name.not_prefix (Or.inr punct) rest
  rw [List.singleton_append] at skipped
  rw [needle] at value ⊢
  rw [skipped, value]

end ShortEscapes

end JsonString
