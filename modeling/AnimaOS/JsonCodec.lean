import AnimaOS.OperatorEvents

/-!
# The string codec of the console protocol

What `write_json_str` writes for a key's value is what the field scanner of the
input side reads back, whatever follows it.
-/

namespace OperatorEvents

open JsonString OperatorLine TextSplit

def consoleLetter : Char → Option Char
  | '"' => some '"'
  | '\\' => some '\\'
  | '\n' => some 'n'
  | '\r' => some 'r'
  | '\t' => some 't'
  | _ => none

/-- The writer's choice of short escapes. -/
def console : ShortEscapes where
  letter := consoleLetter
  quote := rfl
  backslash := rfl
  standard := by
    intro c e h
    simp only [consoleLetter] at h
    split at h
    all_goals cases h
    all_goals rfl

theorem hex4_control : ∀ n, n < 32 → hex4 n = ['0', '0', hexDigit (n / 16), hexDigit (n % 16)] := by
  decide

/-- A character is written by a short escape, by its code, or as it is. -/
inductive Written (c : Char) : List Char → Prop where
  | short {e : Char} (letter : consoleLetter c = some e) (printable : 0x20 ≤ e.toNat) :
      Written c ['\\', e]
  | code (letter : consoleLetter c = none) (control : c.toNat < 0x20) :
      Written c ('\\' :: 'u' :: hex4 c.toNat)
  | plain (letter : consoleLetter c = none) (printable : 0x20 ≤ c.toNat) : Written c [c]

theorem consoleLetter_none {c : Char} (quote : c ≠ '"') (backslash : c ≠ '\\')
    (newline : c ≠ '\n') (ret : c ≠ '\r') (tab : c ≠ '\t') : consoleLetter c = none := by
  simp only [consoleLetter]

theorem writeChar_written (c : Char) : Written c (writeChar c) := by
  simp only [writeChar]
  split
  case _ => exact .short rfl (by decide)
  case _ => exact .short rfl (by decide)
  case _ => exact .short rfl (by decide)
  case _ => exact .short rfl (by decide)
  case _ => exact .short rfl (by decide)
  case _ quote backslash newline ret tab =>
    have letter := consoleLetter_none quote backslash newline ret tab
    split
    · rename_i control
      exact .code letter control
    · rename_i printable
      exact .plain letter (Nat.not_lt.mp printable)

theorem consoleLetter_plain {c : Char} (letter : consoleLetter c = none) : c ≠ '"' ∧ c ≠ '\\' := by
  constructor
  · rintro rfl
    cases letter
  · rintro rfl
    cases letter

theorem writeChar_eq (c : Char) : writeChar c = console.escapeChar c := by
  have letters : console.letter c = consoleLetter c := rfl
  have written := writeChar_written c
  simp only [ShortEscapes.escapeChar, letters]
  generalize writeChar c = text at written
  cases written with
  | short letter printable => simp only [letter]
  | code letter control =>
    simp only [letter, if_pos control, hex4_control c.toNat control]
  | plain letter printable => simp only [letter, if_neg (Nat.not_lt.mpr printable)]

theorem writeJsonStr_eq (value : List Char) : writeJsonStr value = console.quoted value := by
  simp only [writeJsonStr, ShortEscapes.quoted, ShortEscapes.escape]
  congr 2
  exact List.flatMap_congr fun c _ => writeChar_eq c

/-! ## What is written -/

/-- Reading escapes as pairs, a quote stands by itself. -/
def UnescapedQuote : List Char → Prop
  | '\\' :: _ :: rest => UnescapedQuote rest
  | '"' :: _ => True
  | _ :: rest => UnescapedQuote rest
  | [] => False

theorem hexDigit_plain : ∀ n, n < 16 →
    hexDigit n ≠ '"' ∧ hexDigit n ≠ '\\' ∧ 0x20 ≤ (hexDigit n).toNat := by
  decide

theorem unescapedQuote_plain {c : Char} (quote : c ≠ '"') (backslash : c ≠ '\\')
    (rest : List Char) : UnescapedQuote (c :: rest) ↔ UnescapedQuote rest := by
  simp [UnescapedQuote, backslash]

theorem unescapedQuote_writeChar (c : Char) (rest : List Char) :
    UnescapedQuote (writeChar c ++ rest) ↔ UnescapedQuote rest := by
  have written := writeChar_written c
  generalize writeChar c = text at written
  cases written with
  | short letter printable => exact Iff.rfl
  | code letter control =>
    obtain ⟨highQuote, highSlash, -⟩ := hexDigit_plain (c.toNat / 16) (by omega)
    obtain ⟨lowQuote, lowSlash, -⟩ := hexDigit_plain (c.toNat % 16) (by omega)
    rw [hex4_control c.toNat control]
    simp only [List.cons_append, List.nil_append, UnescapedQuote]
    rw [unescapedQuote_plain (by decide) (by decide), unescapedQuote_plain (by decide) (by decide),
      unescapedQuote_plain highQuote highSlash, unescapedQuote_plain lowQuote lowSlash]
  | plain letter printable =>
    obtain ⟨quote, backslash⟩ := consoleLetter_plain letter
    exact unescapedQuote_plain quote backslash rest

theorem body_no_quote (value : List Char) : ¬ UnescapedQuote (value.flatMap writeChar) := by
  induction value with
  | nil => exact id
  | cons c rest ih =>
    rw [List.flatMap_cons, unescapedQuote_writeChar]
    exact ih

theorem writeChar_printable {c d : Char} (h : d ∈ writeChar c) : 0x20 ≤ d.toNat := by
  have written := writeChar_written c
  generalize writeChar c = text at written h
  cases written with
  | short letter printable =>
    simp only [List.mem_cons, List.not_mem_nil, or_false] at h
    rcases h with rfl | rfl
    · decide
    · exact printable
  | code letter control =>
    have high := (hexDigit_plain (c.toNat / 16) (by omega)).2.2
    have low := (hexDigit_plain (c.toNat % 16) (by omega)).2.2
    rw [hex4_control c.toNat control] at h
    simp only [List.mem_cons, List.not_mem_nil, or_false] at h
    rcases h with rfl | rfl | rfl | rfl | rfl | rfl
    · decide
    · decide
    · decide
    · decide
    · exact high
    · exact low
  | plain letter printable =>
    rw [List.mem_singleton.mp h]
    exact printable

theorem writeJsonStr_printable {value : List Char} {d : Char} (h : d ∈ writeJsonStr value) :
    0x20 ≤ d.toNat := by
  simp only [writeJsonStr, List.cons_append, List.mem_cons, List.mem_append, List.mem_flatMap,
    List.not_mem_nil, or_false] at h
  rcases h with rfl | ⟨c, -, written⟩ | rfl
  · decide
  · exact writeChar_printable written
  · decide

/-! ## Reading it back -/

theorem readValue_gapped {gap gap' : List Char} (blank : ∀ c ∈ gap, isWhitespace c = true)
    (blank' : ∀ c ∈ gap', isWhitespace c = true) (value suffix : List Char) :
    readValue (gap ++ ':' :: (gap' ++ (writeJsonStr value ++ suffix))) = some value := by
  have opened : writeJsonStr value ++ suffix =
      '"' :: (console.escape value ++ '"' :: suffix) := by
    simp [writeJsonStr_eq, ShortEscapes.quoted]
  have colon : isWhitespace ':' = false := rfl
  have quote : isWhitespace '"' = false := rfl
  simp only [readValue, opened, trimStartWhitespace_append blank, trimStartWhitespace_append blank',
    trimStartWhitespace_cons colon, trimStartWhitespace_cons quote, stripPrefix_head,
    Option.bind_eq_bind, Option.bind_some, decodeBody_escape]

/-- A string written as the value of a key is read back, provided that no earlier place of
the line holds the quoted key; what is written stays on the line and inside its quotes. -/
theorem json_string_round_trip (key before gap gap' value suffix : List Char)
    (blank : ∀ c ∈ gap, isWhitespace c = true) (blank' : ∀ c ∈ gap', isWhitespace c = true)
    (own : ∀ earlier later,
      before ++ ShortEscapes.needle key ++
          (gap ++ ':' :: (gap' ++ (writeJsonStr value ++ suffix))) =
        earlier ++ ShortEscapes.needle key ++ later → before.length ≤ earlier.length) :
    extractJsonString (before ++ ShortEscapes.needle key ++
        (gap ++ ':' :: (gap' ++ (writeJsonStr value ++ suffix)))) key = some value ∧
      (∀ c ∈ writeJsonStr value, 0x20 ≤ c.toNat) ∧ '\n' ∉ writeJsonStr value ∧
      ∃ body, writeJsonStr value = '"' :: body ++ ['"'] ∧ ¬ UnescapedQuote body := by
  refine ⟨?_, fun c => writeJsonStr_printable, ?_, _, rfl, body_no_quote value⟩
  · have found := afterFirst_own own
    simp only [ShortEscapes.needle] at found
    simp only [extractJsonString, ShortEscapes.needle, found, Option.bind_eq_bind, Option.bind_some]
    exact readValue_gapped blank blank' value suffix
  · intro newline
    exact absurd (writeJsonStr_printable newline) (by decide)

/-- Quotes, a backslash and a control character come back from the middle of an object. -/
theorem json_string_round_trip_text :
    extractJsonString ("\x7b".toList ++ ShortEscapes.needle "text".toList ++
        ([] ++ ':' :: ([] ++ (writeJsonStr "a\"\\\x01".toList ++ ",\"text\":1\x7d".toList))))
      "text".toList = some "a\"\\\x01".toList :=
  (json_string_round_trip "text".toList "\x7b".toList [] [] "a\"\\\x01".toList
    ",\"text\":1\x7d".toList (by simp) (by simp) (by
      intro earlier later same
      cases earlier with
      | nil => exact absurd (List.cons.inj same).1 (by decide)
      | cons c earlier => exact Nat.succ_le_succ (Nat.zero_le _))).1

end OperatorEvents
