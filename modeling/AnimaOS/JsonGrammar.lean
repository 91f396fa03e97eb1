import AnimaOS.JsonString
import AnimaOS.Numerals

/-!
# JSON texts

The grammar of JSON as a relation between values and the texts that spell them. A
number is kept as its text; a string is the sequence of its characters.
-/

namespace JsonGrammar

open JsonString Numerals

universe u

inductive Json where
  | null
  | bool (b : Bool)
  | number (text : List Char)
  | string (s : List Char)
  | array (items : List Json)
  | object (members : List (List Char × Json))

def isSpace (c : Char) : Bool := c = ' ' || c = '\t' || c = '\n' || c = '\r'

def Blank (text : List Char) : Prop := ∀ c ∈ text, isSpace c = true

/-! ## Strings -/

def hexCode (a b c d : Char) : Option Nat := do
  let a ← toDigit 16 a
  let b ← toDigit 16 b
  let c ← toDigit 16 c
  let d ← toDigit 16 d
  some (((a * 16 + b) * 16 + c) * 16 + d)

def isHigh (n : Nat) : Bool := 0xd800 ≤ n ∧ n < 0xdc00

def isLow (n : Nat) : Bool := 0xdc00 ≤ n ∧ n < 0xe000

/-- The character two surrogates stand for. -/
def paired (high low : Nat) : Char :=
  Char.ofNat (0x10000 + (high - 0xd800) * 0x400 + (low - 0xdc00))

/-- The characters of a string and a text for them, without the quotes. -/
inductive StringText : List Char → List Char → Prop where
  | nil : StringText [] []
  | plain {c : Char} {s t : List Char} (printable : 0x20 ≤ c.toNat) (quote : c ≠ '"')
      (backslash : c ≠ '\\') (rest : StringText s t) : StringText (c :: s) (c :: t)
  | short {c e : Char} {s t : List Char} (names : unescape e = some c) (rest : StringText s t) :
      StringText (c :: s) ('\\' :: e :: t)
  | code {a b c d : Char} {n : Nat} {s t : List Char} (digits : hexCode a b c d = some n)
      (scalar : n.isValidChar) (rest : StringText s t) :
      StringText (Char.ofNat n :: s) ('\\' :: 'u' :: a :: b :: c :: d :: t)
  | pair {a b c d a' b' c' d' : Char} {n m : Nat} {s t : List Char}
      (first : hexCode a b c d = some n) (second : hexCode a' b' c' d' = some m)
      (high : isHigh n = true) (low : isLow m = true) (rest : StringText s t) :
      StringText (paired n m :: s)
        ('\\' :: 'u' :: a :: b :: c :: d :: '\\' :: 'u' :: a' :: b' :: c' :: d' :: t)

/-! ## Numbers -/

def Digits (text : List Char) : Prop := text ≠ [] ∧ ∀ c ∈ text, isDigit 10 c = true

inductive Whole : List Char → Prop where
  | zero : Whole ['0']
  | digits {d : Char} {ds : List Char} (lead : d ≠ '0') (digits : Digits (d :: ds)) :
      Whole (d :: ds)

inductive Fraction : List Char → Prop where
  | none : Fraction []
  | point {ds : List Char} (digits : Digits ds) : Fraction ('.' :: ds)

inductive Exponent : List Char → Prop where
  | none : Exponent []
  | some {e : Char} {sign ds : List Char} (letter : e = 'e' ∨ e = 'E')
      (signed : sign = [] ∨ sign = ['+'] ∨ sign = ['-']) (digits : Digits ds) :
      Exponent (e :: (sign ++ ds))

inductive NumberText : List Char → Prop where
  | mk {sign whole fraction exponent : List Char} (signed : sign = [] ∨ sign = ['-'])
      (isWhole : Whole whole) (isFraction : Fraction fraction) (isExponent : Exponent exponent) :
      NumberText (sign ++ (whole ++ (fraction ++ exponent)))

/-! ## Values -/

/-- An item of a list, with its text and the white space around it. -/
structure Piece (α : Type u) where
  before : List Char
  text : List Char
  after : List Char
  item : α

namespace Piece

variable {α : Type u}

def whole (p : Piece α) : List Char := p.before ++ (p.text ++ p.after)

structure Spaced (p : Piece α) : Prop where
  before : Blank p.before
  after : Blank p.after

end Piece

/-- The texts of the pieces with commas between them. -/
def listed {α : Type u} : List (Piece α) → List Char
  | [] => []
  | [p] => p.whole
  | p :: rest => p.whole ++ ',' :: listed rest

/-- A name and a value, with the text of each and the white space around them. -/
structure Member where
  before : List Char
  name : List Char
  nameText : List Char
  beforeColon : List Char
  afterColon : List Char
  valueText : List Char
  after : List Char
  value : Json

namespace Member

def piece (m : Member) : Piece (List Char × Json) where
  before := m.before
  text := '"' :: (m.nameText ++ '"' :: (m.beforeColon ++ ':' :: (m.afterColon ++ m.valueText)))
  after := m.after
  item := (m.name, m.value)

structure WellFormed (m : Member) : Prop where
  spaced : m.piece.Spaced
  named : StringText m.name m.nameText
  beforeColon : Blank m.beforeColon
  afterColon : Blank m.afterColon

end Member

inductive Spells : Json → List Char → Prop where
  | null : Spells .null "null".toList
  | true : Spells (.bool true) "true".toList
  | false : Spells (.bool false) "false".toList
  | number {t : List Char} (isNumber : NumberText t) : Spells (.number t) t
  | string {s t : List Char} (isString : StringText s t) : Spells (.string s) ('"' :: (t ++ ['"']))
  | emptyArray {w : List Char} (blank : Blank w) : Spells (.array []) ('[' :: (w ++ [']']))
  | array {ps : List (Piece Json)} (some : ps ≠ []) (spaced : ∀ p ∈ ps, p.Spaced)
      (items : ∀ p ∈ ps, Spells p.item p.text) :
      Spells (.array (ps.map Piece.item)) ('[' :: (listed ps ++ [']']))
  | emptyObject {w : List Char} (blank : Blank w) : Spells (.object []) ('{' :: (w ++ ['}']))
  | object {ms : List Member} (some : ms ≠ []) (formed : ∀ m ∈ ms, m.WellFormed)
      (values : ∀ m ∈ ms, Spells m.value m.valueText) :
      Spells (.object (ms.map fun m => (m.name, m.value)))
        ('{' :: (listed (ms.map Member.piece) ++ ['}']))

/-- A text with white space around its one value. -/
def JsonText (v : Json) (text : List Char) : Prop :=
  ∃ before t after, text = before ++ (t ++ after) ∧ Blank before ∧ Blank after ∧ Spells v t

end JsonGrammar
