import Mathlib
import AnimaOS.Numerals

/-!
# Form encoding of bytes

A kept byte is written as its character, a space as a plus and any other byte as
an escape of two hex digits. When the kept bytes are ASCII and neither the escape
sign nor the plus, what is written reads back.
-/

namespace FormEncoding

open Numerals

def hexDigit (n : Nat) : Char := Char.ofNat (if n < 10 then 48 + n else 55 + n)

def charOf (b : UInt8) : Char := Char.ofNat b.toNat

def escape (b : UInt8) : List Char := ['%', hexDigit (b.toNat / 16), hexDigit (b.toNat % 16)]

def encodeByte (kept : UInt8 → Bool) (b : UInt8) : List Char :=
  if kept b then [charOf b] else if b = 32 then ['+'] else escape b

def encode (kept : UInt8 → Bool) (bytes : List UInt8) : List Char :=
  bytes.flatMap (encodeByte kept)

def decode : List Char → Option (List UInt8)
  | [] => some []
  | c :: rest =>
    if c = '%' then
      match rest with
      | high :: low :: rest =>
        match toDigit 16 high, toDigit 16 low, decode rest with
        | some h, some l, some later => some (UInt8.ofNat (16 * h + l) :: later)
        | _, _, _ => none
      | _ => none
    else if c = '+' then (decode rest).map (32 :: ·)
    else (decode rest).map (UInt8.ofNat c.toNat :: ·)

/-- Kept bytes that a reader takes for themselves. -/
def Literal (kept : UInt8 → Bool) : Prop :=
  ∀ b, kept b = true → b.toNat < 128 ∧ b ≠ 37 ∧ b ≠ 43

theorem toDigit_hexDigit : ∀ n < 16, toDigit 16 (hexDigit n) = some n := by decide

theorem charOf_toNat {b : UInt8} (ascii : b.toNat < 128) : (charOf b).toNat = b.toNat := by
  have valid : b.toNat.isValidChar := .inl (by omega)
  simp [charOf, Char.ofNat, valid]

theorem charOf_ne {b c : UInt8} (ascii : b.toNat < 128) (other : b ≠ c) (small : c.toNat < 128) :
    charOf b ≠ charOf c := by
  intro same
  have equal := congrArg Char.toNat same
  rw [charOf_toNat ascii, charOf_toNat small] at equal
  exact other (UInt8.toNat_inj.mp equal)

variable {kept : UInt8 → Bool}

theorem decode_char {c : Char} (notPercent : c ≠ '%') (text : List Char) :
    decode (c :: text) =
      (decode text).map ((if c = '+' then 32 else UInt8.ofNat c.toNat) :: ·) := by
  rw [decode.eq_def]
  by_cases plus : c = '+'
  · simp [plus]
  · simp [notPercent, plus]

theorem decode_escape {high low : Char} {h l : Nat} (first : toDigit 16 high = some h)
    (second : toDigit 16 low = some l) (text : List Char) :
    decode ('%' :: high :: low :: text) =
      (decode text).map (UInt8.ofNat (16 * h + l) :: ·) := by
  rw [decode, if_pos rfl, first, second]
  cases decode text <;> rfl

theorem decode_encodeByte (literal : Literal kept) (b : UInt8) {text : List Char}
    {bytes : List UInt8} (rest : decode text = some bytes) :
    decode (encodeByte kept b ++ text) = some (b :: bytes) := by
  unfold encodeByte
  split
  · next keep =>
    obtain ⟨ascii, percent, plus⟩ := literal b keep
    have notPercent : charOf b ≠ '%' := charOf_ne ascii percent (by decide)
    have notPlus : charOf b ≠ '+' := charOf_ne ascii plus (by decide)
    have value : UInt8.ofNat (charOf b).toNat = b := by
      rw [charOf_toNat ascii, UInt8.ofNat_toNat]
    rw [List.singleton_append, decode_char notPercent, if_neg notPlus, rest, value, Option.map_some]
  split
  · next space =>
    rw [space, List.singleton_append, decode_char (by decide), rest, if_pos rfl, Option.map_some]
  · have small := b.toNat_lt
    have high := toDigit_hexDigit (b.toNat / 16) (by omega)
    have low := toDigit_hexDigit (b.toNat % 16) (by omega)
    have whole : 16 * (b.toNat / 16) + b.toNat % 16 = b.toNat := by omega
    simp only [escape, List.cons_append, List.nil_append]
    rw [decode_escape high low, rest, whole, UInt8.ofNat_toNat, Option.map_some]

theorem decode_encode (literal : Literal kept) (bytes : List UInt8) :
    decode (encode kept bytes) = some bytes := by
  induction bytes with
  | nil => rfl
  | cons b rest ih => exact decode_encodeByte literal b ih

theorem encode_injective (literal : Literal kept) {xs ys : List UInt8}
    (same : encode kept xs = encode kept ys) : xs = ys := by
  have read := decode_encode literal xs
  rw [same, decode_encode literal ys] at read
  exact (Option.some.inj read).symm

/-- A character that stands for no kept byte and is no part of an escape is not written. -/
theorem not_mem_encode {c : Char} (unkept : ∀ b, kept b = true → charOf b ≠ c) (plus : c ≠ '+')
    (percent : c ≠ '%') (digit : ∀ n < 16, hexDigit n ≠ c) (bytes : List UInt8) :
    c ∉ encode kept bytes := by
  intro written
  obtain ⟨b, -, inside⟩ := List.mem_flatMap.mp written
  unfold encodeByte at inside
  split at inside
  · next keep => exact unkept b keep (List.mem_singleton.mp inside).symm
  split at inside
  · exact plus (List.mem_singleton.mp inside)
  · have small := b.toNat_lt
    simp only [escape, List.mem_cons, List.not_mem_nil, or_false] at inside
    rcases inside with rfl | rfl | rfl
    · exact percent rfl
    · exact digit _ (by omega) rfl
    · exact digit _ (by omega) rfl

end FormEncoding
