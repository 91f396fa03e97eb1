import Mathlib.Data.List.Basic

/-!
# Texts and their bytes

A text in UTF-8. Reading the bytes of a text back gives it, and the bytes of a text
end in an ASCII character exactly when the text does.
-/

namespace Utf8Text

def bytes (text : String) : List UInt8 := text.toList.flatMap String.utf8EncodeChar

/-- The text of some bytes when they are UTF-8. -/
def decode (raw : List UInt8) : Option String := String.fromUTF8? raw.toByteArray

theorem bytes_toByteArray (text : String) : (bytes text).toByteArray = text.toByteArray := by
  rw [← String.utf8Encode_toList]
  rfl

theorem decode_bytes (text : String) : decode (bytes text) = some text := by
  have valid : (bytes text).toByteArray.IsValidUTF8 := by
    rw [bytes_toByteArray]
    exact text.isValidUTF8
  rw [decode, String.fromUTF8?, dif_pos valid, Option.some_inj, ← String.toByteArray_inj]
  exact bytes_toByteArray text

theorem bytes_of_decode {raw : List UInt8} {text : String} (read : decode raw = some text) :
    bytes text = raw := by
  by_cases valid : raw.toByteArray.IsValidUTF8
  · rw [decode, String.fromUTF8?, dif_pos valid, Option.some_inj] at read
    have same : (bytes text).toByteArray = raw.toByteArray := by
      rw [bytes_toByteArray, ← read]
      rfl
    exact List.toByteArray_inj.mp same
  · rw [decode, String.fromUTF8?, dif_neg valid] at read
    cases read

@[simp]
theorem bytes_ofList (chars : List Char) :
    bytes (String.ofList chars) = chars.flatMap String.utf8EncodeChar := by
  rw [bytes, String.toList_ofList]

/-! ## ASCII -/

theorem encode_ascii {c : Char} (ascii : c.toNat < 0x80) :
    String.utf8EncodeChar c = [UInt8.ofNat c.toNat] :=
  if_pos (Nat.le_of_lt_succ ascii)

theorem encode_beyond {c : Char} (beyond : 0x80 ≤ c.toNat) {b : UInt8}
    (listed : b ∈ String.utf8EncodeChar c) : 0x80 ≤ b.toNat := by
  have large : ¬ c.val.toNat ≤ 0x7f := Nat.not_le.mpr beyond
  simp only [String.utf8EncodeChar, if_neg large] at listed
  split at listed
  · rcases List.mem_pair.mp listed with rfl | rfl <;> simp <;> omega
  · split at listed
    · simp at listed
      rcases listed with rfl | rfl | rfl <;> simp <;> omega
    · simp at listed
      rcases listed with rfl | rfl | rfl | rfl <;> simp <;> omega

theorem ascii_inj {c d : Char} (first : c.toNat < 0x80) (second : d.toNat < 0x80)
    (same : UInt8.ofNat c.toNat = UInt8.ofNat d.toNat) : c = d := by
  have values := congrArg UInt8.toNat same
  simp at values
  apply Char.toNat_inj.mp
  omega

/-- The last byte of a character is an ASCII one when the character is. -/
theorem getLast_encode {c : Char} (ascii : c.toNat < 0x80) (d : Char) :
    (String.utf8EncodeChar d).getLast? = some (UInt8.ofNat c.toNat) ↔ d = c := by
  by_cases plain : d.toNat < 0x80
  · rw [encode_ascii plain, List.getLast?_singleton, Option.some_inj]
    exact ⟨ascii_inj plain ascii, fun same => by rw [same]⟩
  · constructor
    · intro last
      have high := encode_beyond (Nat.not_lt.mp plain) (List.mem_of_getLast? last)
      simp at high
      omega
    · rintro rfl
      exact absurd ascii plain

theorem getLast_bytes {c : Char} (ascii : c.toNat < 0x80) (text : String) :
    (bytes text).getLast? = some (UInt8.ofNat c.toNat) ↔ text.toList.getLast? = some c := by
  rcases List.eq_nil_or_concat text.toList with bare | ⟨front, d, split⟩
  · simp [bytes, bare]
  · have encoded : bytes text =
        front.flatMap String.utf8EncodeChar ++ String.utf8EncodeChar d := by
      simp [bytes, split]
    rw [encoded, List.getLast?_append_of_ne_nil _ String.utf8EncodeChar_ne_nil,
      getLast_encode ascii, split]
    simp

end Utf8Text
