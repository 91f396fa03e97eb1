import Mathlib

/-!
# Packing of quantised codes

Codes of one, two or four bits are packed into bytes, the first into the lowest
bits. Bytes are compared bit by bit: a bit of the packed bytes is a bit of the code
it falls into.
-/

namespace CodePacking

abbrev Byte := BitVec 8

inductive BitDepth where
  | one
  | onePointFive
  | two
  | four
  deriving DecidableEq, Repr

def BitDepth.nLevels : BitDepth → Nat
  | .one => 2
  | .onePointFive => 3
  | .two => 4
  | .four => 16

/-- Ternary codes are stored in two bits. -/
def BitDepth.bitsPerCode : BitDepth → Nat
  | .one => 1
  | .onePointFive => 2
  | .two => 2
  | .four => 4

/-- `((1u16 << bits) - 1) as u8`. -/
def maskOf (bitsPerCode : Nat) : Byte := ((1#16 <<< bitsPerCode) - 1).setWidth 8

def packCode (bitsPerCode : Nat) (packed : List Byte) (code : Byte × Nat) : List Byte :=
  let codesPerByte := 8 / bitsPerCode
  let byteIdx := code.2 / codesPerByte
  let bitOffset := (code.2 % codesPerByte) * bitsPerCode
  packed.modify byteIdx fun byte => byte ||| ((code.1 &&& maskOf bitsPerCode) <<< bitOffset)

def packCodes (codes : List Byte) (bitsPerCode : Nat) : List Byte :=
  let codesPerByte := 8 / bitsPerCode
  let nBytes := (codes.length + codesPerByte - 1) / codesPerByte
  codes.zipIdx.foldl (packCode bitsPerCode) (List.replicate nBytes 0)

def unpackCode (packed : List Byte) (bitsPerCode i : Nat) : Byte :=
  let codesPerByte := 8 / bitsPerCode
  let byteIdx := i / codesPerByte
  let bitOffset := (i % codesPerByte) * bitsPerCode
  (packed[byteIdx]?.getD 0 >>> bitOffset) &&& maskOf bitsPerCode

def unpackCodes (packed : List Byte) (nCodes bitsPerCode : Nat) : List Byte :=
  (List.range nCodes).map (unpackCode packed bitsPerCode)

/-- A bit of the bytes, counted from the lowest of the first. -/
def streamBit (packed : List Byte) (q : Nat) : Bool := (packed[q / 8]?.getD 0).getLsbD (q % 8)

/-! ## The widths -/

/-- A width that divides a byte. -/
structure Width (w : Nat) : Prop where
  pos : 0 < w
  divides : 8 / w * w = 8
  mask : ∀ p < 8, (maskOf w).getLsbD p = decide (p < w)

theorem BitDepth.width (depth : BitDepth) : Width depth.bitsPerCode := by
  cases depth <;> exact ⟨by decide, by decide, by decide⟩

variable {w : Nat}

theorem Width.le_eight (width : Width w) : w ≤ 8 := by
  have divides := width.divides
  by_contra above
  rw [Nat.div_eq_of_lt (by omega)] at divides
  omega

theorem Width.perByte_pos (width : Width w) : 0 < 8 / w := Nat.div_pos width.le_eight width.pos

/-- Where the bit of a code lies. -/
theorem Width.split (width : Width w) (i t : Nat) (inside : t < w) :
    (i * w + t) / 8 = i / (8 / w) ∧ (i * w + t) % 8 = i % (8 / w) * w + t := by
  have divides := width.divides
  have whole := Nat.div_add_mod i (8 / w)
  have below := Nat.mod_lt i width.perByte_pos
  have position : i * w + t = 8 * (i / (8 / w)) + (i % (8 / w) * w + t) := by
    calc i * w + t = (8 / w * (i / (8 / w)) + i % (8 / w)) * w + t := by rw [whole]
      _ = 8 / w * w * (i / (8 / w)) + (i % (8 / w) * w + t) := by ring
      _ = 8 * (i / (8 / w)) + (i % (8 / w) * w + t) := by rw [divides]
  have small : i % (8 / w) * w + t < 8 := by
    have step : (i % (8 / w) + 1) * w ≤ 8 / w * w := Nat.mul_le_mul_right w below
    rw [divides] at step
    linarith
  constructor <;> omega

/-- A bit of a code put at its offset. -/
theorem Width.shifted (width : Width w) (code : Byte) (j p : Nat) (small : p < 8) :
    ((code &&& maskOf w) <<< (j * w)).getLsbD p =
      (decide (p / w = j) && code.getLsbD (p % w)) := by
  have position := Nat.div_add_mod p w
  have below := Nat.mod_lt p width.pos
  rw [BitVec.getLsbD_shiftLeft, BitVec.getLsbD_and]
  by_cases before : p < j * w
  · have apart : p / w ≠ j := by
      intro same
      rw [← same, Nat.mul_comm] at before
      omega
    simp [before, apart]
  · have split : p - j * w < 8 := by omega
    rw [width.mask _ split]
    by_cases same : p / w = j
    · have offset : p - j * w = p % w := by
        rw [← same, Nat.mul_comm]
        omega
      simp [small, before, same, offset, below]
    · have later : ¬ p - j * w < w := by
        intro inside
        apply same
        have upper : p < (j + 1) * w := by
          rw [Nat.add_mul]
          omega
        exact Nat.div_eq_of_lt_le (by omega) upper
      simp [later, same]

/-! ## Bits of the packed bytes -/

/-- Byte and offset of a bit, and the code it falls into. -/
theorem Width.locate (width : Width w) (q : Nat) :
    q / 8 = q / w / (8 / w) ∧ q % 8 / w = q / w % (8 / w) ∧ q % 8 % w = q % w := by
  have product : w * (8 / w) = 8 := by
    rw [Nat.mul_comm]
    exact width.divides
  refine ⟨?_, ?_, Nat.mod_mod_of_dvd q ⟨8 / w, product.symm⟩⟩
  · rw [Nat.div_div_eq_div_mul, product]
  · have parts := Nat.mod_mul_right_div_self q w (8 / w)
    rwa [product] at parts

theorem packCode_bit (width : Width w) (packed : List Byte) (code : Byte) (i q : Nat)
    (room : q / 8 < packed.length) : streamBit (packCode w packed (code, i)) q =
      (streamBit packed q || (decide (q / w = i) && code.getLsbD (q % w))) := by
  obtain ⟨byte, place, bit⟩ := width.locate q
  have small : q % 8 < 8 := Nat.mod_lt q (by decide)
  simp only [streamBit, packCode, List.getElem?_modify, List.getElem?_eq_getElem room]
  by_cases here : i / (8 / w) = q / 8
  · have same : q / w = i ↔ q % 8 / w = i % (8 / w) := by
      rw [place]
      constructor
      · rintro rfl
        rfl
      · intro offset
        rw [← Nat.div_add_mod (q / w) (8 / w), ← Nat.div_add_mod i (8 / w), ← byte, offset, here]
    simp [here, BitVec.getLsbD_or, width.shifted code _ _ small, bit, same]
  · have apart : q / w ≠ i := by
      rintro rfl
      exact here byte.symm
    simp [here, apart]

theorem packCode_length (packed : List Byte) (code : Byte × Nat) :
    (packCode w packed code).length = packed.length := List.length_modify _ _ _

theorem foldl_length (codes : List (Byte × Nat)) (packed : List Byte) :
    (codes.foldl (packCode w) packed).length = packed.length := by
  induction codes generalizing packed with
  | nil => rfl
  | cons code rest ih => rw [List.foldl_cons, ih, packCode_length]

/-- The codes written from the index `k` on are or-ed into what was there. -/
theorem foldl_bit (width : Width w) (codes : List Byte) (k : Nat) (packed : List Byte) {q : Nat}
    (room : q / 8 < packed.length) :
    streamBit ((codes.zipIdx k).foldl (packCode w) packed) q =
      (streamBit packed q ||
        (decide (k ≤ q / w) && (codes[q / w - k]?.getD 0).getLsbD (q % w))) := by
  induction codes generalizing k packed with
  | nil => simp
  | cons code rest ih =>
    rw [List.zipIdx_cons, List.foldl_cons, ih (k + 1) _ (by rw [packCode_length]; exact room),
      packCode_bit width packed code k q room]
    rcases Nat.lt_trichotomy (q / w) k with before | same | after
    · have apart : q / w ≠ k := by omega
      simp [apart, Nat.not_le_of_lt before, Nat.not_le_of_lt (Nat.lt_succ_of_lt before)]
    · simp [same]
    · have apart : q / w ≠ k := by omega
      obtain ⟨offset, index⟩ := Nat.exists_eq_add_of_lt after
      have later : q / w - k = offset + 1 := by omega
      have next : q / w - (k + 1) = offset := by omega
      simp [apart, Nat.le_of_lt after, after, later, next]

theorem Width.product (width : Width w) : w * (8 / w) = 8 := by
  rw [Nat.mul_comm]
  exact width.divides

theorem packCodes_length (width : Width w) (codes : List Byte) :
    (packCodes codes w).length = (codes.length * w + 7) / 8 := by
  have product := width.product
  have eight := width.le_eight
  have rest : 7 / w = 8 / w - 1 := by
    have sum : 7 = w * (8 / w - 1) + (w - 1) := by
      rw [Nat.mul_sub, product, Nat.mul_one]
      have positive := width.pos
      omega
    have last : (w - 1) / w = 0 := Nat.div_eq_of_lt (Nat.sub_lt width.pos Nat.one_pos)
    rw [sum, Nat.mul_add_div width.pos, last, Nat.add_zero]
  have quotient : (codes.length * w + 7) / 8 = (codes.length + 8 / w - 1) / (8 / w) := by
    have positive := width.perByte_pos
    calc (codes.length * w + 7) / 8 = (w * codes.length + 7) / w / (8 / w) := by
          rw [Nat.div_div_eq_div_mul, product, Nat.mul_comm]
      _ = (codes.length + 8 / w - 1) / (8 / w) := by
          rw [Nat.mul_add_div width.pos, rest, Nat.add_sub_assoc positive]
  rw [packCodes, foldl_length, List.length_replicate, quotient]

/-- A bit of the packed bytes is the bit of the code it falls into, and none beyond the codes. -/
theorem packCodes_bit (width : Width w) (codes : List Byte) (q : Nat) :
    streamBit (packCodes codes w) q = (codes[q / w]?.getD 0).getLsbD (q % w) := by
  by_cases room : q / 8 < (packCodes codes w).length
  · have bytes : q / 8 < (List.replicate
        ((codes.length + 8 / w - 1) / (8 / w)) (0 : Byte)).length := by
      rwa [packCodes, foldl_length] at room
    have start : streamBit (List.replicate
        ((codes.length + 8 / w - 1) / (8 / w)) (0 : Byte)) q = false := by
      rw [List.length_replicate] at bytes
      simp [streamBit, bytes]
    rw [packCodes, foldl_bit width codes 0 _ bytes, start]
    simp
  · have beyond : codes.length ≤ q / w := by
      rw [packCodes_length width] at room
      have positive := width.pos
      rw [Nat.le_div_iff_mul_le positive]
      omega
    have absent : (packCodes codes w)[q / 8]? = none :=
      List.getElem?_eq_none (Nat.le_of_not_lt room)
    rw [streamBit, absent, List.getElem?_eq_none beyond]
    simp

theorem unpackCode_bit (width : Width w) (packed : List Byte) (i : Nat) {t : Nat} (small : t < 8) :
    (unpackCode packed w i).getLsbD t = (decide (t < w) && streamBit packed (i * w + t)) := by
  rw [unpackCode, BitVec.getLsbD_and, BitVec.getLsbD_ushiftRight, width.mask t small]
  by_cases inside : t < w
  · obtain ⟨byte, place⟩ := width.split i t inside
    simp [streamBit, inside, byte, place]
  · simp [inside]

/-- The codes are below `2 ^ w`. -/
def Coded (w : Nat) (codes : List Byte) : Prop := ∀ code ∈ codes, code.toNat < 2 ^ w

theorem unpackCode_packCodes (width : Width w) {codes : List Byte} (coded : Coded w codes) {i : Nat}
    (inside : i < codes.length) : unpackCode (packCodes codes w) w i = codes[i] := by
  refine BitVec.eq_of_getLsbD_eq fun t small => ?_
  rw [unpackCode_bit width _ i small, packCodes_bit width]
  by_cases low : t < w
  · have code : (i * w + t) / w = i := by
      rw [Nat.mul_comm, Nat.mul_add_div width.pos, Nat.div_eq_of_lt low, Nat.add_zero]
    have bit : (i * w + t) % w = t := by
      rw [Nat.mul_comm, Nat.mul_add_mod, Nat.mod_eq_of_lt low]
    simp [low, code, bit, inside]
  · have bound : codes[i].toNat < 2 ^ t :=
      (coded _ (List.getElem_mem inside)).trans_le
        (Nat.pow_le_pow_right (by decide) (Nat.le_of_not_lt low))
    have unset : codes[i].getLsbD t = false := Nat.testBit_lt_two_pow bound
    simp [low, unset]

/-- Packing loses no code, uses as many bytes as the bits need and leaves the rest zero. -/
theorem packing_round_trip (depth : BitDepth) (codes : List Byte)
    (coded : Coded depth.bitsPerCode codes) :
    unpackCodes (packCodes codes depth.bitsPerCode) codes.length depth.bitsPerCode = codes ∧
      (packCodes codes depth.bitsPerCode).length =
        (codes.length * depth.bitsPerCode + 7) / 8 ∧
      ∀ q, codes.length * depth.bitsPerCode ≤ q →
        streamBit (packCodes codes depth.bitsPerCode) q = false := by
  have width := depth.width
  refine ⟨?_, packCodes_length width codes, ?_⟩
  · refine List.ext_getElem (by simp [unpackCodes]) fun i _ inside => ?_
    simp only [unpackCodes, List.getElem_map, List.getElem_range]
    exact unpackCode_packCodes width coded inside
  · intro q beyond
    have outside : codes.length ≤ q / depth.bitsPerCode :=
      (Nat.le_div_iff_mul_le width.pos).mpr beyond
    rw [packCodes_bit width, List.getElem?_eq_none outside]
    simp

theorem ternary_round_trip :
    unpackCodes (packCodes [2, 0, 1, 1, 2] 2) 5 2 = [2, 0, 1, 1, 2] ∧
      packCodes [2, 0, 1, 1, 2] 2 = [0x52, 0x02] :=
  ⟨(packing_round_trip .onePointFive [2, 0, 1, 1, 2]
    (by unfold Coded; decide)).1, by decide⟩

end CodePacking
