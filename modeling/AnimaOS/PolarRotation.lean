import AnimaOS.SylvesterMatrix
import Mathlib

/-!
# The PolarQuant rotation

The fast Walsh-Hadamard transform in place, over any commutative ring, and the
rotation built from it over a field with square roots. Reads and writes outside a
vector fail, so a transform that ends has stayed inside.
-/

namespace PolarQuant

open SylvesterMatrix

universe u v

section Transform

variable {R : Type u}

def writeAt (v : List R) (i : Nat) (x : R) : Option (List R) :=
  if i < v.length then some (v.set i x) else none

/-! ## Vectors as functions -/

structure Holds (n : Nat) (v : List R) (f : Nat → R) : Prop where
  length : v.length = n
  entries : ∀ t < n, v[t]? = some (f t)

theorem Holds.congr {n : Nat} {v : List R} {f g : Nat → R} (holds : Holds n v f)
    (same : ∀ t < n, f t = g t) : Holds n v g where
  length := holds.length
  entries t inside := by rw [holds.entries t inside, same t inside]

theorem Holds.unique {n : Nat} {v w : List R} {f : Nat → R} (first : Holds n v f)
    (second : Holds n w f) : v = w := by
  apply List.ext_getElem?
  intro t
  by_cases inside : t < n
  · rw [first.entries t inside, second.entries t inside]
  · rw [List.getElem?_eq_none (by rw [first.length]; omega),
      List.getElem?_eq_none (by rw [second.length]; omega)]

theorem Holds.map {n : Nat} {v : List R} {f : Nat → R} (holds : Holds n v f) (g : R → R) :
    Holds n (v.map g) fun t => g (f t) where
  length := by rw [List.length_map, holds.length]
  entries t inside := by rw [List.getElem?_map, holds.entries t inside]; rfl

theorem Holds.write {n : Nat} {v : List R} {f : Nat → R} (holds : Holds n v f) {i : Nat}
    (inside : i < n) (x : R) :
    ∃ w, writeAt v i x = some w ∧ Holds n w (Function.update f i x) := by
  have room : i < v.length := by rw [holds.length]; exact inside
  refine ⟨v.set i x, if_pos room, by rw [List.length_set, holds.length], ?_⟩
  intro t within
  by_cases here : t = i
  · simp [here, room]
  · rw [List.getElem?_set_ne (Ne.symm here), holds.entries t within, Function.update_of_ne here]

/-! ## The transform in place -/

variable [CommRing R]

/-- The body of the innermost loop. -/
def butterfly (i step : Nat) (v : List R) (j : Nat) : Option (List R) := do
  let a ← v[i + j]?
  let b ← v[i + j + step]?
  let v ← writeAt v (i + j) (a + b)
  writeAt v (i + j + step) (a - b)

/-- The loop over the blocks of one stage. -/
def blocksFrom (step : Nat) (positive : 0 < step) (n i : Nat) (v : List R) : Option (List R) :=
  if i < n then do
    let v ← (List.range step).foldlM (butterfly i step) v
    blocksFrom step positive n (i + 2 * step) v
  else some v
termination_by n - i

/-- The loop over the stages, with a step that doubles. -/
def stagesFrom (n step : Nat) (positive : 0 < step) (v : List R) : Option (List R) :=
  if step < n then do
    let v ← blocksFrom step positive n 0 v
    stagesFrom n (2 * step) (by omega) v
  else some v
termination_by n - step

def butterflies (v : List R) : Option (List R) := stagesFrom v.length 1 Nat.one_pos v

/-! ## One stage -/

theorem holds_getD (v : List R) : Holds v.length v fun t => v[t]?.getD 0 where
  length := rfl
  entries t inside := by simp [inside]

/-- The vector after the first `m` butterflies of the block at `i`. -/
def partly (i step m : Nat) (f : Nat → R) (t : Nat) : R :=
  if i ≤ t ∧ t < i + m then f t + f (t + step)
  else if i + step ≤ t ∧ t < i + step + m then f (t - step) - f t
  else f t

theorem butterfly_holds {n i step m : Nat} {v : List R} {f : Nat → R} (room : i + 2 * step ≤ n)
    (inside : m < step) (holds : Holds n v (partly i step m f)) :
    ∃ w, butterfly i step v m = some w ∧ Holds n w (partly i step (m + 1) f) := by
  have first : v[i + m]? = some (f (i + m)) := by
    rw [holds.entries _ (by omega), partly, if_neg (by omega), if_neg (by omega)]
  have second : v[i + m + step]? = some (f (i + m + step)) := by
    rw [holds.entries _ (by omega), partly, if_neg (by omega), if_neg (by omega)]
  obtain ⟨w, written, half⟩ := holds.write (i := i + m) (by omega) (f (i + m) + f (i + m + step))
  obtain ⟨w', written', whole⟩ :=
    half.write (i := i + m + step) (by omega) (f (i + m) - f (i + m + step))
  refine ⟨w', by simp [butterfly, first, second, written, written'], whole.congr ?_⟩
  intro t _
  by_cases low : t = i + m
  · have apart : i + m ≠ i + m + step := by omega
    rw [low, Function.update_of_ne apart, Function.update_self, partly, if_pos (by omega)]
  · by_cases high : t = i + m + step
    · have back : i + m + step - step = i + m := by omega
      rw [high, Function.update_self, partly, if_neg (by omega), if_pos (by omega), back]
    · rw [Function.update_of_ne high, Function.update_of_ne low, partly, partly]
      split_ifs <;> first | rfl | omega

theorem block_holds {n i step : Nat} {v : List R} {f : Nat → R} (room : i + 2 * step ≤ n)
    (holds : Holds n v f) {m : Nat} (within : m ≤ step) :
    ∃ w, (List.range m).foldlM (butterfly i step) v = some w ∧ Holds n w (partly i step m f) := by
  induction m with
  | zero =>
    refine ⟨v, rfl, holds.congr fun t _ => ?_⟩
    rw [partly, if_neg (by omega), if_neg (by omega)]
  | succ m ih =>
    obtain ⟨w, before, partial_⟩ := ih (by omega)
    obtain ⟨w', last, next⟩ := butterfly_holds room within partial_
    refine ⟨w', ?_, next⟩
    rw [List.range_succ, List.foldlM_append, before]
    simp [last]

/-- What one stage makes of an entry. -/
def stage (s : Nat) (f : Nat → R) (t : Nat) : R :=
  if t.testBit s then f (t - 2 ^ s) - f t else f t + f (t + 2 ^ s)

theorem testBit_lower {s q t : Nat} (above : 2 * 2 ^ s * q ≤ t)
    (below : t < 2 * 2 ^ s * q + 2 ^ s) :
    t.testBit s = false := by
  have quotient : t / 2 ^ s = 2 * q := by
    apply Nat.div_eq_of_lt_le <;> nlinarith
  rw [Nat.testBit_eq_decide_div_mod_eq, quotient]
  simp

theorem testBit_upper {s q t : Nat} (above : 2 * 2 ^ s * q + 2 ^ s ≤ t)
    (below : t < 2 * 2 ^ s * q + 2 * 2 ^ s) : t.testBit s = true := by
  have quotient : t / 2 ^ s = 2 * q + 1 := by
    apply Nat.div_eq_of_lt_le <;> nlinarith
  rw [Nat.testBit_eq_decide_div_mod_eq, quotient]
  simp

theorem stage_lower {s q t : Nat} (f : Nat → R) (above : 2 * 2 ^ s * q ≤ t)
    (below : t < 2 * 2 ^ s * q + 2 ^ s) : stage s f t = f t + f (t + 2 ^ s) := by
  rw [stage, testBit_lower above below]
  rfl

theorem stage_upper {s q t : Nat} (f : Nat → R) (above : 2 * 2 ^ s * q + 2 ^ s ≤ t)
    (below : t < 2 * 2 ^ s * q + 2 * 2 ^ s) : stage s f t = f (t - 2 ^ s) - f t := by
  rw [stage, testBit_upper above below]
  rfl

/-- The vector before the block at `i`: the blocks behind have gone through the stage. -/
def before (s i : Nat) (f : Nat → R) (t : Nat) : R := if t < i then stage s f t else f t

theorem partly_before (s q : Nat) (f : Nat → R) (t : Nat) :
    partly (2 * 2 ^ s * q) (2 ^ s) (2 ^ s) (before s (2 * 2 ^ s * q) f) t =
      before s (2 * 2 ^ s * q + 2 * 2 ^ s) f t := by
  by_cases lower : 2 * 2 ^ s * q ≤ t ∧ t < 2 * 2 ^ s * q + 2 ^ s
  · rw [partly, if_pos lower, before, if_neg (by omega), before, if_neg (by omega), before,
      if_pos (by omega), stage_lower f lower.1 lower.2]
  · rw [partly, if_neg lower]
    by_cases upper : 2 * 2 ^ s * q + 2 ^ s ≤ t ∧ t < 2 * 2 ^ s * q + 2 ^ s + 2 ^ s
    · rw [if_pos upper, before, if_neg (by omega), before, if_neg (by omega), before,
        if_pos (by omega), stage_upper f upper.1 (by omega)]
    · rw [if_neg upper, before, before]
      split_ifs <;> first | rfl | omega

theorem blocks_holds {n s blocks q : Nat} {v : List R} {f : Nat → R}
    (positive : 0 < 2 ^ s) (size : n = 2 * 2 ^ s * q + 2 * 2 ^ s * blocks)
    (holds : Holds n v (before s (2 * 2 ^ s * q) f)) :
    ∃ w, blocksFrom (2 ^ s) positive n (2 * 2 ^ s * q) v = some w ∧ Holds n w (stage s f) := by
  induction blocks generalizing q v with
  | zero =>
    refine ⟨v, ?_, holds.congr fun t inside => if_pos (by omega)⟩
    rw [blocksFrom, if_neg (by omega)]
  | succ blocks ih =>
    have grown : 2 * 2 ^ s * (blocks + 1) = 2 * 2 ^ s * blocks + 2 * 2 ^ s := by ring
    have next : 2 * 2 ^ s * (q + 1) = 2 * 2 ^ s * q + 2 * 2 ^ s := by ring
    have room : 2 * 2 ^ s * q + 2 * 2 ^ s ≤ n := by omega
    obtain ⟨w, block, done⟩ := block_holds room holds le_rfl
    have start : Holds n w (before s (2 * 2 ^ s * (q + 1)) f) := by
      rw [next]
      exact done.congr fun t _ => partly_before s q f t
    obtain ⟨w', rest, whole⟩ := ih (by omega) start
    refine ⟨w', ?_, whole⟩
    rw [next] at rest
    rw [blocksFrom, if_pos (by omega), block]
    exact rest

/-! ## All stages -/

/-- The vector before the stage `s`: every block of `2 ^ s` entries is transformed. -/
def transformed (s : Nat) (x : Nat → R) (t : Nat) : R :=
  multiply s (fun c => x (2 ^ s * (t / 2 ^ s) + c)) t

theorem transformed_after (s : Nat) (x : Nat → R) (t : Nat) :
    transformed s x (t + 2 ^ s) =
      multiply s (fun c => x (2 ^ s * (t / 2 ^ s) + (2 ^ s + c))) t := by
  have shifted := multiply_row s 1 (fun c => x (2 ^ s * (t / 2 ^ s) + (2 ^ s + c))) t
  rw [transformed, Nat.add_div_right t (Nat.two_pow_pos s), ← shifted, Nat.mul_one,
    Nat.add_comm (2 ^ s) t]
  refine multiply_congr (fun c _ => congrArg x ?_) _
  ring

theorem transformed_before {s t : Nat} (x : Nat → R) (above : 2 ^ s ≤ t) :
    transformed s x (t - 2 ^ s) = multiply s (fun c => x (2 ^ s * (t / 2 ^ s - 1) + c)) t := by
  have quotient : (t - 2 ^ s) / 2 ^ s = t / 2 ^ s - 1 := by
    have whole := Nat.add_div_right (t - 2 ^ s) (Nat.two_pow_pos s)
    rw [Nat.sub_add_cancel above] at whole
    exact (Nat.sub_eq_of_eq_add whole).symm
  have shifted := multiply_row s 1 (fun c => x (2 ^ s * (t / 2 ^ s - 1) + c)) (t - 2 ^ s)
  rw [Nat.mul_one, Nat.add_sub_cancel' above] at shifted
  rw [transformed, quotient, shifted]

/-- A stage joins two blocks into one of the doubled matrix. -/
theorem stage_transformed (s : Nat) (x : Nat → R) (t : Nat) :
    stage s (transformed s x) t = transformed (s + 1) x t := by
  have base : 2 ^ (s + 1) * (t / 2 ^ (s + 1)) = 2 ^ s * (2 * (t / 2 ^ s / 2)) := by
    rw [Nat.pow_succ, ← Nat.div_div_eq_div_mul, Nat.mul_assoc]
  have parity := Nat.div_add_mod (t / 2 ^ s) 2
  rw [transformed, multiply_succ, base]
  cases bit : t.testBit s with
  | false =>
    have even : t / 2 ^ s % 2 = 0 := by
      rw [Nat.testBit_eq_decide_div_mod_eq] at bit
      have odd := of_decide_eq_false bit
      omega
    have own : 2 * (t / 2 ^ s / 2) = t / 2 ^ s := by omega
    rw [stage, bit, if_neg (by decide), transformed_after, own, half, bit, if_neg (by decide),
      one_mul]
    rfl
  | true =>
    have odd : t / 2 ^ s % 2 = 1 := by
      rw [Nat.testBit_eq_decide_div_mod_eq] at bit
      exact of_decide_eq_true bit
    have above : 2 ^ s ≤ t := by
      by_contra below
      rw [Nat.div_eq_of_lt (by omega)] at odd
      omega
    have own : t / 2 ^ s = 2 * (t / 2 ^ s / 2) + 1 := by omega
    have lower : t / 2 ^ s - 1 = 2 * (t / 2 ^ s / 2) := by omega
    have same : transformed s x t =
        multiply s (fun c => x (2 ^ s * (2 * (t / 2 ^ s / 2)) + (2 ^ s + c))) t := by
      rw [transformed]
      refine multiply_congr (fun c _ => congrArg x ?_) _
      calc 2 ^ s * (t / 2 ^ s) + c = 2 ^ s * (2 * (t / 2 ^ s / 2) + 1) + c := by rw [← own]
        _ = 2 ^ s * (2 * (t / 2 ^ s / 2)) + (2 ^ s + c) := by ring
    rw [stage, bit, if_pos rfl, transformed_before x above, lower, same, half, bit, if_pos rfl]
    ring

theorem stages_holds {n k s : Nat} (size : n = 2 ^ k) (within : s ≤ k) (positive : 0 < 2 ^ s)
    {v : List R} {x : Nat → R} (holds : Holds n v (transformed s x)) :
    ∃ w, stagesFrom n (2 ^ s) positive v = some w ∧ Holds n w (multiply k x) := by
  obtain ⟨left, rfl⟩ := Nat.exists_eq_add_of_le within
  induction left generalizing s v with
  | zero =>
    rw [Nat.add_zero] at size ⊢
    refine ⟨v, ?_, holds.congr fun t inside => ?_⟩
    · rw [stagesFrom, if_neg (by omega)]
    · rw [transformed, Nat.div_eq_of_lt (by omega), Nat.mul_zero]
      simp only [Nat.zero_add]
  | succ left ih =>
    have order : s + (left + 1) = s + 1 + left := by omega
    have blocks : n = 2 * 2 ^ s * 0 + 2 * 2 ^ s * 2 ^ left := by
      rw [size, order, pow_add, pow_succ]
      ring
    have more : 2 ^ s < n := by
      rw [size]
      exact Nat.pow_lt_pow_right (by decide) (by omega)
    have start : Holds n v (before s (2 * 2 ^ s * 0) (transformed s x)) :=
      holds.congr fun t _ => (if_neg (Nat.not_lt_zero t)).symm
    obtain ⟨w, stage, done⟩ := blocks_holds positive blocks start
    have doubled : 2 * 2 ^ s = 2 ^ (s + 1) := by ring
    obtain ⟨w', rest, whole⟩ := ih (Nat.two_pow_pos (s + 1))
      (done.congr fun t _ => stage_transformed s x t) (by rw [size, order]) (by omega)
    rw [Nat.mul_zero] at stage
    refine ⟨w', ?_, by rw [order]; exact whole⟩
    rw [stagesFrom, if_pos more, stage]
    change stagesFrom n (2 * 2 ^ s) _ w = some w'
    simpa only [doubled] using rest

/-- The loops stay inside the vector and multiply it by Sylvester's matrix. -/
theorem butterflies_holds {k : Nat} {v : List R} {x : Nat → R} (holds : Holds (2 ^ k) v x) :
    ∃ w, butterflies v = some w ∧ Holds (2 ^ k) w (multiply k x) := by
  have start : Holds (2 ^ k) v (transformed 0 x) := by
    refine holds.congr fun t _ => ?_
    simp [transformed, multiply, sylvester]
  rw [butterflies, holds.length]
  exact stages_holds rfl (Nat.zero_le k) Nat.one_pos start

theorem butterflies_scale {k : Nat} {v w : List R} (size : v.length = 2 ^ k)
    (run : butterflies v = some w) (c : R) :
    butterflies (v.map (· * c)) = some (w.map (· * c)) := by
  have holds := holds_getD v
  rw [size] at holds
  obtain ⟨w', first, once⟩ := butterflies_holds holds
  rw [run] at first
  cases first
  obtain ⟨u, second, scaled⟩ := butterflies_holds (holds.map (· * c))
  have same : u = w.map (· * c) :=
    (scaled.congr fun t _ => multiply_scale k _ c t).unique (once.map (· * c))
  rw [second, same]

/-- Twice the loops give every entry multiplied by the length. -/
theorem butterflies_twice {k : Nat} {v w : List R} (size : v.length = 2 ^ k)
    (run : butterflies v = some w) : butterflies w = some (v.map (2 ^ k * ·)) := by
  have holds := holds_getD v
  rw [size] at holds
  obtain ⟨w', first, once⟩ := butterflies_holds holds
  rw [run] at first
  cases first
  obtain ⟨u, second, twice⟩ := butterflies_holds once
  have scaled := holds.map (2 ^ k * ·)
  have same : u = v.map (2 ^ k * ·) :=
    (twice.congr fun t inside => multiply_twice k _ inside).unique scaled
  rw [second, same]

end Transform

/-! ## The rotation -/

/-- The state of the generator of signs, seeded through splitmix. -/
def Prng.new (seed : BitVec 64) : BitVec 128 :=
  let s := seed + 0x9e3779b97f4a7c15#64
  let s := (s ^^^ (s >>> 30)) * 0xbf58476d1ce4e5b9#64
  let s := (s ^^^ (s >>> 27)) * 0x94d049bb133111eb#64
  let s := s ^^^ (s >>> 31)
  s.setWidth 128 ||| 1#128

def nextU64 (state : BitVec 128) : BitVec 128 × BitVec 64 :=
  let state := state * 0xda942042e4dd58b5#128
  (state, (state >>> 64).setWidth 64)

def rademacher (state : BitVec 128) : BitVec 128 × Int :=
  let drawn := nextU64 state
  (drawn.1, if drawn.2 &&& 1#64 = 0#64 then 1 else -1)

def signsFrom : Nat → BitVec 128 → List Int
  | 0, _ => []
  | n + 1, state => (rademacher state).2 :: signsFrom n (rademacher state).1

def nextPowerOfTwo (n : Nat) : Nat := 2 ^ Nat.clog 2 n

def padDim (origDim : Nat) : Nat := max (nextPowerOfTwo origDim) 1

theorem signsFrom_spec (n : Nat) (state : BitVec 128) :
    (signsFrom n state).length = n ∧ ∀ s ∈ signsFrom n state, s = 1 ∨ s = -1 := by
  induction n generalizing state with
  | zero => exact ⟨rfl, by simp [signsFrom]⟩
  | succ n ih =>
    refine ⟨congrArg (· + 1) (ih _).1, fun s listed => ?_⟩
    rcases List.mem_cons.mp listed with rfl | later
    · simp only [rademacher]
      split
      · exact .inl rfl
      · exact .inr rfl
    · exact (ih _).2 s later

/-- One sign for each padded dimension. -/
structure PolarQuantRotation where
  origDim : Nat
  signs : List Int
  length : signs.length = padDim origDim
  unit : ∀ s ∈ signs, s = 1 ∨ s = -1

def PolarQuantRotation.new (origDim : Nat) (seed : BitVec 64) : PolarQuantRotation where
  origDim := origDim
  signs := signsFrom (padDim origDim) (Prng.new seed)
  length := (signsFrom_spec _ _).1
  unit := (signsFrom_spec _ _).2

section Rotation

variable {K : Type v} [Field K] (sqrt : K → K)

def fastHadamardTransform (v : List K) : Option (List K) := do
  let w ← butterflies v
  let scale := 1 / sqrt v.length
  some (w.map (· * scale))

def padToPow2 (v : List K) : List K :=
  v ++ List.replicate (padDim v.length - v.length) 0

/-- The signs times the entries, as far as both reach. -/
def flipSigns : List K → List Int → List K
  | x :: xs, s :: signs => x * s :: flipSigns xs signs
  | xs, _ => xs

def rotate (rotation : PolarQuantRotation) (v : List K) : Option (List K) :=
  fastHadamardTransform sqrt (flipSigns (padToPow2 v) rotation.signs)

def unrotate (rotation : PolarQuantRotation) (v : List K) : Option (List K) := do
  let out ← fastHadamardTransform sqrt v
  some ((flipSigns out rotation.signs).take rotation.origDim)

theorem flipSigns_length (v : List K) (signs : List Int) :
    (flipSigns v signs).length = v.length := by
  induction v, signs using flipSigns.induct with
  | case1 x xs s signs ih => simp [flipSigns, ih]
  | case2 xs signs other => rw [flipSigns]; exact other

theorem flipSigns_twice {signs : List Int} (unit : ∀ s ∈ signs, s = 1 ∨ s = -1) (v : List K) :
    flipSigns (flipSigns v signs) signs = v := by
  induction v, signs using flipSigns.induct with
  | case1 x xs s signs ih =>
    have square : x * (s : K) * (s : K) = x := by
      rcases unit s List.mem_cons_self with rfl | rfl <;> simp
    rw [flipSigns, flipSigns, ih fun s listed => unit s (List.mem_cons_of_mem _ listed), square]
  | case2 xs signs other =>
    have kept : flipSigns xs signs = xs := by
      rw [flipSigns]
      exact other
    rw [kept, kept]

/-- The transform is Sylvester's matrix over the square root of the length. -/
theorem transform_entries {k : Nat} {v : List K} (size : v.length = 2 ^ k) :
    ∃ w, fastHadamardTransform sqrt v = some w ∧ w.length = 2 ^ k ∧ ∀ t < 2 ^ k, w[t]? =
      some ((∑ c ∈ Finset.range (2 ^ k), sylvester K k t c * v[c]?.getD 0) /
        sqrt (2 ^ k : ℕ)) := by
  have holds := holds_getD v
  rw [size] at holds
  obtain ⟨w, run, once⟩ := butterflies_holds holds
  have scaled := once.map (· * (1 / sqrt (2 ^ k : ℕ)))
  refine ⟨_, ?_, scaled.length, fun t inside => ?_⟩
  · simp only [fastHadamardTransform, run, size, Option.bind_eq_bind, Option.bind_some]
  · rw [scaled.entries t inside, mul_one_div]
    rfl

/-- The normalised transform is its own inverse. -/
theorem transform_twice [CharZero K] (root : ∀ n : ℕ, sqrt n * sqrt n = n) {k : Nat} {v : List K}
    (size : v.length = 2 ^ k) :
    (fastHadamardTransform sqrt v).bind (fastHadamardTransform sqrt) = some v := by
  have holds := holds_getD v
  rw [size] at holds
  obtain ⟨w, run, once⟩ := butterflies_holds holds
  have again := butterflies_scale once.length (butterflies_twice size run) (1 / sqrt (2 ^ k : ℕ))
  have unit : (2 ^ k : K) * (1 / sqrt (2 ^ k : ℕ)) * (1 / sqrt (2 ^ k : ℕ)) = 1 := by
    have square := root (2 ^ k)
    have nonzero : sqrt (2 ^ k : ℕ) ≠ 0 := by
      intro zero
      rw [zero, mul_zero] at square
      exact pow_ne_zero k two_ne_zero (by exact_mod_cast square.symm)
    push_cast at square nonzero ⊢
    field_simp
    rw [pow_two, square]
  have restored : ((v.map (2 ^ k * ·)).map (· * (1 / sqrt (2 ^ k : ℕ)))).map
      (· * (1 / sqrt (2 ^ k : ℕ))) = v := by
    rw [List.map_map, List.map_map]
    refine (List.map_congr_left fun x _ => ?_).trans (List.map_id v)
    calc 2 ^ k * x * (1 / sqrt (2 ^ k : ℕ)) * (1 / sqrt (2 ^ k : ℕ))
        = 2 ^ k * (1 / sqrt (2 ^ k : ℕ)) * (1 / sqrt (2 ^ k : ℕ)) * x := by ring
      _ = x := by rw [unit, one_mul]
  have first : fastHadamardTransform sqrt v = some (w.map (· * (1 / sqrt (2 ^ k : ℕ)))) := by
    simp only [fastHadamardTransform, run, size, Option.bind_eq_bind, Option.bind_some]
  have length : (w.map (· * (1 / sqrt (2 ^ k : ℕ)))).length = 2 ^ k := by
    rw [List.length_map, once.length]
  rw [first, Option.bind_some, fastHadamardTransform, again, length]
  exact congrArg some restored

theorem padToPow2_length (v : List K) : (padToPow2 v).length = 2 ^ Nat.clog 2 v.length := by
  have room := Nat.le_pow_clog (by decide : 1 < 2) v.length
  have positive := Nat.two_pow_pos (Nat.clog 2 v.length)
  simp only [padToPow2, padDim, nextPowerOfTwo, List.length_append, List.length_replicate]
  omega

theorem unrotate_rotate [CharZero K] (root : ∀ n : ℕ, sqrt n * sqrt n = n)
    (rotation : PolarQuantRotation) {v : List K} (dim : v.length = rotation.origDim) :
    (rotate sqrt rotation v).bind (unrotate sqrt rotation) = some v := by
  have size : (flipSigns (padToPow2 v) rotation.signs).length = 2 ^ Nat.clog 2 v.length := by
    rw [flipSigns_length, padToPow2_length]
  have twice := transform_twice sqrt root size
  have split : ∀ run : Option (List K), run.bind (unrotate sqrt rotation) =
      (run.bind (fastHadamardTransform sqrt)).map fun out =>
        (flipSigns out rotation.signs).take rotation.origDim := by
    rintro (_ | w)
    · rfl
    · simp only [Option.bind_some, unrotate]
      cases fastHadamardTransform sqrt w <;> rfl
  rw [rotate, split, twice, Option.map_some, flipSigns_twice rotation.unit, ← dim, padToPow2,
    List.take_left]

end Rotation

/-- The loops multiply by Sylvester's matrix and twice by the length, the transform divides that by
the square root of the length, and unrotating a rotated vector gives it back. -/
theorem rotation_inverts {R : Type u} [CommRing R] {K : Type v} [Field K] [CharZero K]
    {sqrt : K → K} (root : ∀ n : ℕ, sqrt n * sqrt n = n) {k : Nat} {x : List R}
    (size : x.length = 2 ^ k) (rotation : PolarQuantRotation) {v : List K}
    (dim : v.length = rotation.origDim) :
    (∃ y, butterflies x = some y ∧ y.length = 2 ^ k ∧
      (∀ t < 2 ^ k, y[t]? =
        some (∑ c ∈ Finset.range (2 ^ k), sylvester R k t c * x[c]?.getD 0)) ∧
      butterflies y = some (x.map (2 ^ k * ·))) ∧
    (∀ z : List K, z.length = 2 ^ k → ∃ w, fastHadamardTransform sqrt z = some w ∧
      w.length = 2 ^ k ∧ ∀ t < 2 ^ k, w[t]? =
        some ((∑ c ∈ Finset.range (2 ^ k), sylvester K k t c * z[c]?.getD 0) /
          sqrt (2 ^ k : ℕ))) ∧
    (rotate sqrt rotation v).bind (unrotate sqrt rotation) = some v := by
  have holds := holds_getD x
  rw [size] at holds
  obtain ⟨y, run, once⟩ := butterflies_holds holds
  exact ⟨⟨y, run, once.length, once.entries, butterflies_twice size run⟩,
    fun _ => transform_entries sqrt, unrotate_rotate sqrt root rotation dim⟩

theorem three_dimensions :
    (∃ y, butterflies [3, 1, -4, 1] = some y ∧ butterflies y = some ([12, 4, -16, 4] : List ℤ)) ∧
      (rotate Real.sqrt (.new 3 42) [1, 2, 3]).bind (unrotate Real.sqrt (.new 3 42)) =
        some [1, 2, 3] := by
  have root : ∀ n : ℕ, Real.sqrt n * Real.sqrt n = n := fun n => Real.mul_self_sqrt n.cast_nonneg
  obtain ⟨⟨y, run, -, -, twice⟩, -, back⟩ :=
    @rotation_inverts ℤ _ ℝ _ _ Real.sqrt root 2 [3, 1, -4, 1] rfl (.new 3 42) [1, 2, 3] rfl
  exact ⟨⟨y, run, twice⟩, back⟩

end PolarQuant
