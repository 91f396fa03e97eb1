import Mathlib

/-!
# The P-square quantile estimator

Five markers estimate a quantile of a stream in constant space, here over exact
rationals. Division is checked, so a run that ends has divided by no zero.
-/

namespace PSquare

structure PSquareQuantile where
  p : ℚ
  markers : Fin 5 → ℚ
  positions : Fin 5 → ℚ
  desired : Fin 5 → ℚ
  dn : Fin 5 → ℚ
  n : Nat
  initBuf : List ℚ

def PSquareQuantile.new (p : ℚ) : PSquareQuantile where
  p := p
  markers := fun _ => 0
  positions := ![1, 2, 3, 4, 5]
  desired := ![1, 1 + 2 * p, 1 + 4 * p, 3 + 2 * p, 5]
  dn := ![0, p / 2, p, (1 + p) / 2, 1]
  n := 0
  initBuf := []

def checkedDiv (a b : ℚ) : Option ℚ := if b = 0 then none else some (a / b)

def parabolic (s : PSquareQuantile) (i : Fin 5) (d : ℚ) : Option ℚ := do
  let q := s.markers i
  let qi := s.positions i
  let ql := s.markers (i - 1)
  let qr := s.markers (i + 1)
  let nl := s.positions (i - 1)
  let nr := s.positions (i + 1)
  let scale ← checkedDiv d (nr - nl)
  let right ← checkedDiv ((qi - nl + d) * (qr - q)) (nr - qi)
  let left ← checkedDiv ((nr - qi - d) * (q - ql)) (qi - nl)
  some (q + scale * (right + left))

/-- The height a middle marker moves to when its position moves by `sign`. -/
def moved (s : PSquareQuantile) (i : Fin 5) (sign : ℚ) : Option ℚ := do
  let qPara ← parabolic s i sign
  if s.markers (i - 1) < qPara ∧ qPara < s.markers (i + 1) then some qPara
  else
    let j := if 0 < sign then i + 1 else i - 1
    let slope ← checkedDiv (sign * (s.markers j - s.markers i)) (s.positions j - s.positions i)
    some (s.markers i + slope)

def adjust (s : PSquareQuantile) (i : Fin 5) : Option PSquareQuantile :=
  let d := s.desired i - s.positions i
  let diffR := s.positions (i + 1) - s.positions i
  let diffL := s.positions i - s.positions (i - 1)
  if (d ≥ 1 ∧ diffR > 1) ∨ (d ≤ -1 ∧ diffL > 1) then
    let sign : ℚ := if d ≥ 0 then 1 else -1
    (moved s i sign).map fun q => { s with
      markers := Function.update s.markers i q
      positions := Function.update s.positions i (s.positions i + sign) }
  else some s

/-- The markers with the extreme one moved to the observation, and the cell it falls into. -/
def findCell (markers : Fin 5 → ℚ) (x : ℚ) : (Fin 5 → ℚ) × Fin 5 :=
  if x < markers 0 then (Function.update markers 0 x, 0)
  else if x < markers 1 then (markers, 0)
  else if x < markers 2 then (markers, 1)
  else if x < markers 3 then (markers, 2)
  else if x < markers 4 then (markers, 3)
  else (Function.update markers 4 x, 3)

/-- The first five observations are buffered, and sorted into the markers with the fifth. -/
def buffer (s : PSquareQuantile) (x : ℚ) : PSquareQuantile :=
  let initBuf := s.initBuf ++ [x]
  if initBuf.length = 5 then
    let sorted := initBuf.insertionSort (· ≤ ·)
    { s with initBuf := initBuf, markers := fun i => sorted[i.val]?.getD 0 }
  else { s with initBuf := initBuf }

/-- The observation in its cell, with the positions above it and the desired ones moved on. -/
def shift (s : PSquareQuantile) (x : ℚ) : PSquareQuantile :=
  let cell := findCell s.markers x
  { s with
    markers := cell.1
    positions := fun i => if cell.2 < i then s.positions i + 1 else s.positions i
    desired := fun i => s.desired i + s.dn i }

def observe (s : PSquareQuantile) (x : ℚ) : Option PSquareQuantile :=
  let s := { s with n := s.n + 1 }
  if s.initBuf.length < 5 then some (buffer s x)
  else [1, 2, 3].foldlM adjust (shift s x)

def quantile (s : PSquareQuantile) : Option ℚ := if s.n < 5 then none else some (s.markers 2)

def observeAll (s : PSquareQuantile) (xs : List ℚ) : Option PSquareQuantile := xs.foldlM observe s

example : (observeAll (.new (1 / 2)) [5, 1, 4, 2, 3, 9, 0]).bind quantile = some 3 := by
  decide +kernel

/-! ## Markers in order -/

/-- Whole positions in strict order and heights in order. -/
structure Ordered (s : PSquareQuantile) : Prop where
  positions : StrictMono s.positions
  whole : ∀ i, ∃ z : ℤ, s.positions i = z
  markers : Monotone s.markers

/-- A marker with a neighbour on both sides. -/
def Inner (i : Fin 5) : Prop := i = 1 ∨ i = 2 ∨ i = 3

instance : DecidablePred Inner := fun _ => inferInstanceAs (Decidable (_ ∨ _ ∨ _))

theorem inner_steps : ∀ i, Inner i → i - 1 < i ∧ i < i + 1 ∧
    (∀ j, i < j → i + 1 ≤ j) ∧ (∀ j, j < i → j ≤ i - 1) := by
  decide

variable {s : PSquareQuantile} {i : Fin 5}

theorem monotone_update {f : Fin 5 → ℚ} (mono : Monotone f) (inner : Inner i) {v : ℚ}
    (above : f (i - 1) ≤ v) (below : v ≤ f (i + 1)) : Monotone (Function.update f i v) := by
  obtain ⟨-, -, later, earlier⟩ := inner_steps i inner
  intro a b order
  rcases order.eq_or_lt with rfl | less
  · exact le_rfl
  · by_cases first : a = i
    · subst first
      rw [Function.update_self, Function.update_of_ne less.ne']
      exact below.trans (mono (later b less))
    · by_cases second : b = i
      · subst second
        rw [Function.update_self, Function.update_of_ne first]
        exact (mono (earlier a less)).trans above
      · rw [Function.update_of_ne first, Function.update_of_ne second]
        exact mono order

theorem strictMono_update {f : Fin 5 → ℚ} (mono : StrictMono f) (inner : Inner i) {v : ℚ}
    (above : f (i - 1) < v) (below : v < f (i + 1)) : StrictMono (Function.update f i v) := by
  obtain ⟨-, -, later, earlier⟩ := inner_steps i inner
  intro a b less
  by_cases first : a = i
  · subst first
    rw [Function.update_self, Function.update_of_ne less.ne']
    exact below.trans_le (mono.monotone (later b less))
  · by_cases second : b = i
    · subst second
      rw [Function.update_self, Function.update_of_ne first]
      exact (mono.monotone (earlier a less)).trans_lt above
    · rw [Function.update_of_ne first, Function.update_of_ne second]
      exact mono less

/-! ## Moving a marker -/

theorem checkedDiv_ok {b : ℚ} (nonzero : b ≠ 0) (a : ℚ) : checkedDiv a b = some (a / b) :=
  if_neg nonzero

theorem Ordered.parabolic_ok (ordered : Ordered s) (inner : Inner i) (d : ℚ) :
    ∃ q, parabolic s i d = some q := by
  obtain ⟨low, high, -, -⟩ := inner_steps i inner
  have left := ordered.positions low
  have right := ordered.positions high
  simp only [parabolic]
  rw [checkedDiv_ok (by linarith), checkedDiv_ok (by linarith), checkedDiv_ok (by linarith)]
  exact ⟨_, rfl⟩

/-- The marker stays between its neighbours, by the parabola or on the line to one of them. -/
theorem Ordered.moved_up (ordered : Ordered s) (inner : Inner i)
    (room : s.positions (i + 1) - s.positions i > 1) :
    ∃ q, moved s i 1 = some q ∧ s.markers (i - 1) ≤ q ∧ q ≤ s.markers (i + 1) := by
  obtain ⟨low, high, -, -⟩ := inner_steps i inner
  have left := ordered.markers low.le
  have right := ordered.markers high.le
  obtain ⟨qPara, para⟩ := ordered.parabolic_ok inner 1
  by_cases between : s.markers (i - 1) < qPara ∧ qPara < s.markers (i + 1)
  · refine ⟨qPara, ?_, between.1.le, between.2.le⟩
    simp [moved, para, between]
  · have apart : s.positions (i + 1) - s.positions i ≠ 0 := by linarith
    have gain : 0 ≤ s.markers (i + 1) - s.markers i := by linarith
    have forward : 0 ≤ (s.markers (i + 1) - s.markers i) / (s.positions (i + 1) - s.positions i) :=
      div_nonneg gain (by linarith)
    have short : (s.markers (i + 1) - s.markers i) / (s.positions (i + 1) - s.positions i) ≤
        s.markers (i + 1) - s.markers i := div_le_self gain room.le
    refine ⟨s.markers i + (s.markers (i + 1) - s.markers i) /
      (s.positions (i + 1) - s.positions i), ?_, by linarith, by linarith⟩
    simp [moved, para, between, checkedDiv_ok apart]

theorem Ordered.moved_down (ordered : Ordered s) (inner : Inner i)
    (room : s.positions i - s.positions (i - 1) > 1) :
    ∃ q, moved s i (-1) = some q ∧ s.markers (i - 1) ≤ q ∧ q ≤ s.markers (i + 1) := by
  obtain ⟨low, high, -, -⟩ := inner_steps i inner
  have left := ordered.markers low.le
  have right := ordered.markers high.le
  obtain ⟨qPara, para⟩ := ordered.parabolic_ok inner (-1)
  by_cases between : s.markers (i - 1) < qPara ∧ qPara < s.markers (i + 1)
  · refine ⟨qPara, ?_, between.1.le, between.2.le⟩
    simp [moved, para, between]
  · have apart : s.positions (i - 1) - s.positions i ≠ 0 := by linarith
    have loss : 0 ≤ s.markers i - s.markers (i - 1) := by linarith
    have turned : -1 * (s.markers (i - 1) - s.markers i) / (s.positions (i - 1) - s.positions i) =
        -((s.markers i - s.markers (i - 1)) / (s.positions i - s.positions (i - 1))) := by
      rw [← div_neg, neg_sub]
      congr 1
      ring
    have backward : 0 ≤ (s.markers i - s.markers (i - 1)) / (s.positions i - s.positions (i - 1)) :=
      div_nonneg loss (by linarith)
    have short : (s.markers i - s.markers (i - 1)) / (s.positions i - s.positions (i - 1)) ≤
        s.markers i - s.markers (i - 1) := div_le_self loss room.le
    refine ⟨s.markers i + -1 * (s.markers (i - 1) - s.markers i) /
      (s.positions (i - 1) - s.positions i), ?_, ?_, ?_⟩
    · have negative : ¬ (0 : ℚ) < -1 := by norm_num
      simp only [moved, para, Option.bind_eq_bind, Option.bind_some, if_neg between,
        if_neg negative, checkedDiv_ok apart]
    · rw [turned]
      linarith
    · rw [turned]
      linarith

/-- What an adjustment of the middle markers leaves alone. -/
structure SameEnds (s s' : PSquareQuantile) : Prop where
  firstMarker : s'.markers 0 = s.markers 0
  lastMarker : s'.markers 4 = s.markers 4
  firstPosition : s'.positions 0 = s.positions 0
  lastPosition : s'.positions 4 = s.positions 4
  n : s'.n = s.n
  initBuf : s'.initBuf = s.initBuf

theorem SameEnds.refl (s : PSquareQuantile) : SameEnds s s := ⟨rfl, rfl, rfl, rfl, rfl, rfl⟩

theorem SameEnds.trans {s t u : PSquareQuantile} (first : SameEnds s t) (second : SameEnds t u) :
    SameEnds s u where
  firstMarker := second.firstMarker.trans first.firstMarker
  lastMarker := second.lastMarker.trans first.lastMarker
  firstPosition := second.firstPosition.trans first.firstPosition
  lastPosition := second.lastPosition.trans first.lastPosition
  n := second.n.trans first.n
  initBuf := second.initBuf.trans first.initBuf

theorem Ordered.update (ordered : Ordered s) (inner : Inner i) {q : ℚ} (step : ℤ)
    (above : s.markers (i - 1) ≤ q) (below : q ≤ s.markers (i + 1))
    (after : s.positions (i - 1) < s.positions i + step)
    (before : s.positions i + step < s.positions (i + 1)) :
    Ordered { s with
        markers := Function.update s.markers i q
        positions := Function.update s.positions i (s.positions i + step) } ∧
      SameEnds s { s with
        markers := Function.update s.markers i q
        positions := Function.update s.positions i (s.positions i + step) } := by
  have ends : (0 : Fin 5) ≠ i ∧ (4 : Fin 5) ≠ i := by
    rcases inner with rfl | rfl | rfl <;> decide
  refine ⟨⟨strictMono_update ordered.positions inner after before, fun j => ?_,
    monotone_update ordered.markers inner above below⟩, ?_⟩
  · by_cases here : j = i
    · obtain ⟨z, whole⟩ := ordered.whole i
      refine ⟨z + step, ?_⟩
      simp [here, whole]
    · obtain ⟨z, whole⟩ := ordered.whole j
      exact ⟨z, by simp [Function.update_of_ne here, whole]⟩
  · constructor <;> simp [Function.update_of_ne ends.1, Function.update_of_ne ends.2]

theorem Ordered.adjust (ordered : Ordered s) (inner : Inner i) :
    ∃ s', adjust s i = some s' ∧ Ordered s' ∧ SameEnds s s' := by
  obtain ⟨low, high, -, -⟩ := inner_steps i inner
  have left := ordered.positions low
  have right := ordered.positions high
  by_cases up : s.desired i - s.positions i ≥ 1 ∧ s.positions (i + 1) - s.positions i > 1
  · obtain ⟨q, moves, above, below⟩ := ordered.moved_up inner up.2
    have positive : s.desired i - s.positions i ≥ 0 := by linarith
    have kept := ordered.update inner 1 above below (by push_cast; linarith)
      (by push_cast; linarith)
    refine ⟨_, ?_, kept⟩
    simp [PSquare.adjust, up, positive, moves]
  · by_cases down : s.desired i - s.positions i ≤ -1 ∧ s.positions i - s.positions (i - 1) > 1
    · obtain ⟨q, moves, above, below⟩ := ordered.moved_down inner down.2
      have negative : ¬ s.positions i ≤ s.desired i := by linarith
      have kept := ordered.update inner (-1) above below (by push_cast; linarith)
        (by push_cast; linarith)
      refine ⟨_, ?_, kept⟩
      simp [PSquare.adjust, up, down, negative, moves]
    · refine ⟨s, ?_, ordered, SameEnds.refl s⟩
      simp only [PSquare.adjust, up, down, or_self, if_false]

theorem Ordered.adjustAll (ordered : Ordered s) {inners : List (Fin 5)}
    (inner : ∀ i ∈ inners, Inner i) :
    ∃ s', inners.foldlM PSquare.adjust s = some s' ∧ Ordered s' ∧ SameEnds s s' := by
  induction inners generalizing s with
  | nil => exact ⟨s, rfl, ordered, SameEnds.refl s⟩
  | cons i rest ih =>
    obtain ⟨t, first, still, kept⟩ := ordered.adjust (inner i List.mem_cons_self)
    obtain ⟨u, later, last, more⟩ :=
      ih still fun j listed => inner j (List.mem_cons_of_mem i listed)
    refine ⟨u, ?_, last, kept.trans more⟩
    rw [List.foldlM_cons, first]
    exact later

/-! ## One observation -/

theorem monotone_lower {m : Fin 5 → ℚ} (mono : Monotone m) {x : ℚ} (below : x ≤ m 0) :
    Monotone (Function.update m 0 x) := by
  intro a b order
  by_cases first : b = 0
  · rw [first] at order ⊢
    rw [Fin.le_zero_iff.mp order]
  · rw [Function.update_of_ne first]
    by_cases start : a = 0
    · rw [start, Function.update_self]
      exact below.trans (mono (Fin.zero_le b))
    · rw [Function.update_of_ne start]
      exact mono order

theorem monotone_raise {m : Fin 5 → ℚ} (mono : Monotone m) {x : ℚ} (above : m 4 ≤ x) :
    Monotone (Function.update m 4 x) := by
  intro a b order
  by_cases final : a = 4
  · rw [final] at order ⊢
    rw [Fin.last_le_iff.mp order]
    exact le_rfl
  · rw [Function.update_of_ne final]
    by_cases stop : b = 4
    · rw [stop, Function.update_self]
      exact (mono (Fin.le_last a)).trans above
    · rw [Function.update_of_ne stop]
      exact mono order

/-- The cell search moves at most one extreme marker, to the new extreme. -/
theorem findCell_spec {m : Fin 5 → ℚ} (mono : Monotone m) (x : ℚ) :
    Monotone (findCell m x).1 ∧ (findCell m x).1 0 = min (m 0) x ∧
      (findCell m x).1 4 = max (m 4) x ∧ (findCell m x).2 < 4 := by
  have ends : m 0 ≤ m 4 := mono (by decide)
  by_cases lowest : x < m 0
  · have cell : findCell m x = (Function.update m 0 x, 0) := if_pos lowest
    have apart : (4 : Fin 5) ≠ 0 := by decide
    simp only [cell, Function.update_self, Function.update_of_ne apart]
    exact ⟨monotone_lower mono lowest.le, (min_eq_right lowest.le).symm,
      (max_eq_left (by linarith)).symm, by decide⟩
  · have above : m 0 ≤ x := not_lt.mp lowest
    by_cases highest : m 4 ≤ x
    · have inner : ∀ j, ¬ x < m j := fun j => not_lt.mpr ((mono (Fin.le_last j)).trans highest)
      have cell : findCell m x = (Function.update m 4 x, 3) := by
        simp only [findCell, inner, if_false]
      have apart : (0 : Fin 5) ≠ 4 := by decide
      simp only [cell, Function.update_self, Function.update_of_ne apart]
      exact ⟨monotone_raise mono highest, (min_eq_left above).symm, (max_eq_right highest).symm,
        by decide⟩
    · have below : x < m 4 := not_le.mp highest
      have kept : (findCell m x).1 = m ∧ (findCell m x).2 < 4 := by
        simp only [findCell, if_neg lowest, if_pos below]
        split_ifs <;> exact ⟨rfl, by simp⟩
      rw [kept.1, min_eq_left above, max_eq_left below.le]
      exact ⟨mono, rfl, rfl, kept.2⟩

theorem Ordered.shift (ordered : Ordered s) (x : ℚ) : Ordered (shift s x) := by
  refine ⟨?_, ?_, (findCell_spec ordered.markers x).1⟩
  · intro a b less
    have apart := ordered.positions less
    simp only [PSquare.shift]
    by_cases moved : (findCell s.markers x).2 < a
    · rw [if_pos moved, if_pos (moved.trans less)]
      linarith
    · rw [if_neg moved]
      split <;> linarith
  · intro j
    obtain ⟨z, whole⟩ := ordered.whole j
    simp only [PSquare.shift]
    split
    · exact ⟨z + 1, by rw [whole]; push_cast; rfl⟩
    · exact ⟨z, whole⟩

/-- The estimator after at least five observations. -/
structure Settled (seen : List ℚ) (s : PSquareQuantile) : Prop where
  ordered : Ordered s
  first : s.positions 0 = 1
  last : s.positions 4 = seen.length
  least : IsLeast {x | x ∈ seen} (s.markers 0)
  greatest : IsGreatest {x | x ∈ seen} (s.markers 4)
  counted : s.n = seen.length
  enough : 5 ≤ seen.length
  full : s.initBuf.length = 5

variable {seen : List ℚ}

theorem least_snoc {m : ℚ} (least : IsLeast {x | x ∈ seen} m) (x : ℚ) :
    IsLeast {y | y ∈ seen ++ [x]} (min m x) := by
  constructor
  · rcases min_choice m x with old | new
    · rw [old]
      exact List.mem_append_left _ least.1
    · rw [new]
      exact List.mem_append_right _ (List.mem_singleton_self x)
  · intro y listed
    rcases List.mem_append.mp listed with before | same
    · exact (min_le_left m x).trans (least.2 before)
    · rw [List.mem_singleton.mp same]
      exact min_le_right m x

theorem greatest_snoc {m : ℚ} (greatest : IsGreatest {x | x ∈ seen} m) (x : ℚ) :
    IsGreatest {y | y ∈ seen ++ [x]} (max m x) := by
  constructor
  · rcases max_choice m x with old | new
    · rw [old]
      exact List.mem_append_left _ greatest.1
    · rw [new]
      exact List.mem_append_right _ (List.mem_singleton_self x)
  · intro y listed
    rcases List.mem_append.mp listed with before | same
    · exact (greatest.2 before).trans (le_max_left m x)
    · rw [List.mem_singleton.mp same]
      exact le_max_right m x

theorem Settled.observe (settled : Settled seen s) (x : ℚ) :
    ∃ s', observe s x = some s' ∧ Settled (seen ++ [x]) s' := by
  have counted : Ordered { s with n := s.n + 1 } :=
    ⟨settled.ordered.positions, settled.ordered.whole, settled.ordered.markers⟩
  obtain ⟨-, lowest, highest, cell⟩ := findCell_spec settled.ordered.markers x
  have inner : ∀ i ∈ ([1, 2, 3] : List (Fin 5)), Inner i := by decide
  obtain ⟨s', adjusted, ordered, ends⟩ := (counted.shift x).adjustAll inner
  refine ⟨s', ?_, ordered, ?_, ?_, ?_, ?_, ?_, ?_, ?_⟩
  · have full : ¬ s.initBuf.length < 5 := by
      rw [settled.full]
      decide
    simp only [PSquare.observe, if_neg full, adjusted]
  · rw [ends.firstPosition]
    simpa [PSquare.shift] using settled.first
  · rw [ends.lastPosition]
    simp [PSquare.shift, cell, settled.last]
  · rw [ends.firstMarker]
    simpa only [PSquare.shift, lowest] using least_snoc settled.least x
  · rw [ends.lastMarker]
    simpa only [PSquare.shift, highest] using greatest_snoc settled.greatest x
  · rw [ends.n]
    simp [PSquare.shift, settled.counted]
  · have enough := settled.enough
    rw [List.length_append]
    omega
  · rw [ends.initBuf]
    exact settled.full

/-! ## Runs -/

/-- Before the fifth observation the estimator only buffers. -/
def buffering (p : ℚ) (seen : List ℚ) : PSquareQuantile :=
  { PSquareQuantile.new p with n := seen.length, initBuf := seen }

theorem observe_few {s : PSquareQuantile} (few : s.initBuf.length < 5) (x : ℚ) :
    observe s x = some (buffer { s with n := s.n + 1 } x) := if_pos few

theorem buffer_short {s : PSquareQuantile} {x : ℚ} (short : (s.initBuf ++ [x]).length ≠ 5) :
    buffer s x = { s with initBuf := s.initBuf ++ [x] } := if_neg short

theorem buffer_five {s : PSquareQuantile} {x : ℚ} (five : (s.initBuf ++ [x]).length = 5) :
    buffer s x = { s with
      initBuf := s.initBuf ++ [x]
      markers := fun i => ((s.initBuf ++ [x]).insertionSort (· ≤ ·))[i.val]?.getD 0 } := if_pos five

theorem observe_buffering (p : ℚ) {seen : List ℚ} (few : seen.length < 4) (x : ℚ) :
    observe (buffering p seen) x = some (buffering p (seen ++ [x])) := by
  have short : (seen ++ [x]).length ≠ 5 := by
    rw [List.length_append, List.length_singleton]
    omega
  have counted : seen.length + 1 = (seen ++ [x]).length := by
    rw [List.length_append, List.length_singleton]
  rw [observe_few (Nat.lt_succ_of_lt few), buffer_short short]
  simp only [buffering, counted]

theorem sorted_markers {seen : List ℚ} (five : seen.length = 5) {m : Fin 5 → ℚ}
    (sorted : m = fun i => (seen.insertionSort (· ≤ ·))[i.val]?.getD 0) :
    Monotone m ∧ IsLeast {x | x ∈ seen} (m 0) ∧ IsGreatest {x | x ∈ seen} (m 4) := by
  have length : (seen.insertionSort (· ≤ ·)).length = 5 := by
    rw [List.length_insertionSort, five]
  have marker : ∀ i : Fin 5, m i = (seen.insertionSort (· ≤ ·))[i.val] := by
    intro i
    simp only [sorted]
    rw [List.getElem?_eq_getElem (by omega)]
    rfl
  have order := List.pairwise_iff_getElem.mp (List.pairwise_insertionSort (· ≤ ·) seen)
  have mono : Monotone m := by
    intro a b below
    rcases below.eq_or_lt with rfl | less
    · exact le_rfl
    · rw [marker a, marker b]
      exact order a.val b.val (by omega) (by omega) less
  have listed : ∀ i, m i ∈ seen := by
    intro i
    rw [marker i]
    exact (List.mem_insertionSort (· ≤ ·)).mp (List.getElem_mem _)
  have found : ∀ x ∈ seen, ∃ i, m i = x := by
    intro x member
    obtain ⟨i, inside, same⟩ :=
      List.getElem_of_mem ((List.mem_insertionSort (· ≤ ·)).mpr member)
    exact ⟨⟨i, by omega⟩, by rw [marker]; exact same⟩
  refine ⟨mono, ⟨listed 0, ?_⟩, ⟨listed 4, ?_⟩⟩
  · rintro x member
    obtain ⟨i, rfl⟩ := found x member
    exact mono (Fin.zero_le i)
  · rintro x member
    obtain ⟨i, rfl⟩ := found x member
    exact mono (Fin.le_last i)

theorem buffering_positions (p : ℚ) (seen : List ℚ) (i : Fin 5) :
    (buffering p seen).positions i = (i.val + 1 : ℕ) := by
  fin_cases i <;> norm_num [buffering, PSquareQuantile.new]

theorem observe_fifth (p : ℚ) {seen : List ℚ} (four : seen.length = 4) (x : ℚ) :
    ∃ s, observe (buffering p seen) x = some s ∧ Settled (seen ++ [x]) s := by
  have room : (buffering p seen).initBuf.length < 5 := four.trans_lt (by decide)
  have five : (seen ++ [x]).length = 5 := by
    rw [List.length_append, List.length_singleton]
    omega
  obtain ⟨mono, least, greatest⟩ := sorted_markers five rfl
  refine ⟨_, (observe_few room x).trans (congrArg some (buffer_five five)), ?_⟩
  refine ⟨⟨?_, ?_, mono⟩, rfl, ?_, least, greatest, ?_, five.ge, five⟩
  · intro a b less
    change (buffering p seen).positions a < (buffering p seen).positions b
    rw [buffering_positions, buffering_positions]
    exact_mod_cast Nat.succ_lt_succ less
  · intro i
    change ∃ z : ℤ, (buffering p seen).positions i = z
    exact ⟨(i.val + 1 : ℕ), by rw [buffering_positions]; norm_cast⟩
  · rw [five]
    rfl
  · rw [five]
    exact congrArg (· + 1) four

theorem observeAll_few (p : ℚ) {xs : List ℚ} (few : xs.length < 5) :
    observeAll (.new p) xs = some (buffering p xs) := by
  induction xs using List.reverseRecOn with
  | nil => rfl
  | append_singleton before x ih =>
    rw [List.length_append, List.length_singleton] at few
    have start := ih (by omega)
    rw [observeAll] at start ⊢
    rw [List.foldlM_append, start]
    simpa using observe_buffering p (by omega) x

theorem observeAll_settled (p : ℚ) {xs : List ℚ} (enough : 5 ≤ xs.length) :
    ∃ s, observeAll (.new p) xs = some s ∧ Settled xs s := by
  induction xs using List.reverseRecOn with
  | nil => simp at enough
  | append_singleton before x ih =>
    have append : ∀ s, observeAll (.new p) before = some s →
        observeAll (.new p) (before ++ [x]) = observe s x := by
      intro s start
      rw [observeAll] at start ⊢
      rw [List.foldlM_append, start]
      simp
    rw [List.length_append, List.length_singleton] at enough
    by_cases later : 5 ≤ before.length
    · obtain ⟨s, start, settled⟩ := ih later
      rw [append s start]
      exact settled.observe x
    · rw [append _ (observeAll_few p (by omega))]
      exact observe_fifth p (by omega) x

/-- After at least five observations no division was by zero, the positions run strictly from one
to the number of observations, and the heights from the least observation to the greatest. -/
theorem markers_ordered (p : ℚ) (xs : List ℚ) (enough : 5 ≤ xs.length) :
    ∃ s q, observeAll (.new p) xs = some s ∧
      StrictMono s.positions ∧ s.positions 0 = 1 ∧ s.positions 4 = xs.length ∧
      Monotone s.markers ∧ IsLeast {x | x ∈ xs} (s.markers 0) ∧
      IsGreatest {x | x ∈ xs} (s.markers 4) ∧
      quantile s = some q ∧ s.markers 0 ≤ q ∧ q ≤ s.markers 4 := by
  obtain ⟨s, run, settled⟩ := observeAll_settled p enough
  have mono := settled.ordered.markers
  have several : ¬ s.n < 5 := by
    rw [settled.counted]
    omega
  exact ⟨s, s.markers 2, run, settled.ordered.positions, settled.first, settled.last, mono,
    settled.least, settled.greatest, if_neg several, mono (by decide), mono (by decide)⟩

theorem median_of_six : ∃ s q, observeAll (.new (1 / 2)) [5, 1, 4, 2, 3, 9] = some s ∧
    StrictMono s.positions ∧ quantile s = some q ∧ 1 ≤ q ∧ q ≤ 9 := by
  obtain ⟨s, q, run, positions, -, -, -, least, greatest, estimate, low, high⟩ :=
    markers_ordered (1 / 2) [5, 1, 4, 2, 3, 9] (by decide)
  have first : s.markers 0 ∈ ([5, 1, 4, 2, 3, 9] : List ℚ) := least.1
  have last : s.markers 4 ∈ ([5, 1, 4, 2, 3, 9] : List ℚ) := greatest.1
  have bounds : ∀ x ∈ ([5, 1, 4, 2, 3, 9] : List ℚ), 1 ≤ x ∧ x ≤ 9 := by decide +kernel
  exact ⟨s, q, run, positions, estimate, (bounds _ first).1.trans low, high.trans (bounds _ last).2⟩

end PSquare
