import Mathlib.Data.List.Basic

/-!
# Streams that answer in short reads

What arrives on a stream is cut into chunks, and reads may be interrupted between
them. A loop that reads an exact number of items gives up at an interruption; it
sees the end of the stream when a read returns nothing.
-/

namespace ShortReads

universe u

variable {α : Type u}

/-- A chunk is not empty: an empty read means the end. -/
inductive Arrival (α : Type u) where
  | chunk (first : α) (rest : List α)
  | interrupted
  deriving DecidableEq, Repr

inductive ReadError where
  | interrupted
  | unexpectedEof
  deriving DecidableEq, Repr

def Arrival.content : Arrival α → List α
  | .chunk first rest => first :: rest
  | .interrupted => []

/-- All that will be read. -/
def content (arrivals : List (Arrival α)) : List α := arrivals.flatMap Arrival.content

/-- How much arrives before the first interruption. -/
def interruptedAt : List (Arrival α) → Option Nat
  | [] => none
  | .interrupted :: _ => some 0
  | .chunk _ rest :: later => (interruptedAt later).map (rest.length + 1 + ·)

/-- What a read leaves of a chunk comes first in the next read. -/
def putBack (left : List α) (later : List (Arrival α)) : List (Arrival α) :=
  match left with
  | [] => later
  | first :: rest => .chunk first rest :: later

/-- One read into a buffer with some room. -/
def read (room : Nat) : List (Arrival α) → List (Arrival α) × Except ReadError (List α)
  | [] => ([], .ok [])
  | .interrupted :: later => (later, .error .interrupted)
  | .chunk first rest :: later =>
    (putBack ((first :: rest).drop room) later, .ok ((first :: rest).take room))

/-- Reads until `need` items are in the buffer; `none` is the end before the first of them. -/
def readExact (need : Nat) (buf : List α) (arrivals : List (Arrival α)) :
    List (Arrival α) × Except ReadError (Option (List α)) :=
  if need = 0 then (arrivals, .ok (some buf))
  else
    match read need arrivals with
    | (later, .error e) => (later, .error e)
    | (later, .ok []) => (later, if buf.isEmpty then .ok none else .error .unexpectedEof)
    | (later, .ok (first :: rest)) =>
      readExact (need - (rest.length + 1)) (buf ++ first :: rest) later
termination_by need
decreasing_by omega

/-! ## One read -/

@[simp]
theorem content_chunk (first : α) (rest : List α) (later : List (Arrival α)) :
    content (.chunk first rest :: later) = first :: rest ++ content later := rfl

theorem content_putBack (left : List α) (later : List (Arrival α)) :
    content (putBack left later) = left ++ content later := by
  cases left <;> rfl

theorem interruptedAt_putBack (left : List α) (later : List (Arrival α)) :
    interruptedAt (putBack left later) = (interruptedAt later).map (left.length + ·) := by
  cases left with
  | nil => simp [putBack]
  | cons first rest => rfl

/-! ## The loop -/

@[simp]
theorem readExact_zero (buf : List α) (arrivals : List (Arrival α)) :
    readExact 0 buf arrivals = (arrivals, .ok (some buf)) := by
  rw [readExact, if_pos rfl]

theorem readExact_nil {need : Nat} (some : need ≠ 0) (buf : List α) :
    readExact need buf [] =
      ([], if buf.isEmpty then .ok none else .error .unexpectedEof) := by
  rw [readExact, if_neg some]
  rfl

theorem readExact_interrupted {need : Nat} (some : need ≠ 0) (buf : List α)
    (later : List (Arrival α)) :
    readExact need buf (.interrupted :: later) = (later, .error .interrupted) := by
  rw [readExact, if_neg some]
  rfl

/-- The chunk holds what is left to read. -/
theorem readExact_last {need : Nat} (buf : List α) {first : α} {rest : List α}
    (later : List (Arrival α)) (enough : need ≤ rest.length + 1) :
    readExact need buf (.chunk first rest :: later) =
      (putBack ((first :: rest).drop need) later,
        .ok (some (buf ++ (first :: rest).take need))) := by
  cases need with
  | zero => simp [putBack]
  | succ need =>
    have taken : need + 1 - ((rest.take need).length + 1) = 0 := by
      rw [List.length_take]
      omega
    rw [readExact, if_neg (Nat.succ_ne_zero need)]
    simp only [read, List.take_succ_cons, taken, readExact_zero]

/-- The chunk is read whole, and the loop goes on. -/
theorem readExact_more {need : Nat} (buf : List α) {first : α} {rest : List α}
    (later : List (Arrival α)) (more : rest.length + 1 ≤ need) :
    readExact need buf (.chunk first rest :: later) =
      readExact (need - (rest.length + 1)) (buf ++ first :: rest) later := by
  have whole : (first :: rest).take need = first :: rest :=
    List.take_of_length_le (by simpa using more)
  have none : (first :: rest).drop need = [] := List.drop_of_length_le (by simpa using more)
  rw [readExact, if_neg (by omega)]
  simp only [read, whole, none]
  rfl

/-- With enough to come before the first interruption the loop reads exactly that much. -/
theorem readExact_enough {need : Nat} {arrivals : List (Arrival α)}
    (enough : need ≤ (content arrivals).length)
    (calm : ∀ k, interruptedAt arrivals = some k → need ≤ k) (buf : List α) :
    ∃ later, readExact need buf arrivals =
        (later, .ok (some (buf ++ (content arrivals).take need))) ∧
      content later = (content arrivals).drop need ∧
      interruptedAt later = (interruptedAt arrivals).map (· - need) := by
  induction arrivals generalizing need buf with
  | nil =>
    have none : need = 0 := Nat.le_zero.mp enough
    subst none
    exact ⟨[], by simp, rfl, rfl⟩
  | cons arrival later ih =>
    cases arrival with
    | interrupted =>
      have none : need = 0 := Nat.le_zero.mp (calm 0 rfl)
      subst none
      exact ⟨_, by simp, rfl, rfl⟩
    | chunk first rest =>
      by_cases last : need ≤ rest.length + 1
      · refine ⟨putBack ((first :: rest).drop need) later, ?_, ?_, ?_⟩
        · rw [readExact_last buf later last, content_chunk,
            List.take_append_of_le_length (by simpa using last)]
        · rw [content_putBack, content_chunk, List.drop_append_of_le_length (by simpa using last)]
        · rw [interruptedAt_putBack, interruptedAt, Option.map_map]
          congr 1
          funext k
          simp only [List.length_drop, List.length_cons, Function.comp_apply]
          omega
      · rw [content_chunk, List.length_append, List.length_cons] at enough
        have calm' : ∀ k, interruptedAt later = some k → need - (rest.length + 1) ≤ k := by
          intro k found
          have far := calm (rest.length + 1 + k) (by rw [interruptedAt, found]; rfl)
          omega
        have whole : (first :: rest).take need = first :: rest :=
          List.take_of_length_le (by rw [List.length_cons]; omega)
        have none : (first :: rest).drop need = [] :=
          List.drop_of_length_le (by rw [List.length_cons]; omega)
        obtain ⟨left, ended, remains, position⟩ :=
          @ih (need - (rest.length + 1)) (by omega) calm' (buf ++ first :: rest)
        refine ⟨left, ?_, ?_, ?_⟩
        · rw [readExact_more buf later (by omega), ended, content_chunk, List.take_append, whole,
            List.append_assoc, List.length_cons]
        · rw [remains, content_chunk, List.drop_append, none, List.nil_append, List.length_cons]
        · rw [position, interruptedAt, Option.map_map]
          congr 1
          funext k
          simp only [Function.comp_apply]
          omega

/-- Otherwise it fails, unless the stream ends, undisturbed, before the first item. -/
theorem readExact_short {need : Nat} {arrivals : List (Arrival α)} (some : need ≠ 0)
    (short : (content arrivals).length < need ∨ ∃ k < need, interruptedAt arrivals = .some k)
    (buf : List α) :
    (∃ later e, readExact need buf arrivals = (later, .error e)) ∨
      (buf = [] ∧ content arrivals = [] ∧ interruptedAt arrivals = none ∧
        readExact need buf arrivals = ([], .ok none)) := by
  induction arrivals generalizing need buf with
  | nil =>
    rw [readExact_nil some]
    cases buf with
    | nil => exact Or.inr ⟨rfl, rfl, rfl, rfl⟩
    | cons b buf => exact Or.inl ⟨[], .unexpectedEof, rfl⟩
  | cons arrival later ih =>
    cases arrival with
    | interrupted => exact Or.inl ⟨later, .interrupted, readExact_interrupted some buf later⟩
    | chunk first rest =>
      have long : rest.length + 1 < need := by
        rcases short with short | ⟨k, below, found⟩
        · rw [content_chunk, List.length_append, List.length_cons] at short
          omega
        · rw [interruptedAt] at found
          obtain ⟨j, -, rfl⟩ := Option.map_eq_some_iff.mp found
          omega
      have short' : (content later).length < need - (rest.length + 1) ∨
          ∃ k < need - (rest.length + 1), interruptedAt later = .some k := by
        rcases short with short | ⟨k, below, found⟩
        · rw [content_chunk, List.length_append, List.length_cons] at short
          exact Or.inl (by omega)
        · rw [interruptedAt] at found
          obtain ⟨j, position, rfl⟩ := Option.map_eq_some_iff.mp found
          exact Or.inr ⟨j, by omega, position⟩
      rw [readExact_more buf later (Nat.le_of_lt long)]
      rcases ih (by omega) short' (buf ++ first :: rest) with failed | ⟨empty, -⟩
      · exact Or.inl failed
      · simp at empty

end ShortReads
