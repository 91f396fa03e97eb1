import AnimaOS.Machine
import Mathlib.Data.List.DropRight
import Mathlib.Data.List.Enum

/-!
# Framing of a byte stream into lines

A transport reader appends what arrived to its buffer and drains the complete
lines. Only what follows the last line break stays, so the lines do not depend on
how the stream was cut.
-/

namespace LineFraming

open Machine

def newline : UInt8 := 0x0a

def trimReturns (text : String) : String :=
  String.ofList (text.toList.rdropWhile (· = '\r'))

/-- The line that a terminated piece gives: none when it is not UTF-8 or empty. -/
def readLine (piece : List UInt8) : Option String :=
  match String.fromUTF8? ⟨piece.toArray⟩ with
  | none => none
  | some text => if (trimReturns text).isEmpty then none else some (trimReturns text)

structure Draining where
  lines : List String
  start : Nat
  consumed : Nat

def drainByte (buffer : List UInt8) (d : Draining) (byte : UInt8 × Nat) : Draining :=
  if byte.1 = newline then
    { lines := d.lines ++ (readLine ((buffer.take byte.2).drop d.start)).toList
      start := byte.2 + 1
      consumed := byte.2 + 1 }
  else d

def scan (buffer : List UInt8) : Draining :=
  buffer.zipIdx.foldl (drainByte buffer) ⟨[], 0, 0⟩

/-- The complete lines of a buffer and what is left in it. -/
def drainLines (buffer : List UInt8) : List String × List UInt8 :=
  let d := scan buffer
  (d.lines, if 0 < d.consumed then buffer.drop d.consumed else buffer)

/-- A reader's lines so far and its buffer, after one more chunk arrived. -/
def receive (reader : List String × List UInt8) (chunk : List UInt8) : List String × List UInt8 :=
  let drained := drainLines (reader.2 ++ chunk)
  (reader.1 ++ drained.1, drained.2)

/-! ## Reading byte by byte -/

/-- The reader that keeps the partial line only. -/
def takeByte (partialLine : List UInt8) (byte : UInt8) : List UInt8 × Option String :=
  if byte = newline then ([], readLine partialLine) else (partialLine ++ [byte], none)

def linesOf (partialLine stream : List UInt8) : List String :=
  (trace takeByte partialLine stream).filterMap Call.response

theorem linesOf_append (partialLine stream more : List UInt8) :
    linesOf partialLine (stream ++ more) =
      linesOf partialLine stream ++ linesOf (final takeByte partialLine stream) more := by
  rw [linesOf, trace_append, List.filterMap_append]
  rfl

theorem linesOf_snoc (partialLine stream : List UInt8) (byte : UInt8) :
    linesOf partialLine (stream ++ [byte]) =
      linesOf partialLine stream ++
        (takeByte (final takeByte partialLine stream) byte).2.toList := by
  rw [linesOf_append]
  cases answer : (takeByte (final takeByte partialLine stream) byte).2 <;>
    simp [linesOf, trace, answer]

/-- Nothing is a line before its line break arrived. -/
theorem partial_kept {partialLine : List UInt8} (unbroken : newline ∉ partialLine) :
    linesOf [] partialLine = [] ∧ final takeByte [] partialLine = partialLine := by
  induction partialLine using List.reverseRecOn with
  | nil => exact ⟨rfl, rfl⟩
  | append_singleton earlier byte ih =>
    have parts := not_or.mp (List.mem_append.not.mp unbroken)
    obtain ⟨quiet, whole⟩ := ih parts.1
    have plain : byte ≠ newline := fun same => parts.2 (List.mem_singleton.mpr same.symm)
    constructor
    · rw [linesOf_snoc, quiet, takeByte, if_neg plain]
      rfl
    · rw [final_snoc, whole, takeByte, if_neg plain]

theorem final_unbroken (stream : List UInt8) : newline ∉ final takeByte [] stream := by
  have keeps : ∀ partialLine byte, newline ∉ partialLine →
      newline ∉ (takeByte partialLine byte).1 := by
    intro partialLine byte unbroken
    rw [takeByte]
    split
    · exact List.not_mem_nil
    · rename_i plain
      intro inside
      rcases List.mem_append.mp inside with earlier | last
      · exact unbroken earlier
      · exact plain (List.mem_singleton.mp last).symm
  exact final_invariant keeps List.not_mem_nil stream

/-! ## The scan of the buffer -/

/-- What the scan holds after the bytes before the given index. -/
structure Scanned (buffer : List UInt8) (n : Nat) (d : Draining) : Prop where
  lines : d.lines = linesOf [] (buffer.take n)
  rest : (buffer.take n).drop d.start = final takeByte [] (buffer.take n)
  consumed : d.consumed = d.start
  within : d.start ≤ n

theorem Scanned.step {buffer : List UInt8} {n : Nat} {d : Draining} (scanned : Scanned buffer n d)
    (room : n < buffer.length) : Scanned buffer (n + 1) (drainByte buffer d (buffer[n], n)) := by
  have grown : buffer.take (n + 1) = buffer.take n ++ [buffer[n]] :=
    List.take_succ_eq_append_getElem room
  have size : (buffer.take n).length = n := List.length_take_of_le room.le
  by_cases ends : buffer[n] = newline
  · rw [drainByte, if_pos ends]
    refine ⟨?_, ?_, rfl, le_rfl⟩
    · rw [grown, linesOf_snoc, scanned.rest, scanned.lines, takeByte, if_pos ends]
    · rw [grown, final_snoc, takeByte, if_pos ends, List.drop_eq_nil_iff, List.length_append, size]
      exact le_rfl
  · rw [drainByte, if_neg ends]
    refine ⟨?_, ?_, scanned.consumed, scanned.within.trans (Nat.le_succ n)⟩
    · rw [grown, linesOf_snoc, scanned.lines, takeByte, if_neg ends]
      simp
    · have inside : d.start ≤ (buffer.take n).length := by
        rw [size]
        exact scanned.within
      rw [grown, final_snoc, takeByte, if_neg ends, List.drop_append_of_le_length inside,
        scanned.rest]

theorem scan_scanned (buffer : List UInt8) : Scanned buffer buffer.length (scan buffer) := by
  have upTo : ∀ n ≤ buffer.length,
      Scanned buffer n ((buffer.zipIdx.take n).foldl (drainByte buffer) ⟨[], 0, 0⟩) := by
    intro n
    induction n with
    | zero => exact fun _ => ⟨rfl, rfl, rfl, le_rfl⟩
    | succ n ih =>
      intro room
      have index : n < buffer.zipIdx.length := by
        rw [List.length_zipIdx]
        omega
      have next := (ih (by omega)).step (by omega)
      rw [List.take_succ_eq_append_getElem index, List.foldl_append]
      simpa using next
  have whole := upTo buffer.length le_rfl
  rwa [List.take_of_length_le (List.length_zipIdx).le] at whole

theorem drainLines_eq (buffer : List UInt8) :
    drainLines buffer = (linesOf [] buffer, final takeByte [] buffer) := by
  obtain ⟨lines, rest, consumed, -⟩ := scan_scanned buffer
  rw [List.take_length] at lines rest
  have left : (if 0 < (scan buffer).consumed then buffer.drop (scan buffer).consumed else buffer) =
      final takeByte [] buffer := by
    rw [← rest, consumed]
    split
    · rfl
    · rename_i start
      have none : (scan buffer).start = 0 := by omega
      rw [none, List.drop_zero]
  rw [drainLines, lines, left]

/-! ## Cut streams -/

/-- Draining a buffer and later what was left of it with more is draining both at once. -/
theorem drainLines_append (buffer chunk : List UInt8) :
    receive (drainLines buffer) chunk = drainLines (buffer ++ chunk) := by
  have kept := partial_kept (final_unbroken buffer)
  have unread : linesOf [] (final takeByte [] buffer ++ chunk) =
      linesOf (final takeByte [] buffer) chunk := by
    rw [linesOf_append, kept.1, kept.2, List.nil_append]
  have same : final takeByte [] (final takeByte [] buffer ++ chunk) =
      final takeByte (final takeByte [] buffer) chunk := by
    rw [final_append, kept.2]
  simp only [receive, drainLines_eq]
  rw [linesOf_append [] buffer, final_append takeByte [] buffer, unread, same]

/-- The lines delivered and the bytes left do not depend on how the stream was cut. -/
theorem receive_chunks (chunks : List (List UInt8)) :
    chunks.foldl receive ([], []) = drainLines chunks.flatten := by
  induction chunks using List.reverseRecOn with
  | nil => rfl
  | append_singleton earlier chunk ih =>
    rw [List.foldl_append, ih, List.flatten_append]
    simpa using drainLines_append earlier.flatten chunk

example : drainLines "one\ntwo\r\nthr".toUTF8.toList = (["one", "two"], "thr".toUTF8.toList) := by
  decide +kernel

end LineFraming
