import Mathlib.Data.List.Basic

/-!
# Reading a text line by line

The lines of a text as a buffered reader gives them: a final line break ends a
line rather than starting an empty one, and a carriage return before a line
break belongs to it.
-/

namespace TextLines

def dropReturn (line : List Char) : List Char :=
  if line.getLast? = some '\r' then line.dropLast else line

/-- The lines of a text whose first line starts with what `line` holds already. -/
def linesFrom (line : List Char) : List Char → List (List Char)
  | [] => if line = [] then [] else [line]
  | c :: rest =>
    if c = '\n' then dropReturn line :: linesFrom [] rest else linesFrom (line ++ [c]) rest

def lines (text : List Char) : List (List Char) := linesFrom [] text

def unlines (pieces : List (List Char)) : List Char := pieces.flatMap fun line => line ++ ['\n']

/-- A text without a line break of its own. -/
def Unbroken (line : List Char) : Prop := '\n' ∉ line ∧ '\r' ∉ line

theorem unlines_snoc (pieces : List (List Char)) (line : List Char) :
    unlines (pieces ++ [line]) = unlines pieces ++ line ++ ['\n'] := by
  simp [unlines]

theorem dropReturn_unbroken {line : List Char} (plain : Unbroken line) : dropReturn line = line := by
  apply if_neg
  intro last
  exact plain.2 (List.mem_of_getLast? last)

theorem linesFrom_line {line : List Char} (plain : '\n' ∉ line) (start rest : List Char) :
    linesFrom start (line ++ '\n' :: rest) = dropReturn (start ++ line) :: linesFrom [] rest := by
  induction line generalizing start with
  | nil => simp [linesFrom]
  | cons c line ih =>
    have different : ¬ c = '\n' := fun same => plain (same ▸ List.mem_cons_self)
    have tail := ih (fun later => plain (List.mem_cons_of_mem c later)) (start ++ [c])
    rw [List.append_assoc, List.singleton_append] at tail
    rw [List.cons_append, linesFrom, if_neg different, tail]

theorem lines_unlines {pieces : List (List Char)} (plain : ∀ line ∈ pieces, Unbroken line) :
    lines (unlines pieces) = pieces := by
  induction pieces with
  | nil => rfl
  | cons line rest ih =>
    have first := plain line List.mem_cons_self
    have split : unlines (line :: rest) = line ++ '\n' :: unlines rest := by
      simp [unlines]
    rw [split, lines, linesFrom_line first.1, List.nil_append, dropReturn_unbroken first]
    exact congrArg (line :: ·) (ih fun l later => plain l (List.mem_cons_of_mem line later))

end TextLines
