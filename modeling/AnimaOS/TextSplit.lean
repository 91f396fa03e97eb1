import Mathlib.Data.List.Basic
import Mathlib.Data.List.Induction
import Mathlib.Data.List.TakeWhile

/-!
# Cutting texts at delimiters

A text is a list over any alphabet. The functions follow the string operations
of the same names: they give the slices around the first or the last match, and a
text of characters in lower case.
-/

namespace TextSplit

universe u

variable {α : Type u} [DecidableEq α]

def splitOnce (pattern : List α) : List α → Option (List α × List α)
  | [] => if pattern = [] then some ([], []) else none
  | c :: rest =>
    if pattern.isPrefixOf (c :: rest) then some ([], (c :: rest).drop pattern.length)
    else (splitOnce pattern rest).map fun (before, after) => (c :: before, after)

def stripPrefix (head text : List α) : Option (List α) :=
  if head <+: text then some (text.drop head.length) else none

def rsplitOnce (c : α) (text : List α) : Option (List α × List α) :=
  (splitOnce [c] text.reverse).map fun (after, before) => (before.reverse, after.reverse)

/-- A split at the first matches that gives at most `n` slices, the rest in the last one. -/
def splitn (c : α) : Nat → List α → List (List α)
  | 0, _ => []
  | 1, text => [text]
  | n + 2, text =>
    match splitOnce [c] text with
    | some (before, after) => before :: splitn c (n + 1) after
    | none => [text]

/-- The first item of a split at every `c`. -/
def firstPiece (c : α) (text : List α) : List α := text.takeWhile fun a => a ≠ c

def trimStart (c : α) (text : List α) : List α := text.dropWhile fun a => a = c

def trimEnd (c : α) (text : List α) : List α := (trimStart c text.reverse).reverse

def toAsciiLowercase (text : List Char) : List Char := text.map Char.toLower

theorem stripPrefix_append (head rest : List α) : stripPrefix head (head ++ rest) = some rest := by
  rw [stripPrefix, if_pos (List.prefix_append head rest), List.drop_left]

theorem stripPrefix_some {head text rest : List α} (h : stripPrefix head text = some rest) :
    text = head ++ rest := by
  rw [stripPrefix] at h
  split at h
  · rename_i starts
    obtain ⟨after, rfl⟩ := starts
    rw [List.drop_left] at h
    rw [Option.some.inj h]
  · cases h

theorem stripPrefix_none {head text : List α} (misses : ∀ rest, text ≠ head ++ rest) :
    stripPrefix head text = none := by
  cases h : stripPrefix head text with
  | none => rfl
  | some rest => exact absurd (stripPrefix_some h) (misses rest)

theorem stripPrefix_head (c : α) (rest : List α) : stripPrefix [c] (c :: rest) = some rest := by
  simp [stripPrefix]

theorem stripPrefix_other {c d : α} (apart : c ≠ d) (rest : List α) :
    stripPrefix [c] (d :: rest) = none := by
  simp [stripPrefix, apart]

theorem splitOnce_first {c : α} {pattern before : List α} (fresh : c ∉ before) (after : List α) :
    splitOnce (c :: pattern) (before ++ (c :: pattern) ++ after) = some (before, after) := by
  induction before with
  | nil => simp [splitOnce]
  | cons a before ih =>
    have different : ¬ c = a := fun h => fresh (h ▸ List.mem_cons_self)
    have rest := ih fun h => fresh (List.mem_cons_of_mem _ h)
    simp only [List.cons_append, List.append_assoc] at rest ⊢
    simp [splitOnce, different, rest]

theorem splitOnce_none {c : α} {pattern text : List α} (fresh : c ∉ text) :
    splitOnce (c :: pattern) text = none := by
  induction text with
  | nil => rfl
  | cons a text ih =>
    have different : ¬ c = a := fun h => fresh (h ▸ List.mem_cons_self)
    simp [splitOnce, different, ih fun h => fresh (List.mem_cons_of_mem _ h)]

theorem splitOnce_char {c : α} {before : List α} (fresh : c ∉ before) (after : List α) :
    splitOnce [c] (before ++ c :: after) = some (before, after) := by
  simpa using @splitOnce_first α _ c [] before fresh after

theorem splitOnce_char_some {c : α} {text before after : List α} :
    splitOnce [c] text = some (before, after) ↔ text = before ++ c :: after ∧ c ∉ before := by
  constructor
  · intro h
    by_cases found : c ∈ text
    · obtain ⟨first, rest, rfl, fresh⟩ := List.eq_append_cons_of_mem found
      rw [splitOnce_char fresh] at h
      cases h
      exact ⟨rfl, fresh⟩
    · rw [splitOnce_none found] at h
      cases h
  · rintro ⟨rfl, fresh⟩
    exact splitOnce_char fresh after

theorem splitn_first {c : α} {before : List α} (fresh : c ∉ before) (n : Nat) (after : List α) :
    splitn c (n + 2) (before ++ c :: after) = before :: splitn c (n + 1) after := by
  rw [splitn, splitOnce_char fresh]

/-- Only the last slice can hold the delimiter. -/
theorem splitn_fresh {c : α} {n : Nat} {text piece : List α}
    (listed : piece ∈ (splitn c n text).dropLast) : c ∉ piece := by
  induction n, text using splitn.induct c with
  | case1 text => cases listed
  | case2 text => cases listed
  | case3 n text before after cut ih =>
    rw [splitn, cut, List.dropLast_cons_of_ne_nil] at listed
    · rcases List.mem_cons.mp listed with rfl | later
      · exact (splitOnce_char_some.mp cut).2
      · exact ih later
    · cases n with
      | zero => exact List.cons_ne_nil _ _
      | succ n =>
        rw [splitn]
        split <;> exact List.cons_ne_nil _ _
  | case4 n text none =>
    rw [splitn, none] at listed
    cases listed

theorem rsplitOnce_last {c : α} {after : List α} (fresh : c ∉ after) (before : List α) :
    rsplitOnce c (before ++ c :: after) = some (before, after) := by
  have reversed : (before ++ c :: after).reverse = after.reverse ++ c :: before.reverse := by
    simp
  rw [rsplitOnce, reversed, splitOnce_char (by simpa using fresh)]
  simp

theorem rsplitOnce_none {c : α} {text : List α} (fresh : c ∉ text) :
    rsplitOnce c text = none := by
  rw [rsplitOnce, splitOnce_none (by simpa using fresh), Option.map_none]

omit [DecidableEq α] in
theorem exists_last {c : α} {text : List α} (h : c ∈ text) :
    ∃ before after, text = before ++ c :: after ∧ c ∉ after := by
  obtain ⟨before, after, split, fresh⟩ := List.eq_append_cons_of_mem (List.mem_reverse.mpr h)
  refine ⟨after.reverse, before.reverse, ?_, by simpa using fresh⟩
  rw [← List.reverse_reverse text, split]
  simp

theorem firstPiece_append {c : α} {text : List α} (fresh : c ∉ text) (rest : List α) :
    firstPiece c (text ++ rest) = text ++ firstPiece c rest := by
  apply List.takeWhile_append_of_pos
  intro a ha
  simp only [ne_eq, decide_not, Bool.not_eq_eq_eq_not, Bool.not_true, decide_eq_false_iff_not]
  rintro rfl
  exact fresh ha

theorem firstPiece_whole {c : α} {text : List α} (fresh : c ∉ text) : firstPiece c text = text := by
  simpa [firstPiece] using firstPiece_append fresh []

theorem firstPiece_stop {c : α} {text : List α} (fresh : c ∉ text) (rest : List α) :
    firstPiece c (text ++ c :: rest) = text := by
  rw [firstPiece_append fresh]
  simp [firstPiece]

theorem firstPiece_inside {c : α} {text : List α} (found : c ∈ text) (rest : List α) :
    firstPiece c (text ++ rest) = firstPiece c text := by
  induction text with
  | nil => cases found
  | cons a text ih =>
    by_cases same : a = c
    · simp [firstPiece, same]
    · have later : c ∈ text := (List.mem_cons.mp found).resolve_left fun first => same first.symm
      simpa [firstPiece, same] using ih later

theorem trimEnd_snoc (c : α) (text : List α) (a : α) :
    trimEnd c (text ++ [a]) = if a = c then trimEnd c text else text ++ [a] := by
  rw [trimEnd, trimStart, List.reverse_append, List.reverse_singleton, List.singleton_append,
    List.dropWhile_cons]
  by_cases same : a = c
  · simp [same, trimEnd, trimStart]
  · simp [same]

theorem trimEnd_getLast (c : α) (text : List α) : (trimEnd c text).getLast? ≠ some c := by
  induction text using List.reverseRecOn with
  | nil => simp [trimEnd, trimStart]
  | append_singleton text a ih =>
    rw [trimEnd_snoc]
    split
    · exact ih
    · rename_i different
      simpa using different

theorem splitOn_fresh {c : α} {text piece : List α} (listed : piece ∈ text.splitOn c) :
    c ∉ piece := by
  induction text generalizing piece with
  | nil =>
    rw [List.splitOn_nil] at listed
    cases List.mem_singleton.mp listed
    exact List.not_mem_nil
  | cons a text ih =>
    rw [List.splitOn_cons_eq_if_modifyHead] at listed
    split at listed
    · rcases List.mem_cons.mp listed with rfl | later
      · exact List.not_mem_nil
      · exact ih later
    · rename_i different
      cases pieces : text.splitOn c with
      | nil => exact absurd pieces (List.splitOn_ne_nil c text)
      | cons first rest =>
        rw [pieces, List.modifyHead_cons] at listed
        rw [pieces] at ih
        rcases List.mem_cons.mp listed with rfl | later
        · intro found
          rcases List.mem_cons.mp found with rfl | found
          · exact different (beq_self_eq_true c)
          · exact ih List.mem_cons_self found
        · exact ih (List.mem_cons_of_mem first later)

theorem splitOn_head (c : α) (text : List α) :
    ∃ pieces, text.splitOn c = firstPiece c text :: pieces := by
  induction text with
  | nil => exact ⟨[], rfl⟩
  | cons a text ih =>
    obtain ⟨pieces, split⟩ := ih
    rw [List.splitOn_cons_eq_if_modifyHead, split]
    by_cases delimiter : a = c
    · exact ⟨firstPiece c text :: pieces, by simp [firstPiece, delimiter]⟩
    · exact ⟨pieces, by simp [firstPiece, delimiter]⟩

/-- Apart from the delimiter nothing is lost in a split. -/
theorem splitOn_mem {a c : α} {text : List α} (found : a ∈ text) (other : a ≠ c) :
    ∃ piece ∈ text.splitOn c, a ∈ piece := by
  induction text with
  | nil => cases found
  | cons b text ih =>
    rw [List.splitOn_cons_eq_if_modifyHead]
    split
    · rename_i delimiter
      have later : a ∈ text := (List.mem_cons.mp found).resolve_left fun same =>
        other (same.trans (eq_of_beq delimiter))
      obtain ⟨piece, listed, inside⟩ := ih later
      exact ⟨piece, List.mem_cons_of_mem _ listed, inside⟩
    · cases pieces : text.splitOn c with
      | nil => exact absurd pieces (List.splitOn_ne_nil c text)
      | cons first rest =>
        rw [List.modifyHead_cons]
        rw [pieces] at ih
        rcases List.mem_cons.mp found with rfl | later
        · exact ⟨a :: first, List.mem_cons_self, List.mem_cons_self⟩
        · obtain ⟨piece, listed, inside⟩ := ih later
          rcases List.mem_cons.mp listed with rfl | listed
          · exact ⟨b :: piece, List.mem_cons_self, List.mem_cons_of_mem b inside⟩
          · exact ⟨piece, List.mem_cons_of_mem _ listed, inside⟩

omit [DecidableEq α] in
theorem not_suffix_last {name text : List α} {a b : α} (last : text.getLast? = some a)
    (ending : name.getLast? = some b) (different : a ≠ b) : ¬ name <:+ text := by
  rintro ⟨before, rfl⟩
  rw [List.getLast?_append, ending] at last
  exact different (Option.some.inj last).symm

/-! ## The first match -/

theorem splitOnce_eq_some {pattern text before after : List α}
    (cut : splitOnce pattern text = some (before, after)) :
    text = before ++ (pattern ++ after) ∧
      ∀ earlier later, text = earlier ++ (pattern ++ later) → before.length ≤ earlier.length := by
  induction text generalizing before with
  | nil =>
    rw [splitOnce] at cut
    split at cut
    · rename_i empty
      obtain ⟨rfl, rfl⟩ := Prod.mk.inj (Option.some.inj cut)
      exact ⟨by simp [empty], fun _ _ _ => Nat.zero_le _⟩
    · cases cut
  | cons c rest ih =>
    rw [splitOnce] at cut
    split at cut
    · rename_i starts
      obtain ⟨rfl, rfl⟩ := Prod.mk.inj (Option.some.inj cut)
      obtain ⟨after, whole⟩ := List.isPrefixOf_iff_prefix.mp starts
      rw [← whole, List.drop_left]
      exact ⟨rfl, fun _ _ _ => Nat.zero_le _⟩
    · rename_i misses
      obtain ⟨⟨before', after'⟩, later_cut, same⟩ := Option.map_eq_some_iff.mp cut
      obtain ⟨rfl, rfl⟩ := Prod.mk.inj same
      obtain ⟨whole, first⟩ := ih later_cut
      refine ⟨congrArg (c :: ·) whole, fun earlier later other => ?_⟩
      cases earlier with
      | nil =>
        have starts : pattern <+: c :: rest := ⟨later, other.symm⟩
        exact absurd (List.isPrefixOf_iff_prefix.mpr starts) misses
      | cons d earlier => exact Nat.succ_le_succ (first earlier later (List.cons.inj other).2)

theorem splitOnce_eq_none {pattern text : List α} (uncut : splitOnce pattern text = none)
    (before after : List α) : text ≠ before ++ (pattern ++ after) := by
  induction text generalizing before with
  | nil =>
    rw [splitOnce] at uncut
    intro whole
    have parts := List.append_eq_nil_iff.mp whole.symm
    rw [if_pos (List.append_eq_nil_iff.mp parts.2).1] at uncut
    cases uncut
  | cons c rest ih =>
    rw [splitOnce] at uncut
    split at uncut
    · cases uncut
    · rename_i misses
      intro whole
      cases before with
      | nil =>
        have starts : pattern <+: c :: rest := ⟨after, whole.symm⟩
        exact misses (List.isPrefixOf_iff_prefix.mpr starts)
      | cons d before =>
        exact ih (Option.map_eq_none_iff.mp uncut) before (List.cons.inj whole).2

/-! ## What follows the first match -/

def afterFirst (pattern text : List α) : Option (List α) := (splitOnce pattern text).map Prod.snd

theorem afterFirst_cons (pattern : List α) (c : α) (text : List α) :
    afterFirst pattern (c :: text) =
      if pattern <+: c :: text then some ((c :: text).drop pattern.length)
      else afterFirst pattern text := by
  simp only [afterFirst, splitOnce, List.isPrefixOf_iff_prefix]
  split
  · rfl
  · cases splitOnce pattern text with
    | none => rfl
    | some cut => rfl

theorem afterFirst_hit (c : α) (pattern after : List α) :
    afterFirst (c :: pattern) (c :: (pattern ++ after)) = some after := by
  simp [afterFirst_cons]

theorem afterFirst_miss {c : α} {pattern text : List α} (miss : ¬ pattern <+: text) :
    afterFirst (c :: pattern) (c :: text) = afterFirst (c :: pattern) text := by
  simp [afterFirst_cons, miss]

theorem afterFirst_skip {c : α} {before : List α} (fresh : c ∉ before) (pattern text : List α) :
    afterFirst (c :: pattern) (before ++ text) = afterFirst (c :: pattern) text := by
  induction before with
  | nil => rfl
  | cons a before ih =>
    have different : ¬ c = a := fun h => fresh (h ▸ List.mem_cons_self)
    rw [List.cons_append, afterFirst_cons, if_neg]
    · exact ih fun h => fresh (List.mem_cons_of_mem _ h)
    · intro starts
      exact different (List.cons_prefix_cons.mp starts).1

/-- The first occurrence of a pattern is the one no other starts before. -/
theorem afterFirst_own {pattern before after : List α}
    (own : ∀ earlier later, before ++ pattern ++ after = earlier ++ pattern ++ later →
      before.length ≤ earlier.length) :
    afterFirst pattern (before ++ pattern ++ after) = some after := by
  induction before with
  | nil =>
    cases pattern with
    | nil =>
      cases after with
      | nil => rfl
      | cons a after => simp [afterFirst_cons]
    | cons c pattern => exact afterFirst_hit c pattern after
  | cons b before ih =>
    have miss : ¬ pattern <+: b :: (before ++ pattern ++ after) := by
      rintro ⟨later, same⟩
      exact absurd (own [] later same.symm) (Nat.not_succ_le_zero _)
    rw [List.cons_append, List.cons_append, afterFirst_cons, if_neg miss]
    refine ih fun earlier later same => ?_
    exact Nat.le_of_succ_le_succ (own (b :: earlier) later (congrArg (b :: ·) same))

/-! ## White space -/

/-- `char::is_whitespace`. -/
def isWhitespace (c : Char) : Bool :=
  let n := c.toNat
  (9 ≤ n ∧ n ≤ 13) || n = 0x20 || n = 0x85 || n = 0xa0 || n = 0x1680 ||
    (0x2000 ≤ n ∧ n ≤ 0x200a) || n = 0x2028 || n = 0x2029 || n = 0x202f || n = 0x205f || n = 0x3000

def splitWhitespace (text : List Char) : List (List Char) :=
  (text.splitOnP isWhitespace).filter fun piece => piece ≠ []

theorem splitWhitespace_word {word : List Char} (solid : ∀ c ∈ word, isWhitespace c = false)
    (nonempty : word ≠ []) {sep : Char} (blank : isWhitespace sep = true) (rest : List Char) :
    splitWhitespace (word ++ sep :: rest) = word :: splitWhitespace rest := by
  rw [splitWhitespace, List.splitOnP_append_cons_of_forall_mem solid sep blank]
  simp [splitWhitespace, nonempty]

def trimStartWhitespace (text : List Char) : List Char := text.dropWhile isWhitespace

def trimWhitespace (text : List Char) : List Char :=
  (trimStartWhitespace (trimStartWhitespace text).reverse).reverse

theorem trimStartWhitespace_cons {c : Char} (solid : isWhitespace c = false) (text : List Char) :
    trimStartWhitespace (c :: text) = c :: text := by
  simp only [trimStartWhitespace, List.dropWhile_cons, solid]
  rfl

theorem trimStartWhitespace_append {blank : List Char} (h : ∀ c ∈ blank, isWhitespace c = true)
    (text : List Char) : trimStartWhitespace (blank ++ text) = trimStartWhitespace text :=
  List.dropWhile_append_of_pos h

theorem trimStartWhitespace_solid {text : List Char} (solid : ∀ c ∈ text, isWhitespace c = false) :
    trimStartWhitespace text = text := by
  cases text with
  | nil => rfl
  | cons c rest => exact trimStartWhitespace_cons (solid c List.mem_cons_self) rest

theorem trimWhitespace_solid {text : List Char} (solid : ∀ c ∈ text, isWhitespace c = false) :
    trimWhitespace text = text := by
  have reversed : ∀ c ∈ text.reverse, isWhitespace c = false := fun c listed =>
    solid c (List.mem_reverse.mp listed)
  rw [trimWhitespace, trimStartWhitespace_solid solid, trimStartWhitespace_solid reversed,
    List.reverse_reverse]

theorem trimWhitespace_ends {c d : Char} (first : isWhitespace c = false)
    (last : isWhitespace d = false) (text : List Char) :
    trimWhitespace (c :: text ++ [d]) = c :: text ++ [d] := by
  rw [trimWhitespace, List.cons_append, trimStartWhitespace_cons first, ← List.cons_append,
    List.reverse_append, List.reverse_singleton, List.singleton_append,
    trimStartWhitespace_cons last]
  simp

/-- What trimming leaves starts and ends without white space. -/
def SolidEnds (text : List Char) : Prop :=
  (∀ c, text.head? = some c → isWhitespace c = false) ∧
    ∀ c, text.getLast? = some c → isWhitespace c = false

theorem trimStartWhitespace_head {text : List Char} {c : Char}
    (first : (trimStartWhitespace text).head? = some c) : isWhitespace c = false := by
  obtain ⟨rest, kept⟩ := List.head?_eq_some_iff.mp first
  have stops := List.head?_dropWhile_not isWhitespace text
  rw [trimStartWhitespace] at kept
  rw [kept] at stops
  simpa using stops

theorem trimStartWhitespace_split (text : List Char) :
    ∃ blank, text = blank ++ trimStartWhitespace text ∧ ∀ c ∈ blank, isWhitespace c = true :=
  ⟨text.takeWhile isWhitespace, List.takeWhile_append_dropWhile.symm,
    fun _ listed => List.mem_takeWhile_imp listed⟩

theorem trimWhitespace_ends_solid (text : List Char) : SolidEnds (trimWhitespace text) := by
  constructor
  · intro c first
    obtain ⟨blank, back, -⟩ := trimStartWhitespace_split (trimStartWhitespace text).reverse
    have whole := congrArg List.reverse back
    rw [List.reverse_reverse, List.reverse_append] at whole
    have stays : (trimStartWhitespace text).head? = some c := by
      rw [whole, List.head?_append, ← trimWhitespace, first, Option.some_or]
    exact trimStartWhitespace_head stays
  · intro c last
    rw [trimWhitespace, List.getLast?_reverse] at last
    exact trimStartWhitespace_head last

theorem trimWhitespace_inside (text : List Char) : trimWhitespace text <:+: text := by
  have front : trimStartWhitespace text <:+ text := List.dropWhile_suffix _
  have back : trimStartWhitespace (trimStartWhitespace text).reverse <:+
      (trimStartWhitespace text).reverse := List.dropWhile_suffix _
  have kept : trimWhitespace text <+: trimStartWhitespace text := by
    rw [← List.reverse_suffix, trimWhitespace, List.reverse_reverse]
    exact back
  exact kept.isInfix.trans front.isInfix

theorem trimStartWhitespace_eq_self {text : List Char}
    (solid : ∀ c, text.head? = some c → isWhitespace c = false) :
    trimStartWhitespace text = text := by
  cases text with
  | nil => rfl
  | cons c rest => exact trimStartWhitespace_cons (solid c rfl) rest

theorem trimWhitespace_eq_self {text : List Char} (solid : SolidEnds text) :
    trimWhitespace text = text := by
  have last : ∀ c, text.reverse.head? = some c → isWhitespace c = false := by
    simpa only [List.head?_reverse] using solid.2
  rw [trimWhitespace, trimStartWhitespace_eq_self solid.1, trimStartWhitespace_eq_self last,
    List.reverse_reverse]

theorem trimWhitespace_trimWhitespace (text : List Char) :
    trimWhitespace (trimWhitespace text) = trimWhitespace text :=
  trimWhitespace_eq_self (trimWhitespace_ends_solid text)

theorem trimStartWhitespace_keeps {core : List Char} (nonempty : core ≠ [])
    (solid : ∀ c, core.head? = some c → isWhitespace c = false) (before after : List Char) :
    ∃ kept, trimStartWhitespace (before ++ (core ++ after)) = kept ++ (core ++ after) := by
  have stays : trimStartWhitespace (core ++ after) = core ++ after := by
    refine trimStartWhitespace_eq_self fun c first => solid c ?_
    cases core with
    | nil => exact absurd rfl nonempty
    | cons d rest => exact first
  rw [trimStartWhitespace] at stays
  rw [trimStartWhitespace, List.dropWhile_append]
  split
  · exact ⟨[], stays⟩
  · exact ⟨_, rfl⟩

/-- Trimming does not reach into a part with solid ends. -/
theorem inside_trimWhitespace {core text : List Char} (inside : core <:+: text)
    (solid : SolidEnds core) : core <:+: trimWhitespace text := by
  obtain ⟨before, after, rfl⟩ := inside
  by_cases empty : core = []
  · subst empty
    exact List.nil_infix
  · have back : ∀ c, core.reverse.head? = some c → isWhitespace c = false := by
      simpa only [List.head?_reverse] using solid.2
    obtain ⟨kept, front⟩ := trimStartWhitespace_keeps empty solid.1 before after
    obtain ⟨kept', rest⟩ := trimStartWhitespace_keeps (mt List.reverse_eq_nil_iff.mp empty) back
      after.reverse kept.reverse
    have turned : (kept ++ (core ++ after)).reverse =
        after.reverse ++ (core.reverse ++ kept.reverse) := by
      simp
    refine ⟨kept, kept'.reverse, ?_⟩
    rw [trimWhitespace, List.append_assoc before, front, turned, rest]
    simp

end TextSplit
