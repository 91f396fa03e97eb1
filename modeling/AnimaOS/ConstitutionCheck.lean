import AnimaOS.TextSplit
import Mathlib.Algebra.GroupWithZero.Nat
import Mathlib.Data.List.Basic
import Mathlib.Data.List.Infix

/-!
# The constitution check

`ConstitutionCheck::screen` over the charter's prohibitions and operator bounds. The
Unicode tables behind lowercasing and `char::is_alphanumeric` are parameters.
-/

namespace ConstitutionCheck

open TextSplit

abbrev Text := List Char

structure Prohibition where
  id : Text
  text : Text
  keywords : List Text

structure Charter where
  prohibitions : List Prohibition
  additionalBounds : List Text

structure ConstitutionProposal where
  intent : Text
  actionText : Text

inductive ClauseLayer
  | core
  | operator
deriving DecidableEq

structure ClauseMatch where
  prohibitionId : Text
  clauseText : Text
  matchedKeyword : Text
  layer : ClauseLayer
deriving DecidableEq

inductive CheckOutcome
  | allow
  | veto (clause : ClauseMatch)
deriving DecidableEq

def CheckOutcome.isVetoed : CheckOutcome → Bool
  | allow => false
  | veto _ => true

/-! ## Matching words -/

def wordTokens (isAlphanumeric : Char → Bool) (s : Text) : List Text :=
  (s.splitOnP fun c => !isAlphanumeric c).filter fun w => w ≠ []

/-- The last word of a keyword is matched by prefix, the others whole. -/
def phrasePresent (textWords kw : List Text) : Bool :=
  if kw.isEmpty || textWords.length < kw.length then false
  else
    let last := kw.length - 1
    (List.range (textWords.length - kw.length + 1)).any fun start =>
      kw.zipIdx.all fun (w, i) => textWords[start + i]?.any fun tw =>
        if i = last then w.isPrefixOf tw else tw = w

/-- Four bytes or more. -/
def meaningful (w : Text) : Bool := 4 ≤ (w.map Char.utf8Size).sum

def plainTextMatch (textWords bound : List Text) : Bool :=
  let words := bound.filter meaningful
  if words.isEmpty then false else words.all fun w => textWords.any fun tw => tw = w

def extractFirstWord (tokens : List Text) : Text :=
  ((tokens.find? meaningful).or tokens.head?).getD []

section Screen

variable (toLowercase : Text → Text) (isAlphanumeric : Char → Bool)

def firstKeywordMatch (textWords : List Text) (prohibition : Prohibition) : Option Text :=
  prohibition.keywords.find? fun kw =>
    phrasePresent textWords (wordTokens isAlphanumeric (toLowercase kw))

/-- The core prohibitions in their order, each with its first keyword found. -/
def screenCore (textWords : List Text) : List Prohibition → Option ClauseMatch
  | [] => none
  | prohibition :: rest =>
    match firstKeywordMatch toLowercase isAlphanumeric textWords prohibition with
    | some kw => some ⟨prohibition.id, prohibition.text, kw, .core⟩
    | none => screenCore textWords rest

/-- The operator bounds; `i` is the number of the first. -/
def screenBounds (textWords : List Text) (i : Nat) : List Text → Option ClauseMatch
  | [] => none
  | bound :: rest =>
    let words := wordTokens isAlphanumeric (toLowercase bound)
    if plainTextMatch textWords words then
      some ⟨'O' :: 'P' :: Nat.toDigits 10 (i + 1), bound, extractFirstWord words, .operator⟩
    else screenBounds textWords (i + 1) rest

def screen (charter : Charter) (proposal : ConstitutionProposal) : CheckOutcome :=
  let combined := toLowercase (proposal.intent ++ ' ' :: proposal.actionText)
  let textWords := wordTokens isAlphanumeric combined
  match screenCore toLowercase isAlphanumeric textWords charter.prohibitions with
  | some clause => .veto clause
  | none =>
    match screenBounds toLowercase isAlphanumeric textWords 0 charter.additionalBounds with
    | some clause => .veto clause
    | none => .allow

end Screen

/-! ## Phrases -/

/-- A run of words that a keyword stands for. -/
inductive PhraseRun : List Text → List Text → Prop
  | last (w rest : Text) : PhraseRun [w] [w ++ rest]
  | cons (w : Text) {kw run : List Text} (tail : PhraseRun kw run) :
      PhraseRun (w :: kw) (w :: run)

def Occurs (kw words : List Text) : Prop := ∃ run, PhraseRun kw run ∧ run <:+: words

theorem PhraseRun.length_eq {kw run : List Text} (h : PhraseRun kw run) :
    run.length = kw.length ∧ 0 < kw.length := by
  induction h with
  | last w rest => exact ⟨rfl, Nat.one_pos⟩
  | cons w _ ih => exact ⟨congrArg (· + 1) ih.1, Nat.succ_pos _⟩

/-- The test at one place of the text, word by word. -/
theorem phraseRun_prefix {kw words : List Text} (nonempty : kw ≠ []) :
    (∀ w i, kw[i]? = some w → ∃ tw, words[i]? = some tw ∧
      if i = kw.length - 1 then w <+: tw else tw = w) ↔
        ∃ run, PhraseRun kw run ∧ run <+: words := by
  induction kw generalizing words with
  | nil => exact absurd rfl nonempty
  | cons v kw ih =>
    cases kw with
    | nil =>
      constructor
      · intro all
        obtain ⟨tw, place, rest, rfl⟩ := all v 0 rfl
        obtain ⟨after, rfl⟩ := List.head?_eq_some_iff.mp (List.head?_eq_getElem?.trans place)
        exact ⟨_, .last v rest, after, rfl⟩
      · rintro ⟨run, found, after, rfl⟩ w i place
        cases found with
        | last v rest =>
          cases i with
          | zero =>
            obtain rfl : v = w := by simpa using place
            exact ⟨v ++ rest, rfl, rest, rfl⟩
          | succ i => simp at place
        | cons v tail => exact absurd tail.length_eq.2 (by simp)
    | cons v' kw =>
      have tails := fun words => @ih words (List.cons_ne_nil v' kw)
      constructor
      · intro all
        obtain ⟨tw, place, same⟩ := all v 0 rfl
        obtain rfl : tw = v := by simpa using same
        obtain ⟨after, rfl⟩ := List.head?_eq_some_iff.mp (List.head?_eq_getElem?.trans place)
        obtain ⟨run, found, rest⟩ := (tails after).mp fun w i later => by
          simpa using all w (i + 1) later
        exact ⟨tw :: run, .cons tw found, List.cons_prefix_cons.mpr ⟨rfl, rest⟩⟩
      · rintro ⟨run, found, after, rfl⟩ w i place
        cases found with
        | cons _ tail =>
          cases i with
          | zero =>
            obtain rfl : v = w := by simpa using place
            exact ⟨v, rfl, by simp⟩
          | succ i =>
            have later := (tails _).mpr ⟨_, tail, after, rfl⟩ w i (by simpa using place)
            simpa using later

theorem occurs_iff_drop {kw words : List Text} :
    Occurs kw words ↔ ∃ start, start + kw.length ≤ words.length ∧
      ∃ run, PhraseRun kw run ∧ run <+: words.drop start := by
  constructor
  · rintro ⟨run, found, before, after, rfl⟩
    refine ⟨before.length, ?_, run, found, after, ?_⟩
    · have same := found.length_eq.1
      simp only [List.length_append]
      omega
    · rw [List.append_assoc, List.drop_left]
  · rintro ⟨start, -, run, found, inside⟩
    exact ⟨run, found, inside.isInfix.trans (List.drop_suffix start words).isInfix⟩

theorem phrasePresent_iff {textWords kw : List Text} :
    phrasePresent textWords kw = true ↔ Occurs kw textWords := by
  rw [occurs_iff_drop, phrasePresent]
  split
  · rename_i short
    refine ⟨fun h => Bool.noConfusion h, ?_⟩
    rintro ⟨start, fits, run, found, -⟩
    have same := found.length_eq
    simp only [Bool.or_eq_true, List.isEmpty_iff, decide_eq_true_eq] at short
    rcases short with rfl | long
    · exact absurd same.2 (by simp)
    · omega
  · rename_i fits
    simp only [Bool.or_eq_true, List.isEmpty_iff, decide_eq_true_eq, not_or, not_lt] at fits
    obtain ⟨nonempty, fits⟩ := fits
    simp only [List.any_eq_true, List.mem_range, List.all_eq_true, Prod.forall,
      List.mk_mem_zipIdx_iff_getElem?, Option.any_eq_true, ← phraseRun_prefix nonempty,
      List.getElem?_drop]
    refine exists_congr fun start => and_congr (by omega) ?_
    refine forall_congr' fun w => forall_congr' fun i => imp_congr_right fun _ =>
      exists_congr fun tw => and_congr_right fun _ => ?_
    split <;> simp [List.isPrefixOf_iff_prefix]

theorem Occurs.mono {kw words more : List Text} (h : Occurs kw words) (inside : words <:+: more) :
    Occurs kw more := by
  obtain ⟨run, found, run_inside⟩ := h
  exact ⟨run, found, run_inside.trans inside⟩

/-- A phrase across the seam of two texts: its first words end the one and its last words
begin the other. -/
def Straddles (kw before after : List Text) : Prop :=
  ∃ front back run, kw = front ++ back ∧ front ≠ [] ∧ front <:+ before ∧
    PhraseRun back run ∧ run <+: after

theorem PhraseRun.split {kw run front back : List Text} (h : PhraseRun kw run)
    (cut : run = front ++ back) (nonempty : back ≠ []) :
    ∃ rest, kw = front ++ rest ∧ PhraseRun rest back := by
  induction h generalizing front with
  | last v rest =>
    cases front with
    | nil =>
      rw [List.nil_append] at cut
      exact ⟨[v], rfl, cut ▸ .last v rest⟩
    | cons w front =>
      have empty : [] = front ++ back := (List.cons.inj cut).2
      exact absurd (List.append_eq_nil_iff.mp empty.symm).2 nonempty
  | cons v tail ih =>
    cases front with
    | nil =>
      rw [List.nil_append] at cut
      exact ⟨_, rfl, cut ▸ .cons v tail⟩
    | cons w front =>
      obtain ⟨rfl, inner⟩ := List.cons.inj cut
      obtain ⟨rest, rfl, found⟩ := ih inner
      exact ⟨rest, rfl, found⟩

theorem PhraseRun.append {back run : List Text} (h : PhraseRun back run) (front : List Text) :
    PhraseRun (front ++ back) (front ++ run) := by
  induction front with
  | nil => exact h
  | cons w front ih => exact .cons w ih

/-- In two texts one after the other a phrase is in the first, in the second, or across. -/
theorem occurs_append {kw before after : List Text} :
    Occurs kw (before ++ after) ↔
      Occurs kw before ∨ Occurs kw after ∨ Straddles kw before after := by
  constructor
  · rintro ⟨run, found, inside⟩
    rcases List.infix_append_iff_ne_nil.mp inside with
      left | right | ⟨front, back, nonempty, nonempty', cut, first, last⟩
    · exact .inl ⟨run, found, left⟩
    · exact .inr (.inl ⟨run, found, right⟩)
    · obtain ⟨rest, rfl, later⟩ := found.split cut nonempty'
      exact .inr (.inr ⟨front, rest, back, rfl, nonempty, first, later, last⟩)
  · rintro (left | right | ⟨front, back, run, rfl, -, first, found, last⟩)
    · exact left.mono List.infix_append_left
    · exact right.mono List.infix_append_right
    · obtain ⟨before, rfl⟩ := first
      obtain ⟨after, rfl⟩ := last
      exact ⟨front ++ run, found.append front, before, after, by simp⟩

/-! ## What is vetoed -/

section Veto

variable {toLowercase : Text → Text} {isAlphanumeric : Char → Bool}

/-- What lowercasing does at a space, and that a space is no letter or digit. -/
structure SpaceLaws (toLowercase : Text → Text) (isAlphanumeric : Char → Bool) : Prop where
  splits : ∀ a b, toLowercase (a ++ ' ' :: b) = toLowercase a ++ ' ' :: toLowercase b
  space : isAlphanumeric ' ' = false

/-- The lowercased words of a text. -/
def words (toLowercase : Text → Text) (isAlphanumeric : Char → Bool) (t : Text) : List Text :=
  wordTokens isAlphanumeric (toLowercase t)

/-- A bound with words of four bytes or more, all of which are among the words of a text. -/
def BoundMet (bound textWords : List Text) : Prop :=
  (∃ w ∈ bound, meaningful w = true) ∧ ∀ w ∈ bound, meaningful w = true → w ∈ textWords

theorem words_spaced (laws : SpaceLaws toLowercase isAlphanumeric) (a b : Text) :
    words toLowercase isAlphanumeric (a ++ ' ' :: b) =
      words toLowercase isAlphanumeric a ++ words toLowercase isAlphanumeric b := by
  have cut : (!isAlphanumeric ' ') = true := by rw [laws.space]; rfl
  have pieces := List.splitOnP_append_cons (p := fun c => !isAlphanumeric c) (toLowercase a)
    (toLowercase b) cut
  rw [words, laws.splits, wordTokens, pieces, List.filter_append]
  rfl

theorem plainTextMatch_iff {textWords bound : List Text} :
    plainTextMatch textWords bound = true ↔ BoundMet bound textWords := by
  have empty : (bound.filter meaningful).isEmpty = false ↔ ∃ w ∈ bound, meaningful w = true := by
    simp [List.isEmpty_eq_false_iff, List.filter_eq_nil_iff]
  rw [plainTextMatch, BoundMet, ← empty]
  cases (bound.filter meaningful).isEmpty with
  | true => simp
  | false =>
    simp only [Bool.false_eq_true, if_false, List.all_eq_true, List.mem_filter, List.any_eq_true,
      decide_eq_true_eq, true_and, exists_eq_right, and_imp]

theorem BoundMet.mono {bound textWords more : List Text} (h : BoundMet bound textWords)
    (subset : textWords ⊆ more) : BoundMet bound more :=
  ⟨h.1, fun w listed long => subset (h.2 w listed long)⟩

theorem firstKeywordMatch_isSome {textWords : List Text} {prohibition : Prohibition} :
    (firstKeywordMatch toLowercase isAlphanumeric textWords prohibition).isSome = true ↔
      ∃ kw ∈ prohibition.keywords, Occurs (words toLowercase isAlphanumeric kw) textWords := by
  simp only [firstKeywordMatch, List.find?_isSome, phrasePresent_iff, words]

theorem screenCore_isSome {textWords : List Text} {prohibitions : List Prohibition} :
    (screenCore toLowercase isAlphanumeric textWords prohibitions).isSome = true ↔
      ∃ prohibition ∈ prohibitions, ∃ kw ∈ prohibition.keywords,
        Occurs (words toLowercase isAlphanumeric kw) textWords := by
  induction prohibitions with
  | nil => simp [screenCore]
  | cons prohibition rest ih =>
    rw [screenCore, List.exists_mem_cons_iff, ← ih, ← firstKeywordMatch_isSome]
    cases firstKeywordMatch toLowercase isAlphanumeric textWords prohibition <;> simp

theorem screenBounds_isSome {textWords : List Text} (i : Nat) {bounds : List Text} :
    (screenBounds toLowercase isAlphanumeric textWords i bounds).isSome = true ↔
      ∃ bound ∈ bounds, BoundMet (words toLowercase isAlphanumeric bound) textWords := by
  induction bounds generalizing i with
  | nil => simp [screenBounds]
  | cons bound rest ih =>
    rw [screenBounds, List.exists_mem_cons_iff, ← ih (i + 1), ← plainTextMatch_iff, words]
    cases plainTextMatch textWords (wordTokens isAlphanumeric (toLowercase bound)) <;> simp

theorem screen_isVetoed (charter : Charter) (p : ConstitutionProposal) :
    (screen toLowercase isAlphanumeric charter p).isVetoed = true ↔
      (∃ prohibition ∈ charter.prohibitions, ∃ kw ∈ prohibition.keywords,
        Occurs (words toLowercase isAlphanumeric kw)
          (words toLowercase isAlphanumeric (p.intent ++ ' ' :: p.actionText))) ∨
      ∃ bound ∈ charter.additionalBounds, BoundMet (words toLowercase isAlphanumeric bound)
        (words toLowercase isAlphanumeric (p.intent ++ ' ' :: p.actionText)) := by
  rw [← screenCore_isSome, ← screenBounds_isSome 0, screen, words]
  cases screenCore toLowercase isAlphanumeric _ charter.prohibitions with
  | some clause => simp [CheckOutcome.isVetoed]
  | none =>
    cases screenBounds toLowercase isAlphanumeric _ 0 charter.additionalBounds <;>
      simp [CheckOutcome.isVetoed]

/-- A veto is a phrase in the intent, in the action or across from the one to the other,
or an operator bound whose words are all in the two texts; more words in the action never
undo it, nor do more words in the intent unless the phrase lies across. -/
theorem screen_vetoes_iff (laws : SpaceLaws toLowercase isAlphanumeric) (charter : Charter)
    (p : ConstitutionProposal) :
    ((screen toLowercase isAlphanumeric charter p).isVetoed = true ↔
      (∃ prohibition ∈ charter.prohibitions, ∃ kw ∈ prohibition.keywords,
        Occurs (words toLowercase isAlphanumeric kw) (words toLowercase isAlphanumeric p.intent) ∨
        Occurs (words toLowercase isAlphanumeric kw)
          (words toLowercase isAlphanumeric p.actionText) ∨
        Straddles (words toLowercase isAlphanumeric kw) (words toLowercase isAlphanumeric p.intent)
          (words toLowercase isAlphanumeric p.actionText)) ∨
      ∃ bound ∈ charter.additionalBounds, BoundMet (words toLowercase isAlphanumeric bound)
        (words toLowercase isAlphanumeric p.intent ++
          words toLowercase isAlphanumeric p.actionText)) ∧
    (∀ more, (screen toLowercase isAlphanumeric charter p).isVetoed = true →
      (screen toLowercase isAlphanumeric charter
        ⟨p.intent, p.actionText ++ ' ' :: more⟩).isVetoed = true) ∧
    (∀ more, (screen toLowercase isAlphanumeric charter p).isVetoed = true →
      (screen toLowercase isAlphanumeric charter
        ⟨p.intent ++ ' ' :: more, p.actionText⟩).isVetoed = true ∨
      ∃ prohibition ∈ charter.prohibitions, ∃ kw ∈ prohibition.keywords,
        Straddles (words toLowercase isAlphanumeric kw) (words toLowercase isAlphanumeric p.intent)
          (words toLowercase isAlphanumeric p.actionText)) := by
  refine ⟨?_, fun more vetoed => ?_, fun more vetoed => ?_⟩
  · simp only [screen_isVetoed, words_spaced laws, occurs_append]
  · simp only [screen_isVetoed, words_spaced laws] at vetoed ⊢
    have longer : words toLowercase isAlphanumeric p.intent ++
        words toLowercase isAlphanumeric p.actionText <+:
      words toLowercase isAlphanumeric p.intent ++ (words toLowercase isAlphanumeric p.actionText ++
        words toLowercase isAlphanumeric more) :=
      List.prefix_append_right_inj _ |>.mpr (List.prefix_append _ _)
    rcases vetoed with ⟨prohibition, listed, kw, named, found⟩ | ⟨bound, listed, met⟩
    · exact .inl ⟨prohibition, listed, kw, named, found.mono longer.isInfix⟩
    · exact .inr ⟨bound, listed, met.mono longer.subset⟩
  · simp only [screen_isVetoed, words_spaced laws, occurs_append] at vetoed ⊢
    rcases vetoed with
      ⟨prohibition, listed, kw, named, left | right | across⟩ | ⟨bound, listed, met⟩
    · exact .inl (.inl ⟨prohibition, listed, kw, named, .inl (.inl left)⟩)
    · exact .inl (.inl ⟨prohibition, listed, kw, named, .inr (.inl right)⟩)
    · exact .inr ⟨prohibition, listed, kw, named, across⟩
    · refine .inl (.inr ⟨bound, listed, met.mono fun w => ?_⟩)
      simp only [List.mem_append]
      tauto

end Veto

/-- The tables on ASCII. -/
theorem ascii_laws : SpaceLaws toAsciiLowercase Char.isAlphanum :=
  ⟨fun _ _ => List.map_append, rfl⟩

def harmCharter : Charter := ⟨[⟨['P'], ['h'], [['a', ' ', 'b']]⟩], []⟩

theorem harm_in_action_vetoed :
    (screen toAsciiLowercase Char.isAlphanum harmCharter ⟨['c'], ['A', ' ', 'b']⟩).isVetoed =
      true :=
  ((screen_vetoes_iff ascii_laws harmCharter ⟨['c'], ['A', ' ', 'b']⟩).1).mpr
    (.inl ⟨_, List.mem_singleton_self _, _, List.mem_singleton_self _, .inr (.inl
      ⟨[['a'], ['b']], .cons ['a'] (.last ['b'] []), [], [], rfl⟩)⟩)

/-- The phrase is in neither text, and a word after the intent undoes the veto. -/
theorem phrase_across_vetoed :
    (screen toAsciiLowercase Char.isAlphanum harmCharter ⟨['a'], ['b']⟩).isVetoed = true ∧
      phrasePresent (words toAsciiLowercase Char.isAlphanum ['a'])
        (words toAsciiLowercase Char.isAlphanum ['a', ' ', 'b']) = false ∧
      phrasePresent (words toAsciiLowercase Char.isAlphanum ['b'])
        (words toAsciiLowercase Char.isAlphanum ['a', ' ', 'b']) = false ∧
      (screen toAsciiLowercase Char.isAlphanum harmCharter ⟨['a', ' ', 'c'], ['b']⟩).isVetoed =
        false := by
  decide

end ConstitutionCheck
