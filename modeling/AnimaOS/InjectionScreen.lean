import AnimaOS.Numerals
import AnimaOS.TextSplit
import Mathlib.Data.List.Chain
import Mathlib.Logic.Relation

/-!
# The prompt-injection screen

`normalizeForMatch`, `HeuristicClassifier` and `PromptInjectionDetector` of the defence
crate. The lowercase mapping of a character is a parameter.
-/

namespace InjectionScreen

open TextSplit

abbrev Text := List Char

def INJECTION_PATTERNS : List Text :=
  ["ignore previous instructions", "ignore all previous", "disregard all previous",
    "disregard previous instructions", "forget your instructions", "forget all previous",
    "your new instructions", "new system prompt", "your actual instructions",
    "your real instructions", "override:",
    "you are now", "act as if you are", "pretend you are", "pretend to be",
    "from now on you are", "you must now act as",
    "[system]:", "<|system|>", "<|im_start|>system", "<<sys>>", "### instruction",
    "### system", "### human", "[inst]", "[/inst]",
    "reveal your system prompt", "show me your system prompt", "print your system prompt",
    "repeat your system prompt", "output your instructions", "tell me your instructions",
    "what are your instructions", "what is your system prompt",
    "jailbreak mode", "jailbreak enabled", "developer mode", "dan mode", "no restrictions",
    "no content policy", "bypass safety", "bypass restrictions", "uncensored mode",
    "instead, do the following", "instead do the following", "your task is now",
    "your new task is", "your new goal is", "from now on, you", "from now on you",
    "stop following", "do not follow", "ignore the above"].map String.toList

/-- The zero-width characters that are dropped. -/
def isZeroWidth (ch : Char) : Bool :=
  ch.toNat ∈ [0x200B, 0x200C, 0x200D, 0x2060, 0xFEFF]

section Normalisation

variable (toLowercase : Char → Text)

/-- The loop of `normalizeForMatch`; the flag says that the last character was a space. -/
def squeeze : Bool → Text → Text
  | _, [] => []
  | prevSpace, ch :: rest =>
    if isZeroWidth ch then squeeze prevSpace rest
    else if isWhitespace ch then
      if prevSpace then squeeze true rest else ' ' :: squeeze true rest
    else toLowercase ch ++ squeeze false rest

def normalizeForMatch (text : Text) : Text := trimWhitespace (squeeze toLowercase false text)

structure HeuristicClassifier where
  customPatterns : List Text := []

def HeuristicClassifier.withPattern (c : HeuristicClassifier) (pattern : Text) :
    HeuristicClassifier :=
  ⟨c.customPatterns ++ [normalizeForMatch toLowercase pattern]⟩

def HeuristicClassifier.firstMatch (c : HeuristicClassifier) (text : Text) : Option Text :=
  (INJECTION_PATTERNS ++ c.customPatterns).find? fun pattern =>
    pattern <:+: normalizeForMatch toLowercase text

/-- Whether a score of 1 is given, and not one of 0. -/
def HeuristicClassifier.score (c : HeuristicClassifier) (text : Text) : Bool :=
  (c.firstMatch toLowercase text).isSome

/-- Which of the two scores reach a threshold; the larger does when the smaller does. -/
structure Threshold where
  meets : Bool → Bool
  rising : meets false = true → meets true = true

structure PromptInjectionDetector where
  classifier : HeuristicClassifier
  threshold : Threshold

inductive VetoResult
  | allow
  | promptInjection (pattern source : Text)
deriving DecidableEq

def VetoResult.isVetoed : VetoResult → Bool
  | allow => false
  | promptInjection _ _ => true

def PromptInjectionDetector.screen (d : PromptInjectionDetector) (text source : Text) :
    VetoResult :=
  let score := d.classifier.score toLowercase text
  if d.threshold.meets score then
    .promptInjection ((HeuristicClassifier.firstMatch toLowercase {} text).getD
      (if score then "classifier score=1.00".toList else "classifier score=0.00".toList)) source
  else .allow

end Normalisation

/-- One edit of invisible or whitespace padding. -/
inductive PaddingStep : Text → Text → Prop
  | insert (before after : Text) {z : Char} (invisible : isZeroWidth z = true) :
      PaddingStep (before ++ after) (before ++ z :: after)
  | respace (before after : Text) {run run' : Text} (nonempty : run ≠ []) (nonempty' : run' ≠ [])
      (blank : ∀ c ∈ run, isWhitespace c = true) (blank' : ∀ c ∈ run', isWhitespace c = true) :
      PaddingStep (before ++ (run ++ after)) (before ++ (run' ++ after))

def Padded : Text → Text → Prop := Relation.ReflTransGen PaddingStep

/-- What the lowercase mapping of Unicode does to characters that are neither blank nor
invisible. -/
structure LowercaseLaws (toLowercase : Char → Text) : Prop where
  nonempty : ∀ c, toLowercase c ≠ []
  visible : ∀ c, isWhitespace c = false → isZeroWidth c = false →
    ∀ d ∈ toLowercase c, isWhitespace d = false ∧ isZeroWidth d = false
  settled : ∀ c, ∀ d ∈ toLowercase c, toLowercase d = [d]

section Padding

variable {toLowercase : Char → Text}

/-- The flag after a text. -/
def spaceAfter : Bool → Text → Bool
  | prevSpace, [] => prevSpace
  | prevSpace, ch :: rest =>
    if isZeroWidth ch then spaceAfter prevSpace rest else spaceAfter (isWhitespace ch) rest

theorem squeeze_append (prevSpace : Bool) (before after : Text) :
    squeeze toLowercase prevSpace (before ++ after) = squeeze toLowercase prevSpace before ++
      squeeze toLowercase (spaceAfter prevSpace before) after := by
  induction before generalizing prevSpace with
  | nil => rfl
  | cons ch rest ih =>
    simp only [List.cons_append, squeeze, spaceAfter, ih]
    cases isZeroWidth ch <;> cases isWhitespace ch <;> cases prevSpace <;> simp

/-- No whitespace character of Unicode is of zero width. -/
theorem zeroWidth_solid {z : Char} (invisible : isZeroWidth z = true) :
    isWhitespace z = false := by
  simp only [isZeroWidth, List.mem_cons, List.not_mem_nil, or_false, decide_eq_true_eq]
    at invisible
  simp only [isWhitespace]
  rcases invisible with h | h | h | h | h <;> simp [h]

theorem blank_visible {c : Char} (blank : isWhitespace c = true) : isZeroWidth c = false := by
  by_contra visible
  have solid := zeroWidth_solid (Bool.not_eq_false _ ▸ visible)
  exact Bool.noConfusion (blank.symm.trans solid)

theorem squeeze_invisible {z : Char} (invisible : isZeroWidth z = true) (prevSpace : Bool)
    (rest : Text) :
    squeeze toLowercase prevSpace (z :: rest) = squeeze toLowercase prevSpace rest := by
  simp [squeeze, invisible]

theorem squeeze_blank_true {run : Text} (blank : ∀ c ∈ run, isWhitespace c = true)
    (after : Text) :
    squeeze toLowercase true (run ++ after) = squeeze toLowercase true after := by
  induction run with
  | nil => rfl
  | cons c run ih =>
    have first := blank c List.mem_cons_self
    have rest := ih fun d listed => blank d (List.mem_cons_of_mem c listed)
    simp [squeeze, first, blank_visible first, rest]

/-- A run of whitespace counts as one space, or as none after one. -/
theorem squeeze_blank {run : Text} (nonempty : run ≠ []) (blank : ∀ c ∈ run, isWhitespace c = true)
    (prevSpace : Bool) (after : Text) :
    squeeze toLowercase prevSpace (run ++ after) =
      (if prevSpace then [] else [' ']) ++ squeeze toLowercase true after := by
  cases run with
  | nil => exact absurd rfl nonempty
  | cons c run =>
    have first := blank c List.mem_cons_self
    have rest := @squeeze_blank_true toLowercase run
      (fun d listed => blank d (List.mem_cons_of_mem c listed)) after
    cases prevSpace <;> simp [squeeze, first, blank_visible first, rest]

theorem PaddingStep.squeeze_eq {t t' : Text} (step : PaddingStep t t') (prevSpace : Bool) :
    squeeze toLowercase prevSpace t' = squeeze toLowercase prevSpace t := by
  cases step with
  | insert before after invisible =>
    rw [squeeze_append, squeeze_append, squeeze_invisible invisible]
  | respace before after nonempty nonempty' blank blank' =>
    rw [squeeze_append _ before, squeeze_append _ before, squeeze_blank nonempty blank,
      squeeze_blank nonempty' blank']

theorem Padded.normalize_eq {t t' : Text} (padded : Padded t t') :
    normalizeForMatch toLowercase t' = normalizeForMatch toLowercase t := by
  induction padded with
  | refl => rfl
  | tail _ step ih => rw [← ih, normalizeForMatch, normalizeForMatch, step.squeeze_eq]

theorem screen_padded {t t' : Text} (padded : Padded t t') (d : PromptInjectionDetector)
    (source : Text) : d.screen toLowercase t' source = d.screen toLowercase t source := by
  have matched : ∀ c : HeuristicClassifier,
      c.firstMatch toLowercase t' = c.firstMatch toLowercase t := by
    intro c
    rw [HeuristicClassifier.firstMatch, padded.normalize_eq, HeuristicClassifier.firstMatch]
  have scored : d.classifier.score toLowercase t' = d.classifier.score toLowercase t := by
    rw [HeuristicClassifier.score, matched, HeuristicClassifier.score]
  rw [PromptInjectionDetector.screen, matched, scored, PromptInjectionDetector.screen]

end Padding

/-! ## Normalising twice -/

section Idempotence

variable {toLowercase : Char → Text}

/-- What the loop leaves as it is: plain characters, and single spaces between them. -/
structure Settled (toLowercase : Char → Text) (text : Text) : Prop where
  plain : ∀ c ∈ text, c = ' ' ∨
    isWhitespace c = false ∧ isZeroWidth c = false ∧ toLowercase c = [c]
  apart : text.IsChain fun c d => ¬ (c = ' ' ∧ d = ' ')

theorem Settled.inside {part text : Text} (settled : Settled toLowercase text)
    (inside : part <:+: text) : Settled toLowercase part := by
  obtain ⟨before, after, rfl⟩ := inside
  refine ⟨fun c listed => settled.plain c ?_, settled.apart.left_of_append.right_of_append⟩
  exact List.mem_append_left after (List.mem_append_right before listed)

theorem Settled.squeeze_eq {text : Text} (settled : Settled toLowercase text)
    (prevSpace : Bool) (apart : prevSpace = true → text.head? ≠ some ' ') :
    squeeze toLowercase prevSpace text = text := by
  induction text generalizing prevSpace with
  | nil => rfl
  | cons c rest ih =>
    have rest_settled := settled.inside (List.suffix_cons c rest).isInfix
    rcases settled.plain c List.mem_cons_self with rfl | ⟨solid, visible, kept⟩
    · have first : prevSpace = false := by
        cases prevSpace with
        | false => rfl
        | true => exact absurd rfl (apart rfl)
      have spaced : rest.head? ≠ some ' ' := by
        cases rest with
        | nil => simp
        | cons d rest =>
          have := (List.isChain_cons_cons.mp settled.apart).1
          simpa using this
      have blank : isWhitespace ' ' = true := rfl
      simp [squeeze, first, blank, blank_visible blank, ih rest_settled true fun _ => spaced]
    · have tail := ih rest_settled false fun h => Bool.noConfusion h
      simp [squeeze, solid, visible, kept, tail]

theorem settled_letters {letters rest : Text} (spaceless : ∀ d ∈ letters, d ≠ ' ')
    (apart : rest.IsChain fun c d => ¬ (c = ' ' ∧ d = ' ')) :
    (letters ++ rest).IsChain fun c d => ¬ (c = ' ' ∧ d = ' ') := by
  induction letters with
  | nil => exact apart
  | cons d letters ih =>
    have others := ih fun e listed => spaceless e (List.mem_cons_of_mem d listed)
    exact others.cons fun e _ both => spaceless d List.mem_cons_self both.1

theorem squeeze_settled (laws : LowercaseLaws toLowercase) (prevSpace : Bool) (text : Text) :
    Settled toLowercase (squeeze toLowercase prevSpace text) ∧
      (prevSpace = true → (squeeze toLowercase prevSpace text).head? ≠ some ' ') := by
  induction text generalizing prevSpace with
  | nil => exact ⟨⟨by simp [squeeze], by simp [squeeze]⟩, by simp [squeeze]⟩
  | cons c rest ih =>
    rw [squeeze]
    split
    · exact ih prevSpace
    · rename_i visible
      split
      · have tail := ih true
        cases prevSpace with
        | true => exact tail
        | false =>
          refine ⟨⟨?_, ?_⟩, fun h => Bool.noConfusion h⟩
          · simpa using tail.1.plain
          · refine tail.1.apart.cons fun d first => ?_
            rintro ⟨-, rfl⟩
            exact tail.2 rfl first
      · rename_i solid
        have letters := laws.visible c (by simpa using solid) (by simpa using visible)
        have tail := (ih false).1
        have spaceless : ∀ d ∈ toLowercase c, d ≠ ' ' := by
          rintro d listed rfl
          exact Bool.noConfusion (letters _ listed).1
        refine ⟨⟨?_, ?_⟩, fun _ => ?_⟩
        · intro d listed
          rcases List.mem_append.mp listed with listed | listed
          · exact .inr ⟨(letters d listed).1, (letters d listed).2, laws.settled c d listed⟩
          · exact tail.plain d listed
        · exact settled_letters spaceless tail.apart
        · obtain ⟨d, letters, shape⟩ := List.exists_cons_of_ne_nil (laws.nonempty c)
          rw [shape] at spaceless ⊢
          simpa using spaceless d List.mem_cons_self

theorem normalizeForMatch_idempotent (laws : LowercaseLaws toLowercase) (text : Text) :
    normalizeForMatch toLowercase (normalizeForMatch toLowercase text) =
      normalizeForMatch toLowercase text := by
  have settled : Settled toLowercase (normalizeForMatch toLowercase text) :=
    (squeeze_settled laws false text).1.inside (trimWhitespace_inside _)
  rw [normalizeForMatch, settled.squeeze_eq false fun h => Bool.noConfusion h]
  exact trimWhitespace_trimWhitespace _

end Idempotence

/-! ## Surrounding text -/

section Context

variable {toLowercase : Char → Text}

/-- A text after a space differs from one after none in a space in front. -/
theorem squeeze_true (text : Text) : ∃ front, (∀ c ∈ front, isWhitespace c = true) ∧
    squeeze toLowercase false text = front ++ squeeze toLowercase true text := by
  induction text with
  | nil => exact ⟨[], by simp, rfl⟩
  | cons c rest ih =>
    simp only [squeeze]
    cases isZeroWidth c with
    | true => exact ih
    | false =>
      cases isWhitespace c with
      | true => exact ⟨[' '], by simp [isWhitespace], rfl⟩
      | false => exact ⟨[], by simp, rfl⟩

theorem normalize_inside (before text after : Text) :
    normalizeForMatch toLowercase text <:+:
      normalizeForMatch toLowercase (before ++ (text ++ after)) := by
  refine inside_trimWhitespace ?_ (trimWhitespace_ends_solid _)
  have inner : normalizeForMatch toLowercase text <:+:
      squeeze toLowercase (spaceAfter false before) text := by
    cases spaceAfter false before with
    | false => exact trimWhitespace_inside _
    | true =>
      obtain ⟨front, blank, same⟩ := @squeeze_true toLowercase text
      rw [normalizeForMatch, same, trimWhitespace, trimStartWhitespace_append blank]
      exact trimWhitespace_inside _
  rw [squeeze_append, squeeze_append]
  exact inner.trans ⟨_, _, by rw [List.append_assoc]⟩

theorem firstMatch_isSome {c : HeuristicClassifier} {text : Text} :
    (c.firstMatch toLowercase text).isSome = true ↔
      ∃ pattern ∈ INJECTION_PATTERNS ++ c.customPatterns,
        pattern <:+: normalizeForMatch toLowercase text := by
  simp only [HeuristicClassifier.firstMatch, List.find?_isSome, decide_eq_true_eq]

theorem firstMatch_inside {c : HeuristicClassifier} {text : Text}
    (matched : (c.firstMatch toLowercase text).isSome = true) (before after : Text) :
    (c.firstMatch toLowercase (before ++ (text ++ after))).isSome = true := by
  obtain ⟨pattern, listed, inside⟩ := firstMatch_isSome.mp matched
  exact firstMatch_isSome.mpr ⟨pattern, listed, inside.trans (normalize_inside before text after)⟩

/-- A pattern is found in every text that holds it. -/
theorem withPattern_matches (c : HeuristicClassifier) (before pattern after : Text) :
    ((c.withPattern toLowercase pattern).firstMatch toLowercase
      (before ++ (pattern ++ after))).isSome = true :=
  firstMatch_isSome.mpr ⟨normalizeForMatch toLowercase pattern,
    by simp [HeuristicClassifier.withPattern], normalize_inside before pattern after⟩

theorem screen_isVetoed (d : PromptInjectionDetector) (text source : Text) :
    (d.screen toLowercase text source).isVetoed =
      d.threshold.meets (d.classifier.score toLowercase text) := by
  rw [PromptInjectionDetector.screen]
  split
  · rename_i meets
    exact meets.symm
  · rename_i below
    exact (Bool.eq_false_iff.mpr below).symm

theorem screen_inside {d : PromptInjectionDetector} {text source : Text}
    (vetoed : (d.screen toLowercase text source).isVetoed = true) (before after : Text) :
    (d.screen toLowercase (before ++ (text ++ after)) source).isVetoed = true := by
  rw [screen_isVetoed] at vetoed ⊢
  cases matched : d.classifier.score toLowercase text with
  | true =>
    rw [matched] at vetoed
    rwa [HeuristicClassifier.score, firstMatch_inside matched]
  | false =>
    rw [matched] at vetoed
    cases d.classifier.score toLowercase (before ++ (text ++ after)) with
    | true => exact d.threshold.rising vetoed
    | false => exact vetoed

end Context

/-- Padding changes no verdict, normalising twice is normalising once, and what matches
still matches inside any other text. -/
theorem screen_ignores_padding {toLowercase : Char → Text} (laws : LowercaseLaws toLowercase) :
    (∀ t t', Padded t t' → ∀ (d : PromptInjectionDetector) (source : Text),
      d.screen toLowercase t' source = d.screen toLowercase t source) ∧
    (∀ text, normalizeForMatch toLowercase (normalizeForMatch toLowercase text) =
      normalizeForMatch toLowercase text) ∧
    (∀ (c : HeuristicClassifier) (before text after : Text),
      (c.firstMatch toLowercase text).isSome = true →
        (c.firstMatch toLowercase (before ++ (text ++ after))).isSome = true) ∧
    ∀ (d : PromptInjectionDetector) (before text after source : Text),
      (d.screen toLowercase text source).isVetoed = true →
        (d.screen toLowercase (before ++ (text ++ after)) source).isVetoed = true :=
  ⟨fun _ _ padded d source => screen_padded padded d source, normalizeForMatch_idempotent laws,
    fun _ before _ after matched => firstMatch_inside matched before after,
    fun _ before _ after _ vetoed => screen_inside vetoed before after⟩

/-- The lowercase mapping on ASCII. -/
def asciiLowercase (c : Char) : Text := [c.toLower]

theorem asciiLowercase_laws : LowercaseLaws asciiLowercase := by
  refine ⟨fun c => List.cons_ne_nil _ _, fun c solid visible d listed => ?_,
    fun c d listed => ?_⟩
  · obtain rfl := List.mem_singleton.mp listed
    by_cases upper : 'A'.toNat ≤ c.toNat ∧ c.toNat ≤ 'Z'.toNat
    · have value := Numerals.toLower_upper upper
      obtain ⟨low, high⟩ : 65 ≤ c.toNat ∧ c.toNat ≤ 90 := upper
      constructor
      · simp only [isWhitespace, value]
        simp
        omega
      · simp only [isZeroWidth, value]
        simp
        omega
    · rw [Numerals.toLower_other upper]
      exact ⟨solid, visible⟩
  · obtain rfl := List.mem_singleton.mp listed
    by_cases upper : 'A'.toNat ≤ c.toNat ∧ c.toNat ≤ 'Z'.toNat
    · have value := Numerals.toLower_upper upper
      obtain ⟨low, high⟩ : 65 ≤ c.toNat ∧ c.toNat ≤ 90 := upper
      rw [asciiLowercase, Numerals.toLower_other]
      rintro ⟨-, small⟩
      have : c.toNat + 32 ≤ 90 := value ▸ small
      omega
    · rw [asciiLowercase, Numerals.toLower_other upper, Numerals.toLower_other upper]

def greetingDetector : PromptInjectionDetector := ⟨⟨[['h', 'i']]⟩, ⟨id, fun _ => rfl⟩⟩

theorem padded_greeting_vetoed :
    greetingDetector.screen asciiLowercase ['\t', 'H', '\u200b', 'i', '\n'] ['n'] =
        greetingDetector.screen asciiLowercase [' ', 'H', 'i', '\n'] ['n'] ∧
      normalizeForMatch asciiLowercase (normalizeForMatch asciiLowercase [' ', 'H', 'i']) =
        normalizeForMatch asciiLowercase [' ', 'H', 'i'] ∧
      (greetingDetector.screen asciiLowercase
        (['o', 'h', ' '] ++ ([' ', 'H', 'i'] ++ ['!'])) ['n']).isVetoed = true := by
  have all := screen_ignores_padding asciiLowercase_laws
  refine ⟨all.1 _ _ ?_ _ _, all.2.1 _,
    all.2.2.2 greetingDetector ['o', 'h', ' '] [' ', 'H', 'i'] ['!'] ['n'] ?_⟩
  · have spaced : PaddingStep [' ', 'H', 'i', '\n'] ['\t', 'H', 'i', '\n'] :=
      @PaddingStep.respace [] ['H', 'i', '\n'] [' '] ['\t'] (by simp) (by simp)
        (by simp [isWhitespace]) (by simp [isWhitespace])
    have hidden : PaddingStep ['\t', 'H', 'i', '\n'] ['\t', 'H', '\u200b', 'i', '\n'] :=
      .insert ['\t', 'H'] ['i', '\n'] rfl
    exact .tail (.single spaced) hidden
  · have matched : (greetingDetector.classifier.firstMatch asciiLowercase
        [' ', 'H', 'i']).isSome = true :=
      firstMatch_isSome.mpr ⟨['h', 'i'], List.mem_append_right _ List.mem_cons_self,
        [], [], rfl⟩
    rw [screen_isVetoed, HeuristicClassifier.score, matched]
    rfl

end InjectionScreen
