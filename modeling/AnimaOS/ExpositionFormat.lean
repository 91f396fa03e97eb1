import AnimaOS.TextSplit

/-!
# The text exposition format of metrics

A reader of metric samples, one a line, and the canonical line of a sample. In a
label value the backslash, the double quote and the line feed are escaped, and
nothing else is, so the text of a value is determined by the value.
-/

namespace ExpositionFormat

open TextSplit

/-! ## Names, labels and samples -/

structure Sample where
  name : List Char
  labels : List (List Char × List Char)
  value : List Char
  timestamp : Option (List Char)
  deriving DecidableEq, Repr

def isBlank (c : Char) : Bool := c = ' ' || c = '\t'

def skipBlank (text : List Char) : List Char := text.dropWhile isBlank

def isLabelChar (c : Char) : Bool := c.isAlphanum || c = '_'

/-- Unlike those of labels, the names of metrics may have colons. -/
def isNameChar (c : Char) : Bool := isLabelChar c || c = ':'

def isWord (inside : Char → Bool) : List Char → Bool
  | [] => false
  | c :: rest => !c.isDigit && (c :: rest).all inside

/-! ## The reader -/

/-- A label value behind its opening quote, up to the closing one. -/
def readValue : List Char → Option (List Char × List Char)
  | [] => none
  | '"' :: rest => some ([], rest)
  | '\\' :: '\\' :: rest => (readValue rest).map fun (v, rest) => ('\\' :: v, rest)
  | '\\' :: '"' :: rest => (readValue rest).map fun (v, rest) => ('"' :: v, rest)
  | '\\' :: 'n' :: rest => (readValue rest).map fun (v, rest) => ('\n' :: v, rest)
  | c :: rest =>
    if c = '\\' ∨ c = '\n' then none
    else (readValue rest).map fun (v, rest) => (c :: v, rest)

def readLabel (text : List Char) : Option ((List Char × List Char) × List Char) :=
  let name := text.takeWhile isLabelChar
  if isWord isLabelChar name then
    match skipBlank (text.dropWhile isLabelChar) with
    | '=' :: rest =>
      match skipBlank rest with
      | '"' :: rest => (readValue rest).map fun (v, rest) => ((name, v), rest)
      | _ => none
    | _ => none
  else none

/-- The labels behind the opening brace, up to the closing one. -/
def readLabels : Nat → List Char → Option (List (List Char × List Char) × List Char)
  | 0, _ => none
  | fuel + 1, text =>
    match skipBlank text with
    | '}' :: rest => some ([], rest)
    | text =>
      match readLabel text with
      | none => none
      | some (label, rest) =>
        match skipBlank rest with
        | '}' :: rest => some ([label], rest)
        | ',' :: rest => (readLabels fuel rest).map fun (labels, rest) => (label :: labels, rest)
        | _ => none

def isTimestamp : List Char → Bool
  | '-' :: digits => !digits.isEmpty && digits.all Char.isDigit
  | digits => !digits.isEmpty && digits.all Char.isDigit

/-- What follows the name and the labels: a value, perhaps with a timestamp. -/
def readEnd (name : List Char) (labels : List (List Char × List Char)) (rest : List Char) :
    Option Sample :=
  let text := skipBlank rest
  let value := text.takeWhile fun c => !isBlank c
  if value = [] then none
  else
    match skipBlank (text.dropWhile fun c => !isBlank c) with
    | [] => some ⟨name, labels, value, none⟩
    | stamp =>
      let time := stamp.takeWhile fun c => !isBlank c
      if isTimestamp time ∧ skipBlank (stamp.dropWhile fun c => !isBlank c) = [] then
        some ⟨name, labels, value, some time⟩
      else none

def readSample (line : List Char) : Option Sample :=
  let name := line.takeWhile isNameChar
  if isWord isNameChar name then
    match line.dropWhile isNameChar with
    | '{' :: rest =>
      (readLabels (rest.length + 1) rest).bind fun (labels, rest) => readEnd name labels rest
    | rest => readEnd name [] rest
  else none

/-- Neither an empty line nor a comment. -/
def isSampleLine (line : List Char) : Bool :=
  match skipBlank line with
  | [] => false
  | c :: _ => c ≠ '#'

def exposition (text : List Char) : Option (List Sample) :=
  ((text.splitOn '\n').filter isSampleLine).mapM readSample

/-! ## The writer -/

def escapeChar (c : Char) : List Char :=
  if c = '\\' then ['\\', '\\'] else if c = '"' then ['\\', '"']
  else if c = '\n' then ['\\', 'n'] else [c]

def escape (value : List Char) : List Char := value.flatMap escapeChar

def labelText (label : List Char × List Char) : List Char :=
  label.1 ++ '=' :: '"' :: (escape label.2 ++ ['"'])

/-- The labels with commas between them. -/
def joined : List (List Char × List Char) → List Char
  | [] => []
  | [label] => labelText label
  | label :: rest => labelText label ++ ',' :: joined rest

def labelBlock : List (List Char × List Char) → List Char
  | [] => []
  | labels => '{' :: (joined labels ++ ['}'])

/-- The line of a sample without a timestamp. -/
def sampleText (name : List Char) (labels : List (List Char × List Char)) (value : List Char) :
    List Char :=
  name ++ (labelBlock labels ++ ' ' :: value)

/-! ## Label values -/

/-- No character of the value needs an escape. -/
def Plain (value : List Char) : Prop := ∀ c ∈ value, c ≠ '\\' ∧ c ≠ '"' ∧ c ≠ '\n'

theorem escapeChar_plain {c : Char} (h : c ≠ '\\' ∧ c ≠ '"' ∧ c ≠ '\n') : escapeChar c = [c] := by
  simp [escapeChar, h]

theorem escape_cons (c : Char) (value : List Char) :
    escape (c :: value) = escapeChar c ++ escape value := List.flatMap_cons

theorem escape_plain {value : List Char} (h : Plain value) : escape value = value := by
  induction value with
  | nil => rfl
  | cons c value ih =>
    rw [escape_cons, escapeChar_plain (h c List.mem_cons_self),
      ih fun d hd => h d (List.mem_cons_of_mem c hd)]
    rfl

theorem readValue_plain {c : Char} (h : c ≠ '\\' ∧ c ≠ '"' ∧ c ≠ '\n') (text : List Char) :
    readValue (c :: text) = (readValue text).map fun (v, rest) => (c :: v, rest) := by
  rw [readValue.eq_def]
  split <;> simp_all

theorem readValue_escape (value rest : List Char) :
    readValue (escape value ++ '"' :: rest) = some (value, rest) := by
  induction value with
  | nil => rfl
  | cons c value ih =>
    rw [escape_cons, List.append_assoc]
    by_cases backslash : c = '\\'
    · subst backslash
      have first : escapeChar '\\' = ['\\', '\\'] := rfl
      simp only [first, List.cons_append, List.nil_append, readValue, ih, Option.map_some]
    by_cases quote : c = '"'
    · subst quote
      have first : escapeChar '"' = ['\\', '"'] := rfl
      simp only [first, List.cons_append, List.nil_append, readValue, ih, Option.map_some]
    by_cases newline : c = '\n'
    · subst newline
      have first : escapeChar '\n' = ['\\', 'n'] := rfl
      simp only [first, List.cons_append, List.nil_append, readValue, ih, Option.map_some]
    · have plain : c ≠ '\\' ∧ c ≠ '"' ∧ c ≠ '\n' := ⟨backslash, quote, newline⟩
      rw [escapeChar_plain plain, List.singleton_append, readValue_plain plain, ih]
      rfl

theorem read_cons {c : Char} {text value rest : List Char}
    (h : (readValue text).map (fun (v, rest) => (c :: v, rest)) = some (value, rest)) :
    ∃ v, readValue text = some (v, rest) ∧ value = c :: v := by
  obtain ⟨⟨v, r⟩, found, same⟩ := Option.map_eq_some_iff.mp h
  cases same
  exact ⟨v, found, rfl⟩

/-- What is read as a value is its escaped text. -/
theorem readValue_sound {text value rest : List Char} (h : readValue text = some (value, rest)) :
    text = escape value ++ '"' :: rest := by
  induction text using readValue.induct generalizing value with
  | case1 => cases h
  | case2 text =>
    cases h
    rfl
  | case3 text ih =>
    obtain ⟨v, found, rfl⟩ := read_cons h
    rw [ih found]
    rfl
  | case4 text ih =>
    obtain ⟨v, found, rfl⟩ := read_cons h
    rw [ih found]
    rfl
  | case5 text ih =>
    obtain ⟨v, found, rfl⟩ := read_cons h
    rw [ih found]
    rfl
  | case6 c text quote _ _ _ special =>
    rw [readValue.eq_def] at h
    simp_all
  | case7 c text quote _ _ _ ordinary ih =>
    simp only [not_or] at ordinary
    have plain : c ≠ '\\' ∧ c ≠ '"' ∧ c ≠ '\n' := ⟨ordinary.1, quote, ordinary.2⟩
    rw [readValue_plain plain] at h
    obtain ⟨v, found, rfl⟩ := read_cons h
    rw [escape_cons, escapeChar_plain plain, ih found]
    rfl

theorem raw_ne_shifted (slashes : Nat) (value after rest : List Char) :
    value ++ '"' :: after ≠ List.replicate (slashes + 1) '\\' ++ (escape value ++ '"' :: rest) := by
  induction value generalizing slashes with
  | nil => simp [List.replicate_succ]
  | cons c value ih =>
    intro same
    rw [List.replicate_succ, List.cons_append, List.cons_append, List.cons.injEq] at same
    obtain ⟨rfl, same⟩ := same
    have more : List.replicate slashes '\\' ++ (escape ('\\' :: value) ++ '"' :: rest) =
        List.replicate (slashes + 1 + 1) '\\' ++ (escape value ++ '"' :: rest) := by
      have first : escapeChar '\\' = List.replicate 2 '\\' := rfl
      rw [escape_cons, first, List.append_assoc, ← List.append_assoc, ← List.replicate_add]
    exact ih (slashes + 1) (same.trans more)

theorem escapeChar_slash {c : Char} (special : ¬ (c ≠ '\\' ∧ c ≠ '"' ∧ c ≠ '\n')) :
    ∃ e, escapeChar c = ['\\', e] := by
  by_cases backslash : c = '\\'
  · exact ⟨'\\', by simp [escapeChar, backslash]⟩
  by_cases quote : c = '"'
  · exact ⟨'"', by simp [escapeChar, quote]⟩
  · have newline : c = '\n' := by
      by_contra newline
      exact special ⟨backslash, quote, newline⟩
    exact ⟨'n', by simp [escapeChar, newline]⟩

/-- Between quotes, a value that is read back from its own characters has nothing to escape. -/
theorem plain_of_read_raw {value after rest : List Char}
    (h : readValue (value ++ '"' :: after) = some (value, rest)) : Plain value := by
  have same := readValue_sound h
  clear h
  induction value with
  | nil => simp [Plain]
  | cons c value ih =>
    by_cases plain : c ≠ '\\' ∧ c ≠ '"' ∧ c ≠ '\n'
    · rw [escape_cons, escapeChar_plain plain] at same
      intro d hd
      rcases List.mem_cons.mp hd with rfl | hd
      · exact plain
      · exact ih (List.cons.inj same).2 d hd
    · obtain ⟨e, first⟩ := escapeChar_slash plain
      rw [escape_cons, first] at same
      have head : c = '\\' := (List.cons.inj same).1
      have tail : value ++ '"' :: after = e :: (escape value ++ '"' :: rest) :=
        (List.cons.inj same).2
      have second : e = '\\' := by
        have slash : escapeChar '\\' = ['\\', '\\'] := rfl
        rw [head, slash] at first
        exact (List.cons.inj (List.cons.inj first).2).1.symm
      rw [second] at tail
      exact absurd tail (raw_ne_shifted 0 value after rest)

/-! ## Labels -/

/-- A label whose name is one. -/
def Named (label : List Char × List Char) : Prop := isWord isLabelChar label.1 = true

theorem isWord_chars {inside : Char → Bool} {word : List Char} (h : isWord inside word = true) :
    word ≠ [] ∧ ∀ c ∈ word, inside c = true := by
  cases word with
  | nil => cases h
  | cons c word =>
    simp only [isWord, Bool.and_eq_true] at h
    exact ⟨List.cons_ne_nil _ _, List.all_eq_true.mp h.2⟩

/-- A word is scanned up to a character that cannot be in it. -/
theorem scan_word {inside : Char → Bool} {word : List Char} (h : isWord inside word = true)
    {c : Char} (stop : inside c = false) (rest : List Char) :
    (word ++ c :: rest).takeWhile inside = word ∧
      (word ++ c :: rest).dropWhile inside = c :: rest := by
  have chars := (isWord_chars h).2
  constructor
  · rw [List.takeWhile_append_of_pos chars, List.takeWhile_cons, stop]
    simp
  · rw [List.dropWhile_append_of_pos chars, List.dropWhile_cons, stop]
    simp

theorem skipBlank_solid {c : Char} (solid : isBlank c = false) (rest : List Char) :
    skipBlank (c :: rest) = c :: rest := by
  simp [skipBlank, solid]

theorem readLabel_open {name : List Char} (word : isWord isLabelChar name = true)
    (text : List Char) :
    readLabel (name ++ '=' :: '"' :: text) =
      (readValue text).map fun (v, rest) => ((name, v), rest) := by
  obtain ⟨taken, dropped⟩ := scan_word word (c := '=') (by decide) ('"' :: text)
  have equals : isBlank '=' = false := rfl
  have quote : isBlank '"' = false := rfl
  simp only [readLabel, taken, word, dropped, if_true, skipBlank_solid equals,
    skipBlank_solid quote]

theorem label_opens {name : List Char} (word : isWord isLabelChar name = true) :
    ∃ c rest, name = c :: rest ∧ isBlank c = false ∧ c ≠ '}' := by
  obtain ⟨nonempty, chars⟩ := isWord_chars word
  cases name with
  | nil => exact absurd rfl nonempty
  | cons c rest =>
    have inside : isLabelChar c = true := chars c List.mem_cons_self
    refine ⟨c, rest, rfl, ?_, ?_⟩
    · by_contra blank
      simp only [isBlank, Bool.or_eq_true, decide_eq_true_eq, Bool.not_eq_false] at blank
      rcases blank with rfl | rfl <;> exact absurd inside (by decide)
    · rintro rfl
      exact absurd inside (by decide)

/-- Behind the quote of its first label, a list of labels goes on with what ends that value. -/
theorem readLabels_open {name : List Char} (word : isWord isLabelChar name = true) (fuel : Nat)
    (text : List Char) :
    readLabels (fuel + 1) (name ++ '=' :: '"' :: text) =
      match readValue text with
      | none => none
      | some (v, text) =>
        match skipBlank text with
        | '}' :: rest => some ([(name, v)], rest)
        | ',' :: rest =>
          (readLabels fuel rest).map fun (labels, rest) => ((name, v) :: labels, rest)
        | _ => none := by
  obtain ⟨c, more, first, solid, brace⟩ := label_opens word
  have read := readLabel_open word text
  rw [first, List.cons_append] at read
  rw [first, List.cons_append, readLabels, skipBlank_solid solid]
  split
  · rename_i same
    exact absurd (List.cons.inj same).1 brace
  · rw [read]
    cases readValue text <;> rfl

theorem readLabels_label {label : List Char × List Char} (named : Named label) (fuel : Nat)
    (text : List Char) :
    readLabels (fuel + 1) (labelText label ++ text) =
      match skipBlank text with
      | '}' :: rest => some ([label], rest)
      | ',' :: rest => (readLabels fuel rest).map fun (labels, rest) => (label :: labels, rest)
      | _ => none := by
  have whole : labelText label ++ text =
      label.1 ++ '=' :: '"' :: (escape label.2 ++ '"' :: text) := by
    simp [labelText]
  rw [whole, readLabels_open named, readValue_escape]

theorem readLabels_joined {labels : List (List Char × List Char)} (nonempty : labels ≠ [])
    (named : ∀ label ∈ labels, Named label) {fuel : Nat} (enough : labels.length ≤ fuel)
    (rest : List Char) :
    readLabels fuel (joined labels ++ '}' :: rest) = some (labels, rest) := by
  have close : isBlank '}' = false := rfl
  have comma : isBlank ',' = false := rfl
  induction labels generalizing fuel with
  | nil => exact absurd rfl nonempty
  | cons label labels ih =>
    cases fuel with
    | zero => cases enough
    | succ fuel =>
      have first := named label List.mem_cons_self
      cases labels with
      | nil =>
        rw [joined, readLabels_label first, skipBlank_solid close]
        rfl
      | cons next labels =>
        have later := ih (List.cons_ne_nil next labels)
          (fun l hl => named l (List.mem_cons_of_mem label hl)) (Nat.le_of_succ_le_succ enough)
        have text : joined (label :: next :: labels) =
            labelText label ++ ',' :: joined (next :: labels) := rfl
        rw [text, List.append_assoc, List.cons_append, readLabels_label first,
          skipBlank_solid comma]
        simp only [later, Option.map_some]

theorem length_le_joined (labels : List (List Char × List Char)) :
    labels.length ≤ (joined labels).length := by
  induction labels with
  | nil => exact Nat.le_refl 0
  | cons label labels ih =>
    have positive : 0 < (labelText label).length := by
      simp only [labelText, List.length_append, List.length_cons]
      omega
    cases labels with
    | nil => exact positive
    | cons next labels =>
      simp only [joined, List.length_append, List.length_cons] at ih ⊢
      omega

/-! ## Samples -/

/-- A value that is one token on its line. -/
def Token (value : List Char) : Prop := value ≠ [] ∧ ∀ c ∈ value, isBlank c = false ∧ c ≠ '\n'

/-- A name and labels that a line can begin with. -/
structure Heading (name : List Char) (labels : List (List Char × List Char)) : Prop where
  word : isWord isNameChar name = true
  named : ∀ label ∈ labels, Named label

theorem readEnd_value (name : List Char) (labels : List (List Char × List Char))
    {value : List Char} (token : Token value) :
    readEnd name labels (' ' :: value) = some ⟨name, labels, value, none⟩ := by
  have solid : ∀ c ∈ value, (!isBlank c) = true := fun c hc => by
    rw [(token.2 c hc).1]
    rfl
  have skipped : skipBlank (' ' :: value) = value := by
    have space : isBlank ' ' = true := rfl
    cases value with
    | nil => exact absurd rfl token.1
    | cons c value =>
      have first := (token.2 c List.mem_cons_self).1
      simp [skipBlank, space, first]
  have taken : value.takeWhile (fun c => !isBlank c) = value := List.takeWhile_eq_self_iff.mpr solid
  have dropped : value.dropWhile (fun c => !isBlank c) = [] := List.dropWhile_eq_nil_iff.mpr solid
  simp only [readEnd, skipped, taken, token.1, if_false, dropped]
  rfl

/-- The line of a sample is read as that sample. -/
theorem readSample_text {name : List Char} {labels : List (List Char × List Char)}
    (heading : Heading name labels) {value : List Char} (token : Token value) :
    readSample (sampleText name labels value) = some ⟨name, labels, value, none⟩ := by
  cases labels with
  | nil =>
    obtain ⟨taken, dropped⟩ := scan_word heading.word (c := ' ') (by decide) value
    have text : sampleText name [] value = name ++ ' ' :: value := rfl
    simp only [text, readSample, taken, heading.word, if_true, dropped]
    exact readEnd_value name [] token
  | cons label labels =>
    have nonempty : label :: labels ≠ [] := List.cons_ne_nil label labels
    have text : sampleText name (label :: labels) value =
        name ++ '{' :: (joined (label :: labels) ++ '}' :: ' ' :: value) := by
      simp [sampleText, labelBlock]
    have enough : (label :: labels).length ≤
        (joined (label :: labels) ++ '}' :: ' ' :: value).length + 1 := by
      have := length_le_joined (label :: labels)
      rw [List.length_append]
      omega
    have read := readLabels_joined nonempty heading.named enough (' ' :: value)
    obtain ⟨taken, dropped⟩ := scan_word heading.word (c := '{') (by decide)
      (joined (label :: labels) ++ '}' :: ' ' :: value)
    simp only [text, readSample, taken, heading.word, if_true, dropped, read, Option.bind_some,
      readEnd_value name (label :: labels) token]

theorem readEnd_labels {name rest : List Char} {labels : List (List Char × List Char)} {s : Sample}
    (h : readEnd name labels rest = some s) : s.labels = labels := by
  simp only [readEnd] at h
  split at h
  · cases h
  split at h
  · cases h
    rfl
  split at h
  · cases h
    rfl
  · cases h

theorem readLabels_first {name : List Char} (word : isWord isLabelChar name = true) {fuel : Nat}
    {text rest : List Char} {labels : List (List Char × List Char)}
    (h : readLabels fuel (name ++ '=' :: '"' :: text) = some (labels, rest)) :
    ∃ v after more, readValue text = some (v, after) ∧ labels = (name, v) :: more := by
  cases fuel with
  | zero => cases h
  | succ fuel =>
    rw [readLabels_open word] at h
    cases read : readValue text with
    | none =>
      rw [read] at h
      cases h
    | some found =>
      obtain ⟨v, after⟩ := found
      rw [read] at h
      dsimp only at h
      split at h
      · cases h
        exact ⟨v, after, [], rfl, rfl⟩
      · obtain ⟨⟨more, left⟩, -, same⟩ := Option.map_eq_some_iff.mp h
        cases same
        exact ⟨v, after, more, rfl, rfl⟩
      · cases h

/-- The first label of a line that is read was read behind its opening quote. -/
theorem readSample_first {name label text : List Char} (word : isWord isNameChar name = true)
    (labelWord : isWord isLabelChar label = true) {s : Sample}
    (h : readSample (name ++ '{' :: (label ++ '=' :: '"' :: text)) = some s) :
    ∃ v rest labels, readValue text = some (v, rest) ∧ s.labels = (label, v) :: labels := by
  obtain ⟨taken, dropped⟩ := scan_word word (c := '{') (by decide) (label ++ '=' :: '"' :: text)
  simp only [readSample, taken, word, if_true, dropped] at h
  obtain ⟨⟨labels, rest⟩, read, ended⟩ := Option.bind_eq_some_iff.mp h
  obtain ⟨v, after, more, found, first⟩ := readLabels_first labelWord read
  exact ⟨v, after, more, found, (readEnd_labels ended).trans first⟩

/-! ## Whole texts -/

theorem exposition_skip {line : List Char} (inline : '\n' ∉ line)
    (skipped : isSampleLine line = false) (rest : List Char) :
    exposition (line ++ '\n' :: rest) = exposition rest := by
  rw [exposition, List.splitOn_append_cons_self_of_not_mem inline, List.filter_cons, skipped]
  rfl

theorem exposition_sample {line : List Char} (inline : '\n' ∉ line)
    (sample : isSampleLine line = true) (rest : List Char) :
    exposition (line ++ '\n' :: rest) =
      (readSample line).bind fun s => (exposition rest).map fun later => s :: later := by
  rw [exposition, List.splitOn_append_cons_self_of_not_mem inline, List.filter_cons, sample,
    if_pos rfl, List.mapM_cons]
  cases readSample line with
  | none => rfl
  | some s =>
    rw [exposition]
    cases ((rest.splitOn '\n').filter isSampleLine).mapM readSample <;> rfl

theorem blank_outside {c : Char} (h : isNameChar c = true) :
    isBlank c = false ∧ c ≠ '#' ∧ c ≠ '\n' := by
  refine ⟨?_, ?_, ?_⟩
  · by_contra blank
    simp only [isBlank, Bool.or_eq_true, decide_eq_true_eq, Bool.not_eq_false] at blank
    rcases blank with rfl | rfl <;> exact absurd h (by decide)
  · rintro rfl
    exact absurd h (by decide)
  · rintro rfl
    exact absurd h (by decide)

theorem word_inline {word : List Char} (h : isWord isNameChar word = true) : '\n' ∉ word :=
  fun found => (blank_outside ((isWord_chars h).2 _ found)).2.2 rfl

theorem label_inline {word : List Char} (h : isWord isLabelChar word = true) : '\n' ∉ word :=
  fun found => absurd ((isWord_chars h).2 _ found) (by decide)

theorem escape_inline (value : List Char) : '\n' ∉ escape value := by
  intro found
  obtain ⟨c, -, inside⟩ := List.mem_flatMap.mp found
  rw [escapeChar] at inside
  split at inside
  · simp at inside
  split at inside
  · simp at inside
  split at inside
  · simp at inside
  · rename_i other
    exact other (List.mem_singleton.mp inside).symm

theorem joined_inline {labels : List (List Char × List Char)}
    (named : ∀ label ∈ labels, Named label) : '\n' ∉ joined labels := by
  have inline (label : List Char × List Char) (h : Named label) : '\n' ∉ labelText label := by
    have word := label_inline h
    have value := escape_inline label.2
    simp [labelText, word, value]
  induction labels with
  | nil => exact List.not_mem_nil
  | cons label labels ih =>
    have first := inline label (named label List.mem_cons_self)
    have later := ih fun l hl => named l (List.mem_cons_of_mem label hl)
    cases labels with
    | nil => exact first
    | cons next labels =>
      have text : joined (label :: next :: labels) =
          labelText label ++ ',' :: joined (next :: labels) := rfl
      rw [text]
      simp [first, later]

theorem sampleText_inline {name : List Char} {labels : List (List Char × List Char)}
    (heading : Heading name labels) {value : List Char} (token : Token value) :
    '\n' ∉ sampleText name labels value := by
  have word := word_inline heading.word
  have value : '\n' ∉ value := fun found => (token.2 _ found).2 rfl
  have block : '\n' ∉ labelBlock labels := by
    cases labels with
    | nil => exact List.not_mem_nil
    | cons label labels => simp [labelBlock, joined_inline heading.named]
  simp [sampleText, word, block, value]

theorem isSampleLine_word {name : List Char} (word : isWord isNameChar name = true)
    (rest : List Char) : isSampleLine (name ++ rest) = true := by
  obtain ⟨nonempty, chars⟩ := isWord_chars word
  cases name with
  | nil => exact absurd rfl nonempty
  | cons c name =>
    obtain ⟨solid, comment, -⟩ := blank_outside (chars c List.mem_cons_self)
    simp [isSampleLine, skipBlank_solid solid, comment]

/-- A line of a text: a comment, or a sample with its labels and value. -/
inductive Item where
  | comment (text : List Char)
  | sample (name : List Char) (labels : List (List Char × List Char)) (value : List Char)

namespace Item

def line : Item → List Char
  | comment text => '#' :: text
  | sample name labels value => sampleText name labels value

def read : Item → Option Sample
  | comment _ => none
  | sample name labels value => some ⟨name, labels, value, none⟩

def Good : Item → Prop
  | comment text => '\n' ∉ text
  | sample name labels value => Heading name labels ∧ Token value

end Item

def written (items : List Item) : List Char := items.flatMap fun item => item.line ++ ['\n']

theorem exposition_append {items : List Item} (good : ∀ item ∈ items, item.Good)
    (rest : List Char) :
    exposition (written items ++ rest) =
      (exposition rest).map fun later => items.filterMap Item.read ++ later := by
  induction items with
  | nil =>
    rw [written, List.flatMap_nil, List.nil_append]
    cases exposition rest <;> rfl
  | cons item items ih =>
    have later := ih fun i hi => good i (List.mem_cons_of_mem item hi)
    have text : written (item :: items) ++ rest = item.line ++ '\n' :: (written items ++ rest) := by
      simp [written]
    have own := good item List.mem_cons_self
    rw [text]
    cases item with
    | comment comment =>
      have inline : '\n' ∉ (Item.comment comment).line := by
        intro found
        rcases List.mem_cons.mp found with same | found
        · exact absurd same (by decide)
        · exact own found
      rw [exposition_skip inline rfl, later]
      rfl
    | sample name labels value =>
      obtain ⟨heading, token⟩ := own
      have sample : isSampleLine (sampleText name labels value) = true :=
        isSampleLine_word heading.word _
      rw [Item.line, exposition_sample (sampleText_inline heading token) sample,
        readSample_text heading token, later]
      cases exposition rest <;> rfl

/-- A written text is read as its samples, in order. -/
theorem exposition_written {items : List Item} (good : ∀ item ∈ items, item.Good) :
    exposition (written items) = some (items.filterMap Item.read) := by
  have all := exposition_append good []
  have nothing : exposition [] = some [] := rfl
  rw [List.append_nil, nothing, Option.map_some, List.append_nil] at all
  exact all

theorem sampleText_inj {name name' : List Char} {labels labels' : List (List Char × List Char)}
    {value value' : List Char} (heading : Heading name labels) (heading' : Heading name' labels')
    (token : Token value) (token' : Token value')
    (same : sampleText name labels value = sampleText name' labels' value') :
    name = name' ∧ labels = labels' ∧ value = value' := by
  have read := readSample_text heading token
  rw [same, readSample_text heading' token'] at read
  cases read
  exact ⟨rfl, rfl, rfl⟩

/-! ## Values that are written as they are -/

theorem exposition_head {name rest : List Char} (word : isWord isNameChar name = true)
    {samples : List Sample} (h : exposition (name ++ rest) = some samples) :
    ∃ s more, samples = s :: more ∧
      readSample (name ++ firstPiece '\n' rest) = some s := by
  obtain ⟨pieces, split⟩ := splitOn_head '\n' (name ++ rest)
  rw [firstPiece_append (word_inline word)] at split
  rw [exposition, split, List.filter_cons, isSampleLine_word word, if_pos rfl, List.mapM_cons] at h
  obtain ⟨s, read, later⟩ := Option.bind_eq_some_iff.mp h
  obtain ⟨more, -, same⟩ := Option.bind_eq_some_iff.mp later
  cases same
  exact ⟨s, more, rfl, read⟩

theorem length_le_escape (value : List Char) : value.length ≤ (escape value).length := by
  induction value with
  | nil => exact Nat.le_refl 0
  | cons c value ih =>
    have positive : 0 < (escapeChar c).length := by
      rw [escapeChar]
      split
      · exact Nat.two_pos
      split
      · exact Nat.two_pos
      split
      · exact Nat.two_pos
      · exact Nat.one_pos
    rw [escape_cons, List.length_append, List.length_cons]
    omega

/-- A value that comes back from a text with its own characters between the quotes is plain. -/
theorem plain_of_exposition_raw {name label value after : List Char}
    (word : isWord isNameChar name = true) (labelWord : isWord isLabelChar label = true)
    {s : Sample} {more : List Sample} {labels : List (List Char × List Char)}
    (h : exposition (name ++ '{' :: (label ++ '=' :: '"' :: (value ++ '"' :: after))) =
      some (s :: more)) (first : s.labels = (label, value) :: labels) : Plain value := by
  obtain ⟨s', more', listed, read⟩ := exposition_head word h
  cases listed
  have opening : '\n' ∉ '{' :: (label ++ ['=', '"']) := by simp [label_inline labelWord]
  have line : firstPiece '\n' ('{' :: (label ++ '=' :: '"' :: (value ++ '"' :: after))) =
      '{' :: (label ++ '=' :: '"' :: firstPiece '\n' (value ++ '"' :: after)) := by
    have whole := firstPiece_append opening (value ++ '"' :: after)
    simpa using whole
  rw [line] at read
  obtain ⟨v, rest, labels', found, same⟩ := readSample_first word labelWord read
  rw [first] at same
  cases same
  by_cases newline : '\n' ∈ value
  · -- the line breaks off inside the value, before the quote that would close it
    have short : (firstPiece '\n' (value ++ '"' :: after)).length ≤ value.length := by
      rw [firstPiece_inside newline]
      exact List.takeWhile_sublist _ |>.length_le
    have length := congrArg List.length (readValue_sound found)
    have least := length_le_escape value
    simp only [List.length_append, List.length_cons] at length
    omega
  · rw [firstPiece_append newline] at found
    have quote : firstPiece '\n' ('"' :: after) = '"' :: firstPiece '\n' after := rfl
    rw [quote] at found
    exact plain_of_read_raw found

end ExpositionFormat
