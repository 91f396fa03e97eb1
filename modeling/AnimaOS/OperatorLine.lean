import AnimaOS.FixedWidth
import AnimaOS.JsonString
import AnimaOS.Numerals

/-!
# Operator input on the serial line

`parse_input_line` and its field scanner, and the line a JSON writer makes of an
`OperatorInput`. The scanner finds a field by the first place its quoted name
stands in the line, which may be the end of an earlier field's value.
-/

namespace OperatorLine

open FixedWidth JsonString Numerals TextSplit

inductive Priority where
  | low
  | normal
  | high
  | critical
  deriving DecidableEq, Repr

namespace Priority

def parse (s : List Char) : Priority :=
  let spelled := (trimWhitespace s).map Char.toLower
  if spelled = "low".toList then .low
  else if spelled = "high".toList then .high
  else if spelled = "critical".toList then .critical
  else .normal

def asStr : Priority → String
  | .low => "Low"
  | .normal => "Normal"
  | .high => "High"
  | .critical => "Critical"

end Priority

structure OperatorInput where
  text : String
  priority : Priority
  messageId : Option String
  replyTo : Option String
  force : Option String
  deriving DecidableEq, Repr

/-! ## Reading a line -/

def inputPrefix : String := "ANIMA_IN "

/-- `char::from_u32`, with the replacement character for what is no scalar value. -/
def charFromU32 (code : Nat) : Char :=
  if code.isValidChar then Char.ofNat code else '\ufffd'

/-- The character an escape letter stands for: an unknown letter stands for itself. -/
def unescapeChar : Char → Char
  | '"' => '"'
  | '\\' => '\\'
  | '/' => '/'
  | 'n' => '\n'
  | 'r' => '\r'
  | 't' => '\t'
  | 'b' => '\x08'
  | 'f' => '\x0c'
  | other => other

/-- The walk to the closing unescaped quote. -/
def decodeBody : List Char → Option (List Char)
  | [] => none
  | '"' :: _ => some []
  | '\\' :: 'u' :: a :: b :: c :: d :: rest =>
    match fromStrRadix 16 (maxOf 32) [a, b, c, d] with
    | some code => (decodeBody rest).map (charFromU32 code :: ·)
    | none => none
  -- fewer than four characters follow: whatever they are, the text ends before a closing quote
  | '\\' :: 'u' :: _ => none
  | '\\' :: e :: rest => (decodeBody rest).map (unescapeChar e :: ·)
  | ['\\'] => none
  | c :: rest => (decodeBody rest).map (c :: ·)

/-- The colon and the string value after a key. -/
def readValue (afterKey : List Char) : Option (List Char) := do
  let afterColon ← stripPrefix [':'] (trimStartWhitespace afterKey)
  let body ← stripPrefix ['"'] (trimStartWhitespace afterColon)
  decodeBody body

def extractJsonString (src key : List Char) : Option (List Char) := do
  let afterKey ← afterFirst ('"' :: (key ++ ['"'])) src
  readValue afterKey

def parseInputLine (line : String) : Option OperatorInput := do
  let line := trimWhitespace line.toList
  let line := (stripPrefix inputPrefix.toList line).getD line
  let text ← extractJsonString line "text".toList
  let priority := ((extractJsonString line "priority".toList).map Priority.parse).getD .normal
  let force := extractJsonString line "force".toList
  let messageId := extractJsonString line "message_id".toList
  let replyTo := extractJsonString line "reply_to".toList
  some ⟨.ofList text, priority, messageId.map .ofList, replyTo.map .ofList, force.map .ofList⟩

/-! ## Writing a line -/

def serdeLetter : Char → Option Char
  | '"' => some '"'
  | '\\' => some '\\'
  | '\x08' => some 'b'
  | '\x0c' => some 'f'
  | '\n' => some 'n'
  | '\r' => some 'r'
  | '\t' => some 't'
  | _ => none

/-- The short escapes of compact JSON as the standard serialiser writes it. -/
def serde : ShortEscapes where
  letter := serdeLetter
  quote := rfl
  backslash := rfl
  standard := by
    intro c e h
    simp only [serdeLetter] at h
    split at h
    all_goals cases h
    all_goals rfl

def optionalField (key : String) (value : Option String) : List (List Char × List Char) :=
  match value with
  | some value => [(key.toList, value.toList)]
  | none => []

def fields (input : OperatorInput) : List (List Char × List Char) :=
  [("text".toList, input.text.toList), ("priority".toList, input.priority.asStr.toList)] ++
    optionalField "message_id" input.messageId ++ optionalField "reply_to" input.replyTo ++
    optionalField "force" input.force

def serialize (input : OperatorInput) : String := .ofList (serde.object (fields input))

/-! ## Reading a quoted value back -/

theorem decodeBody_quote (rest : List Char) : decodeBody ('"' :: rest) = some [] := by
  rw [decodeBody]

theorem decodeBody_letter {e : Char} (h : e ≠ 'u') (rest : List Char) :
    decodeBody ('\\' :: e :: rest) = (decodeBody rest).map (unescapeChar e :: ·) := by
  rw [decodeBody]
  · intro a b c d more same
    exact absurd same h
  · exact h

theorem decodeBody_code (a b c d : Char) (rest : List Char) {code : Nat}
    (h : fromStrRadix 16 (maxOf 32) [a, b, c, d] = some code) :
    decodeBody ('\\' :: 'u' :: a :: b :: c :: d :: rest) =
      (decodeBody rest).map (charFromU32 code :: ·) := by
  rw [decodeBody]
  simp only [h]

theorem decodeBody_plain {c : Char} (quote : c ≠ '"') (backslash : c ≠ '\\') (rest : List Char) :
    decodeBody (c :: rest) = (decodeBody rest).map (c :: ·) := by
  rw [decodeBody]
  all_goals simp [quote, backslash]

theorem unescapeChar_standard {e c : Char} (h : unescape e = some c) :
    unescapeChar e = c ∧ e ≠ 'u' := by
  simp only [unescape] at h
  split at h
  all_goals cases h
  all_goals exact ⟨rfl, by decide⟩

theorem control_code : ∀ n, n < 32 →
    fromStrRadix 16 (maxOf 32) ['0', '0', hexDigit (n / 16), hexDigit (n % 16)] = some n ∧
      charFromU32 n = Char.ofNat n := by
  decide

theorem decodeBody_escapeChar (w : ShortEscapes) (c : Char) (rest : List Char) :
    decodeBody (w.escapeChar c ++ rest) = (decodeBody rest).map (c :: ·) := by
  cases letter : w.letter c with
  | some e =>
    obtain ⟨same, notU⟩ := unescapeChar_standard (w.standard c e letter)
    simp only [ShortEscapes.escapeChar, letter, List.cons_append, List.nil_append]
    rw [decodeBody_letter notU, same]
  | none =>
    by_cases control : c.toNat < 0x20
    · obtain ⟨read, char⟩ := control_code c.toNat control
      simp only [ShortEscapes.escapeChar, letter, if_pos control, List.cons_append, List.nil_append]
      rw [decodeBody_code _ _ _ _ rest read, char, Char.ofNat_toNat]
    · have quote : c ≠ '"' := by
        rintro rfl
        rw [w.quote] at letter
        cases letter
      have backslash : c ≠ '\\' := by
        rintro rfl
        rw [w.backslash] at letter
        cases letter
      simp only [ShortEscapes.escapeChar, letter, if_neg control, List.singleton_append]
      exact decodeBody_plain quote backslash rest

theorem decodeBody_escape (w : ShortEscapes) (text rest : List Char) :
    decodeBody (w.escape text ++ '"' :: rest) = some text := by
  induction text with
  | nil => exact decodeBody_quote rest
  | cons c text ih =>
    rw [ShortEscapes.escape_cons, List.append_assoc, decodeBody_escapeChar, ih, Option.map_some]

/-! ## Reading the fields back -/

theorem readValue_quoted (w : ShortEscapes) (value rest : List Char) :
    readValue (':' :: (w.quoted value ++ rest)) = some value := by
  have opened : w.quoted value ++ rest = '"' :: (w.escape value ++ '"' :: rest) := by
    simp [ShortEscapes.quoted]
  have colon : isWhitespace ':' = false := rfl
  have quote : isWhitespace '"' = false := rfl
  simp only [readValue, opened, trimStartWhitespace_cons colon, trimStartWhitespace_cons quote,
    stripPrefix_head, Option.bind_eq_bind, Option.bind_some, decodeBody_escape]

theorem readValue_closing (w : ShortEscapes) (fields : List (List Char × List Char)) :
    readValue (w.closing fields) = none := by
  obtain ⟨c, rest, closed, comma | brace⟩ := w.closing_head fields
  · subst comma
    have solid : isWhitespace ',' = false := rfl
    have other := stripPrefix_other (show ':' ≠ ',' by decide) rest
    simp only [readValue, closed, trimStartWhitespace_cons solid, other, Option.bind_eq_bind,
      Option.bind_none]
  · subst brace
    have solid : isWhitespace '}' = false := rfl
    have other := stripPrefix_other (show ':' ≠ '}' by decide) rest
    simp only [readValue, closed, trimStartWhitespace_cons solid, other, Option.bind_eq_bind,
      Option.bind_none]

theorem extract_member {w : ShortEscapes} {key : List Char} (name : w.FieldName key)
    {field : List Char × List Char} (named : w.FieldName field.1) {c : Char} (opening : '"' ≠ c)
    {rest : List (List Char × List Char)}
    (later : extractJsonString (w.closing rest) key = ShortEscapes.firstHit key rest) :
    extractJsonString (c :: w.member field ++ w.closing rest) key =
      ShortEscapes.firstHit key (field :: rest) := by
  have fresh : '"' ∉ [c] := by simpa using opening
  have skipped := afterFirst_skip fresh (key ++ ['"']) (w.member field ++ w.closing rest)
  have found := ShortEscapes.afterFirst_member name named rest
  simp only [ShortEscapes.needle] at found
  rw [List.singleton_append, found] at skipped
  simp only [extractJsonString, List.cons_append, skipped, ShortEscapes.firstHit]
  split
  · exact readValue_quoted w _ _
  · split
    · exact readValue_closing w rest
    · exact later

theorem extract_closing {w : ShortEscapes} {key : List Char} (name : w.FieldName key)
    {fields : List (List Char × List Char)} (named : ∀ f ∈ fields, w.FieldName f.1) :
    extractJsonString (w.closing fields) key = ShortEscapes.firstHit key fields := by
  induction fields with
  | nil =>
    have absent : afterFirst ('"' :: (key ++ ['"'])) ['}'] = none := by
      have fresh : '"' ∉ ['}'] := by decide
      exact afterFirst_skip fresh (key ++ ['"']) []
    simp only [extractJsonString, ShortEscapes.closing, absent]
    rfl
  | cons field rest ih =>
    have later := ih fun f hf => named f (List.mem_cons_of_mem _ hf)
    exact extract_member name (named field List.mem_cons_self) (by decide) later

theorem extract_object {w : ShortEscapes} {key : List Char} (name : w.FieldName key)
    {field : List Char × List Char} {rest : List (List Char × List Char)}
    (named : ∀ f ∈ field :: rest, w.FieldName f.1) :
    extractJsonString (w.object (field :: rest)) key =
      ShortEscapes.firstHit key (field :: rest) :=
  extract_member name (named field List.mem_cons_self) (by decide)
    (extract_closing name fun f hf => named f (List.mem_cons_of_mem _ hf))

/-! ## The round trip -/

def fieldNames : List String := ["text", "priority", "message_id", "reply_to", "force"]

theorem fieldName_ok {name : String} (known : name ∈ fieldNames) : serde.FieldName name.toList := by
  have checked : fieldNames.all (fun name => decide (name.toList ≠ []) &&
      name.toList.all fun c => decide (serde.Plain c ∧ c ≠ ':' ∧ c ≠ ',' ∧ c ≠ '}')) = true := by
    decide
  have ok := List.all_eq_true.mp checked name known
  simp only [Bool.and_eq_true, decide_eq_true_eq, List.all_eq_true] at ok
  exact ⟨ok.1, fun c hc => (ok.2 c hc).1, fun c hc => (ok.2 c hc).2⟩

theorem fieldName_inj {a b : String} (apart : a ≠ b) : a.toList ≠ b.toList :=
  fun same => apart (String.toList_inj.mp same)

theorem firstHit_optional {key : String} {before after : List (List Char × List Char)}
    (unnamed : ∀ f ∈ before ++ after, f.1 ≠ key.toList) (value : Option String) :
    (ShortEscapes.firstHit key.toList (before ++ (optionalField key value ++ after))).map
        String.ofList = value ↔
      value = none ∨ ∀ f ∈ before, ¬ ShortEscapes.Captures f.2 key.toList := by
  have earlier : ∀ f ∈ before, f.1 ≠ key.toList := fun f hf => unnamed f (List.mem_append_left _ hf)
  have later : ∀ f ∈ after, f.1 ≠ key.toList := fun f hf => unnamed f (List.mem_append_right _ hf)
  rw [ShortEscapes.firstHit_append earlier]
  cases value with
  | none => simp [optionalField, ShortEscapes.firstHit_unnamed later]
  | some value =>
    simp only [optionalField, List.singleton_append, ShortEscapes.firstHit_own]
    split
    · rename_i captured
      obtain ⟨f, hf, captures⟩ := captured
      simp only [Option.map_none, reduceCtorEq, false_or, false_iff]
      exact fun free => free f hf captures
    · rename_i free
      simp only [Option.map_some, String.ofList_toList, reduceCtorEq, false_or, true_iff]
      exact fun f hf captures => free ⟨f, hf, captures⟩

theorem fields_named (input : OperatorInput) : ∀ f ∈ fields input, serde.FieldName f.1 := by
  have optional : ∀ name ∈ fieldNames, ∀ value, ∀ f ∈ optionalField name value,
      serde.FieldName f.1 := by
    intro name known value f hf
    cases value with
    | none => cases hf
    | some value =>
      rw [List.mem_singleton.mp hf]
      exact fieldName_ok known
  intro f hf
  simp only [fields, List.mem_append, List.mem_cons, List.not_mem_nil, or_false] at hf
  rcases hf with (((rfl | rfl) | hf) | hf) | hf
  · exact fieldName_ok (by decide)
  · exact fieldName_ok (by decide)
  · exact optional "message_id" (by decide) _ f hf
  · exact optional "reply_to" (by decide) _ f hf
  · exact optional "force" (by decide) _ f hf

theorem extract_field (input : OperatorInput) {name : String} (known : name ∈ fieldNames) :
    extractJsonString (serde.object (fields input)) name.toList =
      ShortEscapes.firstHit name.toList (fields input) :=
  extract_object (fieldName_ok known) (fields_named input)

/-- The line has no white space around it and no serial prefix. -/
theorem line_bare (input : OperatorInput) :
    let line := trimWhitespace (serialize input).toList
    (stripPrefix inputPrefix.toList line).getD line = serde.object (fields input) := by
  intro line
  obtain ⟨first, more, listed⟩ : ∃ first more, fields input = first :: more := ⟨_, _, rfl⟩
  obtain ⟨text, closed⟩ := serde.closing_last more
  have framed : serde.object (fields input) = '{' :: (serde.member first ++ text) ++ ['}'] := by
    rw [listed, ShortEscapes.object, closed]
    simp
  have bare : line = serde.object (fields input) := by
    simp only [line, serialize, String.toList_ofList]
    rw [framed]
    exact trimWhitespace_ends rfl rfl _
  rw [bare, framed]
  rfl

/-! ## When the round trip succeeds -/

/-- No value written before the field captures its name. -/
def Unshadowed (earlier : List String) (name : String) : Prop :=
  ∀ value ∈ earlier, ¬ ShortEscapes.Captures value.toList name.toList

structure Preserved (input : OperatorInput) : Prop where
  priority : input.priority = .normal ∨ Unshadowed [input.text] "priority"
  messageId : input.messageId = none ∨ Unshadowed [input.text] "message_id"
  replyTo : input.replyTo = none ∨
    Unshadowed (input.text :: input.messageId.toList) "reply_to"
  force : input.force = none ∨
    Unshadowed (input.text :: input.messageId.toList ++ input.replyTo.toList) "force"

theorem optionalField_name {name : String} {value : Option String} {f : List Char × List Char}
    (h : f ∈ optionalField name value) : f.1 = name.toList := by
  cases value with
  | none => cases h
  | some value => rw [List.mem_singleton.mp h]

theorem priority_never_captures (p : Priority) {name : String} (known : name ∈ fieldNames) :
    ¬ ShortEscapes.Captures p.asStr.toList name.toList := by
  have checked : ∀ name ∈ fieldNames, ¬ ShortEscapes.Captures p.asStr.toList name.toList := by
    cases p
    all_goals decide
  exact checked name known

theorem priority_parse (p : Priority) : Priority.parse p.asStr.toList = p := by
  cases p
  all_goals decide

/-- The fields written before the priority and before each optional field. -/
def head (input : OperatorInput) : List (List Char × List Char) :=
  [("text".toList, input.text.toList), ("priority".toList, input.priority.asStr.toList)]

theorem head_unshadowed (input : OperatorInput) {name : String} (known : name ∈ fieldNames)
    {earlier : List (List Char × List Char)} {values : List String}
    (written : earlier.map Prod.snd = values.map String.toList) :
    (∀ f ∈ head input ++ earlier, ¬ ShortEscapes.Captures f.2 name.toList) ↔
      Unshadowed (input.text :: values) name := by
  have later : (∀ f ∈ earlier, ¬ ShortEscapes.Captures f.2 name.toList) ↔
      ∀ value ∈ values, ¬ ShortEscapes.Captures value.toList name.toList := by
    have mapped := congrArg (fun l => ∀ text ∈ l, ¬ ShortEscapes.Captures text name.toList) written
    simpa only [List.forall_mem_map] using iff_of_eq mapped
  have never := priority_never_captures input.priority known
  simp only [head, List.cons_append, List.nil_append, List.forall_mem_cons, Unshadowed, later, never,
    not_false_eq_true, true_and]

theorem optionalField_values (key : String) (value : Option String) :
    (optionalField key value).map Prod.snd = value.toList.map String.toList := by
  cases value with
  | none => rfl
  | some value => rfl

/-- No field but its own has the name. -/
theorem other_name {name key : String} {value : Option String}
    {f : List Char × List Char} (apart : key ≠ name) (h : f ∈ optionalField key value) :
    f.1 ≠ name.toList := by
  rw [optionalField_name h]
  exact fieldName_inj apart

theorem head_name {input : OperatorInput} {name : String} (apart : "text" ≠ name ∧ "priority" ≠ name)
    {f : List Char × List Char} (h : f ∈ head input) : f.1 ≠ name.toList := by
  rcases List.mem_cons.mp h with rfl | h
  · exact fieldName_inj apart.1
  · rw [List.mem_singleton.mp h]
    exact fieldName_inj apart.2

theorem read_text (input : OperatorInput) :
    extractJsonString (serde.object (fields input)) "text".toList = some input.text.toList := by
  rw [extract_field input (by decide)]
  exact ShortEscapes.firstHit_own _ _ _

theorem read_priority (input : OperatorInput) :
    ((extractJsonString (serde.object (fields input)) "priority".toList).map
        Priority.parse).getD .normal = input.priority ↔
      input.priority = .normal ∨ Unshadowed [input.text] "priority" := by
  have other : ∀ f ∈ [("text".toList, input.text.toList)], f.1 ≠ "priority".toList := by
    intro f hf
    rw [List.mem_singleton.mp hf]
    exact fieldName_inj (by decide)
  have hit := ShortEscapes.firstHit_append other
    (("priority".toList, input.priority.asStr.toList) ::
      (optionalField "message_id" input.messageId ++ optionalField "reply_to" input.replyTo ++
        optionalField "force" input.force))
  rw [ShortEscapes.firstHit_own] at hit
  have listed : fields input = [("text".toList, input.text.toList)] ++
      (("priority".toList, input.priority.asStr.toList) ::
      (optionalField "message_id" input.messageId ++ optionalField "reply_to" input.replyTo ++
        optionalField "force" input.force)) := by
    simp [fields]
  rw [extract_field input (by decide), listed, hit]
  split
  · rename_i captured
    obtain ⟨f, hf, captures⟩ := captured
    rw [List.mem_singleton.mp hf] at captures
    have shadowed : ¬ Unshadowed [input.text] "priority" :=
      fun free => free input.text (List.mem_singleton_self _) captures
    simp [shadowed, eq_comm]
  · rename_i free
    have unshadowed : Unshadowed [input.text] "priority" := by
      intro value hv captures
      rw [List.mem_singleton.mp hv] at captures
      exact free ⟨_, List.mem_singleton_self _, captures⟩
    simp [unshadowed, priority_parse]

theorem read_optional {input : OperatorInput} {name : String} (known : name ∈ fieldNames)
    (apart : "text" ≠ name ∧ "priority" ≠ name) {value : Option String} {values : List String}
    {earlier later : List (List Char × List Char)}
    (listed : fields input = (head input ++ earlier) ++ (optionalField name value ++ later))
    (written : earlier.map Prod.snd = values.map String.toList)
    (unnamed : ∀ f ∈ earlier ++ later, f.1 ≠ name.toList) :
    (extractJsonString (serde.object (fields input)) name.toList).map String.ofList = value ↔
      value = none ∨ Unshadowed (input.text :: values) name := by
  have others : ∀ f ∈ head input ++ earlier ++ later, f.1 ≠ name.toList := by
    intro f hf
    rw [List.append_assoc] at hf
    rcases List.mem_append.mp hf with front | rest
    · exact head_name apart front
    · exact unnamed f rest
  rw [extract_field input known, listed, firstHit_optional others, head_unshadowed input known written]

theorem read_messageId (input : OperatorInput) :
    (extractJsonString (serde.object (fields input)) "message_id".toList).map String.ofList =
        input.messageId ↔
      input.messageId = none ∨ Unshadowed [input.text] "message_id" := by
  have listed : fields input = (head input ++ []) ++ (optionalField "message_id" input.messageId ++
      (optionalField "reply_to" input.replyTo ++ optionalField "force" input.force)) := by
    simp [fields, head]
  refine read_optional (by decide) (by decide) listed rfl ?_
  intro f hf
  rw [List.nil_append] at hf
  rcases List.mem_append.mp hf with reply | force
  · exact other_name (by decide) reply
  · exact other_name (by decide) force

theorem read_replyTo (input : OperatorInput) :
    (extractJsonString (serde.object (fields input)) "reply_to".toList).map String.ofList =
        input.replyTo ↔
      input.replyTo = none ∨ Unshadowed (input.text :: input.messageId.toList) "reply_to" := by
  have listed : fields input = (head input ++ optionalField "message_id" input.messageId) ++
      (optionalField "reply_to" input.replyTo ++ optionalField "force" input.force) := by
    simp [fields, head]
  refine read_optional (by decide) (by decide) listed
    (optionalField_values "message_id" input.messageId) ?_
  intro f hf
  rcases List.mem_append.mp hf with message | force
  · exact other_name (by decide) message
  · exact other_name (by decide) force

theorem read_force (input : OperatorInput) :
    (extractJsonString (serde.object (fields input)) "force".toList).map String.ofList =
        input.force ↔
      input.force = none ∨
        Unshadowed (input.text :: (input.messageId.toList ++ input.replyTo.toList)) "force" := by
  have listed : fields input = (head input ++ (optionalField "message_id" input.messageId ++
      optionalField "reply_to" input.replyTo)) ++ (optionalField "force" input.force ++ []) := by
    simp [fields, head]
  have written : (optionalField "message_id" input.messageId ++
      optionalField "reply_to" input.replyTo).map Prod.snd =
      (input.messageId.toList ++ input.replyTo.toList).map String.toList := by
    simp only [List.map_append, optionalField_values]
  refine read_optional (by decide) (by decide) listed written ?_
  intro f hf
  rw [List.append_nil] at hf
  rcases List.mem_append.mp hf with message | reply
  · exact other_name (by decide) message
  · exact other_name (by decide) reply

/-- The serialised line is read back as the input it was made of exactly when no
field that carries something has its name captured by a value written before it. -/
theorem operator_input_round_trip_iff (input : OperatorInput) :
    parseInputLine (serialize input) = some input ↔ Preserved input := by
  have bare := line_bare input
  simp only at bare
  simp only [parseInputLine, bare, read_text, Option.bind_eq_bind, Option.bind_some,
    Option.some.injEq, String.ofList_toList]
  constructor
  · intro same
    constructor
    case priority => exact (read_priority input).mp (congrArg OperatorInput.priority same)
    case messageId => exact (read_messageId input).mp (congrArg OperatorInput.messageId same)
    case replyTo => exact (read_replyTo input).mp (congrArg OperatorInput.replyTo same)
    case force => exact (read_force input).mp (congrArg OperatorInput.force same)
  · rintro ⟨priority, messageId, replyTo, force⟩
    rw [(read_priority input).mpr priority, (read_messageId input).mpr messageId,
      (read_replyTo input).mpr replyTo, (read_force input).mpr force]

/-- Guidance whose text is the name of the next field loses its urgency. -/
theorem text_hides_priority :
    parseInputLine (serialize ⟨"priority", .low, none, none, none⟩) =
        some ⟨"priority", .normal, none, none, none⟩ ∧
      parseInputLine (serialize ⟨"priority", .low, none, none, none⟩) ≠
        some ⟨"priority", .low, none, none, none⟩ := by
  have read : parseInputLine (serialize ⟨"priority", .low, none, none, none⟩) =
      some ⟨"priority", .normal, none, none, none⟩ := by
    decide
  rw [read]
  decide

end OperatorLine
