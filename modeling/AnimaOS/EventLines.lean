import AnimaOS.JsonCodec
import AnimaOS.JsonParser
import AnimaOS.FixedWidth

/-!
# Lines of operator events as JSON

A line is one object of the grammar: the tag, then the fields of the variant in
order, with an absent one as null. Reading the members by name recovers the event.
-/

namespace OperatorEvents

open FixedWidth JsonString JsonGrammar Numerals OperatorLine

universe u

/-- No raw control character. -/
def Printable (text : List Char) : Prop := ∀ c ∈ text, 0x20 ≤ c.toNat

theorem Printable.append {s t : List Char} (h : Printable s) (h' : Printable t) :
    Printable (s ++ t) := fun c hc => (List.mem_append.mp hc).elim (h c) (h' c)

/-! ## The fields of an event -/

inductive FieldValue (F : Type u) where
  | text (s : String)
  | optional (s : Option String)
  | count (n : Nat)
  | flag (b : Bool)
  | items (xs : List String)
  | float (x : F)

variable {F : Type u}

namespace FieldValue

variable (display : F → List Char)

def json : FieldValue F → Json
  | .text s => .string s.toList
  | .optional (some s) => .string s.toList
  | .optional none => .null
  | .count n => .number (writeNat n)
  | .flag b => .bool b
  | .items xs => .array (xs.map fun x => .string x.toList)
  | .float x => .number (display x)

def written : FieldValue F → List Char
  | .text s => writeStr s
  | .optional s => writeOptional s
  | .count n => writeNat n
  | .flag b => writeBool b
  | .items xs => "[".toList ++ (writeItems xs ++ "]".toList)
  | .float x => display x

def asFloat : FieldValue F → Option F
  | .float x => some x
  | _ => none

end FieldValue

namespace OperatorEvent

def fields : OperatorEvent F → List (String × FieldValue F)
  | .vitals thermalLoad computePressure memoryPressure powerBudget financialBudget attentionDemand
      aggregateStress =>
    [("thermal_load", .float thermalLoad), ("compute_pressure", .float computePressure),
      ("memory_pressure", .float memoryPressure), ("power_budget", .float powerBudget),
      ("financial_budget", .float financialBudget), ("attention_demand", .float attentionDemand),
      ("aggregate_stress", .float aggregateStress)]
  | .state lifecycle sleepPhase agendaDepth =>
    [("lifecycle", .text lifecycle), ("sleep_phase", .optional sleepPhase),
      ("agenda_depth", .count agendaDepth)]
  | .accepted messageId priority forced forceReason replyTo text =>
    [("message_id", .text messageId), ("priority", .text priority.asStr), ("forced", .flag forced),
      ("force_reason", .optional forceReason), ("reply_to", .optional replyTo),
      ("text", .text text)]
  | .agentQuestion taskId questionId text options reason =>
    [("task_id", .count taskId), ("question_id", .text questionId), ("text", .text text),
      ("options", .items options), ("reason", .text reason)]
  | .gate messageId invoke costClass valueScore threshold overrideActive reasoning =>
    [("message_id", .optional messageId), ("invoke", .flag invoke),
      ("cost_class", .optional costClass), ("value_score", .float valueScore),
      ("threshold", .float threshold), ("override_active", .flag overrideActive),
      ("reasoning", .text reasoning)]
  | .audit kind detail messageId =>
    [("kind", .text kind), ("detail", .text detail), ("message_id", .optional messageId)]
  | .taskStarted taskId messageId prompt =>
    [("task_id", .count taskId), ("message_id", .optional messageId), ("prompt", .text prompt)]
  | .agentMessage taskId messageId tokens text =>
    [("task_id", .count taskId), ("message_id", .optional messageId), ("tokens", .count tokens),
      ("text", .text text)]
  | .heartbeat uptimeSecs => [("uptime_secs", .count uptimeSecs)]

/-- The tag and the fields. -/
def tagged (e : OperatorEvent F) : List (String × FieldValue F) :=
  ("type", .text e.kind) :: e.fields

def floats (e : OperatorEvent F) : List F := e.fields.filterMap fun f => f.2.asFloat

/-- The integers are within the types of their fields. -/
def Fits : OperatorEvent F → Prop
  | .state _ _ agendaDepth => agendaDepth ≤ maxOf 32
  | .agentQuestion taskId .. => taskId ≤ maxOf 64
  | .taskStarted taskId .. => taskId ≤ maxOf 64
  | .agentMessage taskId _ tokens _ => taskId ≤ maxOf 64 ∧ tokens ≤ maxOf 32
  | .heartbeat uptimeSecs => uptimeSecs ≤ maxOf 64
  | _ => True

variable (display : F → List Char)

def members (e : OperatorEvent F) : List (List Char × Json) :=
  e.tagged.map fun f => (f.1.toList, f.2.json display)

end OperatorEvent

/-! ## What each value spells -/

theorem control_hexCode : ∀ n, n < 32 →
    hexCode '0' '0' (hexDigit (n / 16)) (hexDigit (n % 16)) = some n ∧ n.isValidChar := by
  decide

theorem stringText_written (value : List Char) : StringText value (value.flatMap writeChar) := by
  induction value with
  | nil => exact .nil
  | cons c value ih =>
    have written := writeChar_written c
    rw [List.flatMap_cons]
    generalize writeChar c = text at written
    cases written with
    | @short e letter printable => exact .short (console.standard c e letter) ih
    | code letter control =>
      obtain ⟨digits, scalar⟩ := control_hexCode c.toNat control
      have coded := StringText.code digits scalar ih
      rw [Char.ofNat_toNat] at coded
      rw [hex4_control c.toNat control]
      exact coded
    | plain letter printable =>
      obtain ⟨quote, backslash⟩ := consoleLetter_plain letter
      exact .plain printable quote backslash ih

theorem writeStr_spells (s : String) : Spells (.string s.toList) (writeStr s) :=
  .string (stringText_written s.toList)

theorem writeNat_number (n : Nat) : NumberText (writeNat n) := by
  obtain ⟨nonempty, digits, -⟩ := numeral_toDigits n
  have isWhole : Whole (writeNat n) := by
    rcases Nat.eq_zero_or_pos n with rfl | positive
    · exact .zero
    · obtain ⟨d, rest, same, lead⟩ := toDigits_lead positive
      rw [same] at nonempty digits
      rw [writeNat, same]
      exact .digits lead ⟨nonempty, digits⟩
  have text := NumberText.mk (Or.inl rfl) isWhole .none .none
  rwa [List.append_nil, List.append_nil] at text

def itemPiece (x : String) : Piece Json := ⟨[], writeStr x, [], .string x.toList⟩

theorem writeItems_listed (xs : List String) : writeItems xs = listed (xs.map itemPiece) := by
  induction xs with
  | nil => rfl
  | cons x xs ih =>
    cases xs with
    | nil => simp [writeItems, listed, itemPiece, Piece.whole]
    | cons y xs =>
      rw [writeItems, ih]
      · simp [listed, itemPiece, Piece.whole]
      · exact List.cons_ne_nil y xs

theorem blank_nil : Blank [] := by
  intro c hc
  cases hc

theorem itemPiece_items (xs : List String) :
    (xs.map itemPiece).map Piece.item = xs.map fun x => Json.string x.toList := by
  rw [List.map_map]
  rfl

theorem writeItems_spells (xs : List String) :
    Spells (.array (xs.map fun x => .string x.toList)) ('[' :: (writeItems xs ++ [']'])) := by
  rw [writeItems_listed, ← itemPiece_items]
  cases xs with
  | nil => exact .emptyArray blank_nil
  | cons x xs =>
    refine .array (List.cons_ne_nil _ _) ?_ ?_
    · intro p hp
      obtain ⟨y, -, rfl⟩ := List.mem_map.mp hp
      exact ⟨blank_nil, blank_nil⟩
    · intro p hp
      obtain ⟨y, -, rfl⟩ := List.mem_map.mp hp
      exact writeStr_spells y

/-- A float is a number of JSON when its formatter writes one, which fails for the infinities. -/
theorem written_spells {display : F → List Char} (v : FieldValue F)
    (finite : ∀ x ∈ v.asFloat, NumberText (display x)) :
    Spells (v.json display) (v.written display) := by
  cases v with
  | text s => exact writeStr_spells s
  | optional s =>
    cases s with
    | none => exact .null
    | some s => exact writeStr_spells s
  | count n => exact .number (writeNat_number n)
  | flag b =>
    cases b with
    | false => exact .false
    | true => exact .true
  | items xs => exact writeItems_spells xs
  | float x => exact .number (finite x rfl)

/-! ## No control characters -/

theorem writeStr_printable (s : String) : Printable (writeStr s) := fun _ => writeJsonStr_printable

theorem isNumberChar_printable {c : Char} (h : isNumberChar c = true) : 0x20 ≤ c.toNat := by
  simp only [isNumberChar, Bool.or_eq_true, decide_eq_true_eq] at h
  rcases h with ((((digit | rfl) | rfl) | rfl) | rfl) | rfl
  · exact Nat.le_trans (by decide) (zero_le_digit digit)
  · decide
  · decide
  · decide
  · decide
  · decide

theorem number_printable {t : List Char} (h : NumberText t) : Printable t := fun c hc =>
  isNumberChar_printable ((isNumber_complete h).2.2 c hc)

theorem writeItems_printable (xs : List String) : Printable (writeItems xs) := by
  induction xs with
  | nil => simp [writeItems, Printable]
  | cons x xs ih =>
    cases xs with
    | nil => exact writeStr_printable x
    | cons y xs =>
      rw [writeItems]
      · refine Printable.append (Printable.append (writeStr_printable x) ?_) ih
        simp [Printable]
      · exact List.cons_ne_nil y xs

theorem written_printable {display : F → List Char} (v : FieldValue F)
    (finite : ∀ x ∈ v.asFloat, NumberText (display x)) : Printable (v.written display) := by
  cases v with
  | text s => exact writeStr_printable s
  | optional s =>
    cases s with
    | none => simp [FieldValue.written, writeOptional, Printable]
    | some s => exact writeStr_printable s
  | count n => exact number_printable (writeNat_number n)
  | flag b =>
    cases b with
    | false => simp [FieldValue.written, writeBool, Printable]
    | true => simp [FieldValue.written, writeBool, Printable]
  | items xs =>
    refine Printable.append ?_ (Printable.append (writeItems_printable xs) ?_)
    · simp [Printable]
    · simp [Printable]
  | float x => exact number_printable (finite x rfl)

/-! ## The object -/

section object

variable (display : F → List Char)

/-- A field with nothing but its quotes, its colon and its value. -/
def asMember (f : String × FieldValue F) : Member where
  before := []
  name := f.1.toList
  nameText := f.1.toList
  beforeColon := []
  afterColon := []
  valueText := f.2.written display
  after := []
  value := f.2.json display

def object (fs : List (String × FieldValue F)) : List Char :=
  '{' :: (listed ((fs.map (asMember display)).map Member.piece) ++ ['}'])

theorem asMember_text (f : String × FieldValue F) :
    (asMember display f).piece.whole = ("\"" ++ f.1 ++ "\":").toList ++ f.2.written display := by
  simp [asMember, Member.piece, Piece.whole]

/-- The fields behind another one, each with its comma and its key, and the closing brace. -/
def followed : List (String × FieldValue F) → List Char
  | [] => "\x7d".toList
  | f :: rest => (",\"" ++ f.1 ++ "\":").toList ++ (f.2.written display ++ followed rest)

theorem listed_members (f : String × FieldValue F) (fs : List (String × FieldValue F)) :
    listed (((f :: fs).map (asMember display)).map Member.piece) ++ ['}'] =
      ("\"" ++ f.1 ++ "\":").toList ++ (f.2.written display ++ followed display fs) := by
  induction fs generalizing f with
  | nil =>
    simp only [List.map_cons, List.map_nil, listed, asMember_text, followed, List.append_assoc]
    rfl
  | cons g fs ih =>
    have comma : ',' :: ("\"" ++ g.1 ++ "\":").toList = (",\"" ++ g.1 ++ "\":").toList := by
      simp
    have later := ih g
    simp only [List.map_cons] at later ⊢
    simp only [listed, asMember_text, followed, later, ← comma, List.append_assoc,
      List.cons_append]

/-- The name is written as it is. -/
def PlainName (name : String) : Prop := ∀ c ∈ name.toList, writeChar c = [c]

instance (name : String) : Decidable (PlainName name) :=
  List.decidableBAll (fun c => writeChar c = [c]) name.toList

theorem PlainName.body {name : String} (h : PlainName name) :
    name.toList.flatMap writeChar = name.toList := by
  calc
    name.toList.flatMap writeChar = name.toList.flatMap fun c => [c] := List.flatMap_congr h
    _ = name.toList := by simp

theorem kind_plain (e : OperatorEvent F) : PlainName e.kind := by
  cases e
  all_goals
    simp only [OperatorEvent.kind]
    decide +kernel

theorem tagged_plain (e : OperatorEvent F) : ∀ f ∈ e.tagged, PlainName f.1 := by
  have names : ∀ n ∈ e.tagged.map Prod.fst, PlainName n := by
    cases e
    all_goals
      simp only [OperatorEvent.tagged, OperatorEvent.fields, List.map_cons, List.map_nil]
      decide +kernel
  exact fun f hf => names f.1 (List.mem_map_of_mem hf)

theorem toList_merge (s t : String) (rest : List Char) :
    s.toList ++ (t.toList ++ rest) = (s ++ t).toList ++ rest := by
  rw [String.toList_append, List.append_assoc]

theorem object_tagged (e : OperatorEvent F) :
    object display e.tagged =
      ("\x7b\"type\":\"" ++ e.kind ++ "\"").toList ++ followed display e.fields := by
  have tag : writeStr e.kind = ("\"" ++ e.kind ++ "\"").toList := by
    simp [writeStr, writeJsonStr, (kind_plain e).body]
  rw [object, OperatorEvent.tagged, listed_members, FieldValue.written, tag]
  simp

/-- What the source writes piece by piece is the object of the tag and the fields. -/
theorem ndjson_object (e : OperatorEvent F) : ndjson display e = object display e.tagged := by
  rw [object_tagged]
  unfold ndjson
  cases e
  all_goals
    simp only [OperatorEvent.fields, OperatorEvent.kind, followed, FieldValue.written,
      List.append_assoc, toList_merge, String.reduceAppend]

theorem asMember_formed {f : String × FieldValue F} (plain : PlainName f.1) :
    (asMember display f).WellFormed := by
  have named := stringText_written f.1.toList
  rw [plain.body] at named
  exact ⟨⟨blank_nil, blank_nil⟩, named, blank_nil, blank_nil⟩

theorem object_spells {fs : List (String × FieldValue F)} (nonempty : fs ≠ [])
    (plain : ∀ f ∈ fs, PlainName f.1)
    (finite : ∀ f ∈ fs, ∀ x ∈ f.2.asFloat, NumberText (display x)) :
    Spells (.object (fs.map fun f => (f.1.toList, f.2.json display))) (object display fs) := by
  have items : fs.map (fun f => (f.1.toList, f.2.json display)) =
      (fs.map (asMember display)).map fun m => (m.name, m.value) := by
    rw [List.map_map]
    rfl
  rw [items]
  refine .object (by simpa using nonempty) ?_ ?_
  · intro m hm
    obtain ⟨f, hf, rfl⟩ := List.mem_map.mp hm
    exact asMember_formed display (plain f hf)
  · intro m hm
    obtain ⟨f, hf, rfl⟩ := List.mem_map.mp hm
    exact written_spells f.2 (finite f hf)

theorem key_printable {name : String} (plain : PlainName name) : Printable name.toList := by
  intro c hc
  have written : c ∈ writeChar c := by simp [plain c hc]
  exact writeChar_printable written

theorem followed_printable {fs : List (String × FieldValue F)} (plain : ∀ f ∈ fs, PlainName f.1)
    (finite : ∀ f ∈ fs, ∀ x ∈ f.2.asFloat, NumberText (display x)) :
    Printable (followed display fs) := by
  induction fs with
  | nil => simp [followed, Printable]
  | cons f fs ih =>
    have later := ih (fun g hg => plain g (List.mem_cons_of_mem _ hg))
      fun g hg => finite g (List.mem_cons_of_mem _ hg)
    have value := written_printable f.2 (finite f List.mem_cons_self)
    have key : Printable (",\"" ++ f.1 ++ "\":").toList := by
      simp only [String.toList_append]
      refine Printable.append (Printable.append ?_ (key_printable (plain f List.mem_cons_self))) ?_
      · simp [Printable]
      · simp [Printable]
    exact Printable.append key (Printable.append value later)

theorem ndjson_printable (e : OperatorEvent F)
    (finite : ∀ x ∈ e.floats, NumberText (display x)) : Printable (ndjson display e) := by
  rw [ndjson_object, object_tagged]
  refine Printable.append ?_ (followed_printable display ?_ ?_)
  · simp only [String.toList_append]
    refine Printable.append (Printable.append ?_ (key_printable (kind_plain e))) ?_
    · simp [Printable]
    · simp [Printable]
  · exact fun f hf => tagged_plain e f (List.mem_cons_of_mem _ hf)
  · exact fun f hf x hx => finite x (List.mem_filterMap.mpr ⟨f, hf, hx⟩)

theorem ndjson_spells (e : OperatorEvent F) (finite : ∀ x ∈ e.floats, NumberText (display x)) :
    Spells (.object (e.members display)) (ndjson display e) := by
  rw [ndjson_object]
  refine object_spells display (List.cons_ne_nil _ _) (tagged_plain e) ?_
  intro f hf x hx
  rcases List.mem_cons.mp hf with rfl | hf
  · cases hx
  · exact finite x (List.mem_filterMap.mpr ⟨f, hf, hx⟩)

theorem members_distinct (e : OperatorEvent F) : ((e.members display).map Prod.fst).Nodup := by
  have names : (e.tagged.map Prod.fst).Nodup := by
    cases e
    all_goals
      simp only [OperatorEvent.tagged, OperatorEvent.fields, List.map_cons, List.map_nil]
      decide +kernel
  have keys : (e.members display).map Prod.fst = (e.tagged.map Prod.fst).map String.toList := by
    simp only [OperatorEvent.members, List.map_map]
    rfl
  rw [keys]
  exact names.map fun _ _ => String.toList_inj.mp

end object

end OperatorEvents
