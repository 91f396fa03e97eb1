import AnimaOS.SkillBridge

/-!
# The skill shown and the skill registered

An approval prompt reads the name and the description of a skill out of the lines of
its whole text, the registry reads them out of the frontmatter. Both readers see name
and description fields in order; which fields they see and which they keep differs.
-/

namespace SkillBridge

open ApprovalQueue SkillRegistry TextLines TextSplit

inductive PromptField
  | name (value : List Char)
  | description (value : List Char)
deriving DecidableEq

def PromptField.isName : PromptField → Bool
  | name _ => true
  | description _ => false

def PromptField.isDescription : PromptField → Bool
  | name _ => false
  | description _ => true

def PromptField.nameValue : PromptField → Option (List Char)
  | name v => some v
  | description _ => none

def PromptField.descriptionValue : PromptField → Option (List Char)
  | name _ => none
  | description v => some v

/-- A line with the key right before its colon. -/
def promptField (line : List Char) : Option PromptField :=
  match stripPrefix "name:".toList (trimWhitespace line) with
  | some v => some (.name (trimWhitespace v))
  | none =>
    (stripPrefix "description:".toList (trimWhitespace line)).map fun v =>
      .description (trimWhitespace v)

/-- A line that is no comment, with the key anywhere before its first colon. -/
def ownField (line : List Char) : Option PromptField :=
  if trimWhitespace line = [] ∨ (trimWhitespace line).head? = some '#' then none
  else (splitOnce [':'] (trimWhitespace line)).bind fun (k, v) =>
    if trimWhitespace k = "name".toList then some (.name (trimWhitespace v))
    else if trimWhitespace k = "description".toList then some (.description (trimWhitespace v))
    else none

/-- The text between the marks of the frontmatter. -/
def frontmatterText (text : List Char) : Option (List Char) :=
  (stripPrefix "---".toList (trimStart '\n' text)).bind fun rest =>
    (splitOnce "\n---".toList ((stripPrefix ['\n'] rest).getD rest)).map Prod.fst

def lastName (fields : List PromptField) : Option (List Char) :=
  (fields.filterMap PromptField.nameValue).getLast?

def lastDescription (fields : List PromptField) : Option (List Char) :=
  (fields.filterMap PromptField.descriptionValue).getLast?

/-- The fields up to the one at which a name and a description have occurred. -/
def untilBoth (fields : List PromptField) : List PromptField :=
  fields.take (max (fields.findIdx PromptField.isName + 1)
    (fields.findIdx PromptField.isDescription + 1))

/-- The fields of a whole text that the prompt is made from. -/
def shownFields (text : List Char) : List PromptField :=
  untilBoth ((lines text).filterMap promptField)

def ownFields (front : List Char) : List PromptField := (lines front).filterMap ownField

/-! ## The prompt's reader -/

/-- The reader of the prompt on fields. -/
def readFields : List PromptField → Option String × Option String → Option String × Option String
  | [], found => found
  | field :: rest, (name, description) =>
    let found :=
      match field with
      | .name v => (some (String.ofList v), description)
      | .description v => (name, some (String.ofList v))
    if found.1.isSome && found.2.isSome then found else readFields rest found

theorem nameAndDescriptionFrom_eq (ls : List (List Char)) {found : Option String × Option String}
    (open_still : (found.1.isSome && found.2.isSome) = false) :
    nameAndDescriptionFrom ls found = readFields (ls.filterMap promptField) found := by
  induction ls generalizing found with
  | nil => rfl
  | cons line rest ih =>
    obtain ⟨name, description⟩ := found
    rw [nameAndDescriptionFrom, List.filterMap_cons, promptField]
    cases stripPrefix "name:".toList (trimWhitespace line) with
    | some v =>
      simp only [readFields]
      split
      · rfl
      · rename_i both
        exact ih (by simpa using both)
    | none =>
      cases stripPrefix "description:".toList (trimWhitespace line) with
      | some v =>
        simp only [readFields, Option.map_some]
        split
        · rfl
        · rename_i both
          exact ih (by simpa using both)
      | none =>
        simp only [Option.map_none, open_still]
        exact ih open_still

/-- How many fields are read when some have been found. -/
def needed (name description : Option String) (fields : List PromptField) : Nat :=
  max (if name.isSome then 0 else fields.findIdx PromptField.isName + 1)
    (if description.isSome then 0 else fields.findIdx PromptField.isDescription + 1)

section Last

variable (v : List Char) (rest : List PromptField)

theorem lastName_name : lastName (.name v :: rest) = (lastName rest).or (some v) := by
  rw [lastName, List.filterMap_cons]
  simp only [PromptField.nameValue, List.getLast?_cons]
  rw [← lastName]
  cases lastName rest <;> rfl

theorem lastName_description : lastName (.description v :: rest) = lastName rest := rfl

theorem lastDescription_name : lastDescription (.name v :: rest) = lastDescription rest := rfl

theorem lastDescription_description :
    lastDescription (.description v :: rest) = (lastDescription rest).or (some v) := by
  rw [lastDescription, List.filterMap_cons]
  simp only [PromptField.descriptionValue, List.getLast?_cons]
  rw [← lastDescription]
  cases lastDescription rest <;> rfl

end Last

/-- A field that leaves something to look for is followed by what is needed then. -/
theorem needed_name (v : List Char) (name : Option String) (value : String)
    (rest : List PromptField) :
    needed name none (.name v :: rest) = needed (some value) none rest + 1 := by
  simp only [needed, List.findIdx_cons, PromptField.isName, PromptField.isDescription]
  cases name <;> simp

theorem needed_description (v : List Char) (description : Option String) (value : String)
    (rest : List PromptField) :
    needed none description (.description v :: rest) = needed none (some value) rest + 1 := by
  simp only [needed, List.findIdx_cons, PromptField.isName, PromptField.isDescription]
  cases description <;> simp

theorem readFields_eq (fields : List PromptField) {name description : Option String}
    (open_still : (name.isSome && description.isSome) = false) :
    readFields fields (name, description) =
      (((lastName (fields.take (needed name description fields))).map String.ofList).or name,
        ((lastDescription (fields.take (needed name description fields))).map
          String.ofList).or description) := by
  induction fields generalizing name description with
  | nil => simp [readFields, lastName, lastDescription]
  | cons field rest ih =>
    cases field with
    | name v =>
      cases description with
      | some d =>
        obtain rfl : name = none := by simpa using open_still
        simp [readFields, needed, List.findIdx_cons, PromptField.isName, lastName, lastDescription,
          PromptField.nameValue, PromptField.descriptionValue]
      | none =>
        have later := @ih (some (String.ofList v)) none rfl
        rw [needed_name v name (String.ofList v), List.take_succ_cons, lastName_name,
          lastDescription_name]
        simp only [readFields, Option.isSome_some, Option.isSome_none, Bool.and_false,
          Bool.false_eq_true, if_false, later]
        cases lastName _ <;> rfl
    | description v =>
      cases name with
      | some n =>
        obtain rfl : description = none := by simpa using open_still
        simp [readFields, needed, List.findIdx_cons, PromptField.isDescription, lastName,
          lastDescription, PromptField.nameValue, PromptField.descriptionValue]
      | none =>
        have later := @ih none (some (String.ofList v)) rfl
        rw [needed_description v description (String.ofList v), List.take_succ_cons,
          lastName_description, lastDescription_description]
        simp only [readFields, Option.isSome_some, Option.isSome_none, Bool.false_and,
          Bool.false_eq_true, if_false, later]
        cases lastDescription _ <;> rfl

theorem parseNameAndDescription_eq (text : String) :
    parseNameAndDescription text =
      (((lastName (shownFields text.toList)).map String.ofList).getD "unnamed-skill",
        ((lastDescription (shownFields text.toList)).map String.ofList).getD "") := by
  have read := @readFields_eq ((lines text.toList).filterMap promptField) none none rfl
  rw [parseNameAndDescription, nameAndDescriptionFrom_eq _ rfl, read, Option.or_none,
    Option.or_none]
  rfl

/-! ## The registry's reader -/

theorem ofList_eq_iff {text : List Char} {s : String} :
    String.ofList text = s ↔ text = s.toList := by
  constructor
  · rintro rfl
    exact String.toList_ofList.symm
  · rintro rfl
    exact String.ofList_toList

theorem readField_name (fields : Fields) (line : List Char) :
    (readField fields line).name =
      (((ownField line).bind PromptField.nameValue).map String.ofList).or fields.name ∧
    (readField fields line).description =
      (((ownField line).bind PromptField.descriptionValue).map String.ofList).or
        fields.description := by
  rw [readField, ownField]
  split
  · exact ⟨rfl, rfl⟩
  · cases splitOnce [':'] (trimWhitespace line) with
    | none => exact ⟨rfl, rfl⟩
    | some pair =>
      obtain ⟨k, v⟩ := pair
      simp only [Option.bind_some, ← ofList_eq_iff]
      split <;> simp_all [PromptField.nameValue, PromptField.descriptionValue]

theorem foldl_readField (ls : List (List Char)) (fields : Fields) :
    (ls.foldl readField fields).name =
      ((lastName (ls.filterMap ownField)).map String.ofList).or fields.name ∧
    (ls.foldl readField fields).description =
      ((lastDescription (ls.filterMap ownField)).map String.ofList).or fields.description := by
  induction ls generalizing fields with
  | nil => exact ⟨rfl, rfl⟩
  | cons line rest ih =>
    obtain ⟨name, description⟩ := readField_name fields line
    obtain ⟨name', description'⟩ := ih (readField fields line)
    rw [List.foldl_cons, List.filterMap_cons, name', description', name, description]
    cases ownField line with
    | none => exact ⟨rfl, rfl⟩
    | some field =>
      cases field with
      | name v =>
        rw [lastName_name, lastDescription_name]
        refine ⟨?_, rfl⟩
        cases lastName (rest.filterMap ownField) <;> rfl
      | description v =>
        rw [lastName_description, lastDescription_description]
        refine ⟨rfl, ?_⟩
        cases lastDescription (rest.filterMap ownField) <;> rfl

theorem fromFrontmatter_fields {text body : List Char} {manifest : SkillManifest}
    (accepted : fromFrontmatter text = .ok (manifest, body)) :
    ∃ front, frontmatterText text = some front ∧
      some manifest.name = (lastName (ownFields front)).map String.ofList ∧
      manifest.description = ((lastDescription (ownFields front)).map String.ofList).getD "" := by
  rw [fromFrontmatter] at accepted
  split at accepted
  · cases accepted
  · rename_i rest opened
    extract_lets inner at accepted
    split at accepted
    · cases accepted
    · rename_i front afterClose closed
      extract_lets body' fields at accepted
      obtain ⟨name, description⟩ := foldl_readField (lines front) ⟨none, none, none, []⟩
      rw [Option.or_none] at name description
      refine ⟨front, ?_, ?_⟩
      · rw [frontmatterText, opened, Option.bind_some, closed, Option.map_some]
      · split at accepted
        · cases accepted
        · rename_i found
          obtain ⟨rfl, rfl⟩ := Prod.mk.inj (Except.ok.inj accepted)
          exact ⟨found.symm.trans name, congrArg (Option.getD · "") description⟩

/-- The last name and description field that the prompt is made from have the values of
the last ones of the frontmatter; a text without any has the prompt's default name and an
empty description. -/
structure ReadsAlike (text : List Char) (own : List PromptField) : Prop where
  name : some ((lastName (shownFields text)).getD "unnamed-skill".toList) = lastName own
  description : (lastDescription (shownFields text)).getD [] = (lastDescription own).getD []

/-- The fields of the frontmatter of a text. -/
def ownFieldsOf (text : List Char) : List PromptField :=
  (frontmatterText text).elim [] ownFields

theorem getD_ofList (field : Option (List Char)) (default : String) :
    (field.map String.ofList).getD default = String.ofList (field.getD default.toList) := by
  cases field with
  | none => exact String.ofList_toList.symm
  | some v => rfl

theorem ofList_injective {a b : List Char} : String.ofList a = String.ofList b ↔ a = b := by
  rw [ofList_eq_iff, String.toList_ofList]

theorem parse_eq_manifest_iff {text : String} {manifest : SkillManifest} {body : List Char}
    (accepted : fromFrontmatter text.toList = .ok (manifest, body)) :
    parseNameAndDescription text = (manifest.name, manifest.description) ↔
      ReadsAlike text.toList (ownFieldsOf text.toList) := by
  obtain ⟨front, parts, name, description⟩ := fromFrontmatter_fields accepted
  have own : ownFieldsOf text.toList = ownFields front := by rw [ownFieldsOf, parts]; rfl
  rw [parseNameAndDescription_eq, own, description, Prod.mk.injEq]
  simp only [getD_ofList, ofList_injective]
  cases last : lastName (ownFields front) with
  | none => simp [last] at name
  | some v =>
    obtain named : manifest.name = String.ofList v := by simpa [last] using name
    rw [named, ofList_injective]
    constructor
    · rintro ⟨same, same'⟩
      exact ⟨last ▸ congrArg some same, by simpa using same'⟩
    · rintro ⟨same, same'⟩
      exact ⟨Option.some.inj (same.trans last), by simpa using same'⟩

theorem registered_manifest {text : String} {manifest : SkillManifest} {body : List Char}
    (accepted : fromFrontmatter text.toList = .ok (manifest, body))
    {toLowercase : String → String} {r r' : Registry} {provenance : SkillProvenance}
    {state : SkillState} {id : String}
    (registered : registerFromText toLowercase r text provenance state = (r', .ok id)) :
    ∃ entry, find r' id = some entry ∧ entry.manifest = manifest := by
  rw [registerFromText, parseBody, accepted] at registered
  simp only [register] at registered
  split at registered
  · rename_i fresh
    obtain ⟨rfl, same⟩ := Prod.mk.inj registered
    obtain rfl := Except.ok.inj same
    have absent := find_none_iff.mpr fresh
    simp only [find, KeyedList.findKey] at absent
    refine ⟨⟨idFromName toLowercase manifest.name, manifest,
      some ⟨manifest, String.ofList body, extractLocalLinks body⟩, provenance, state⟩, ?_, rfl⟩
    simp only [find, KeyedList.findKey, List.find?_append, absent]
    simp
  · cases (Prod.mk.inj registered).2

/-- What the operator is shown of an accepted text is what is registered of it if and only
if both readers end with the same values. -/
theorem prompt_shows_manifest_iff {proposal : SkillProposal} {outcome : ProposalOutcome}
    {promptHash : String} {q : Proposal} {manifest : SkillManifest} {body : List Char}
    (accepted : fromFrontmatter proposal.skillText.toList = .ok (manifest, body))
    (queued : skillProposalToQueueProposalWithHash outcome proposal promptHash = some q) :
    (q.kind = .newSkill manifest.name manifest.description promptHash ↔
      ReadsAlike proposal.skillText.toList (ownFieldsOf proposal.skillText.toList)) ∧
    ∀ (toLowercase : String → String) (r r' : Registry) (provenance : SkillProvenance)
      (state : SkillState) (id : String),
      registerFromText toLowercase r proposal.skillText provenance state = (r', .ok id) →
        ∃ entry, find r' id = some entry ∧ entry.manifest = manifest := by
  refine ⟨?_, fun _ _ _ _ _ _ registered => registered_manifest accepted registered⟩
  rw [← parse_eq_manifest_iff accepted]
  rw [skillProposalToQueueProposalWithHash] at queued
  split at queued
  · cases queued
  · obtain ⟨id, -, rfl⟩ := Option.map_eq_some_iff.mp queued
    simp [Prod.ext_iff]

/-- A skill text with one name. -/
def namedText : List Char :=
  ['-', '-', '-', '\n', 'n', 'a', 'm', 'e', ':', 'a', '\n', '-', '-', '-']

/-- A skill text with a second name after the description. -/
def renamedText : List Char :=
  ['-', '-', '-', '\n', 'n', 'a', 'm', 'e', ':', 'a', '\n',
    'd', 'e', 's', 'c', 'r', 'i', 'p', 't', 'i', 'o', 'n', ':', '\n',
    'n', 'a', 'm', 'e', ':', 'b', '\n', '-', '-', '-']

def proposalOf (text : List Char) : SkillProposal := ⟨String.ofList text, .agent, 0, none⟩

theorem named_shown_as_registered :
    ∃ q, skillProposalToQueueProposalWithHash ⟨some "a", .pendingApproval⟩ (proposalOf namedText)
      "h" = some q ∧ q.kind = .newSkill "a" "" "h" := by
  have accepted : fromFrontmatter (proposalOf namedText).skillText.toList =
      .ok (⟨"a", "", none, []⟩, []) := by
    rw [proposalOf, String.toList_ofList]
    decide
  obtain ⟨q, queued⟩ : ∃ q, skillProposalToQueueProposalWithHash ⟨some "a", .pendingApproval⟩
      (proposalOf namedText) "h" = some q := ⟨_, rfl⟩
  refine ⟨q, queued, (prompt_shows_manifest_iff accepted queued).1.mpr ?_⟩
  rw [proposalOf, String.toList_ofList]
  exact ⟨by decide, by decide⟩

theorem renamed_shown_otherwise :
    fromFrontmatter renamedText = .ok (⟨"b", "", none, []⟩, []) ∧
      parseNameAndDescription (String.ofList renamedText) = ("a", "") := by
  refine ⟨by decide, ?_⟩
  rw [parseNameAndDescription, String.toList_ofList]
  decide

end SkillBridge
