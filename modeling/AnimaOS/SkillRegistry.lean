import AnimaOS.KeyedList
import AnimaOS.TextLines
import AnimaOS.TextSplit
import Mathlib.Data.List.Infix

/-!
# The skill registry

Skills read from their texts, the state each of them is in, and the evaluation
of a proposed skill. Lower-casing is a parameter.
-/

namespace SkillRegistry

open KeyedList TextLines TextSplit

/-! ## Manifests -/

structure SkillManifest where
  name : String
  description : String
  version : Option String
  capabilities : List String
  deriving DecidableEq, Repr

structure SkillBody where
  manifest : SkillManifest
  instructions : String
  linkedFiles : List String
  deriving DecidableEq, Repr

inductive ParseError where
  | missingFrontmatter
  | unclosedFrontmatter
  | missingName
  deriving DecidableEq, Repr

def ParseError.message : ParseError → String
  | .missingFrontmatter => "SKILL.md has no frontmatter block"
  | .unclosedFrontmatter => "SKILL.md frontmatter is not closed with ---"
  | .missingName => "SKILL.md frontmatter missing 'name' field"

/-- The fields of a frontmatter read so far. -/
structure Fields where
  name : Option String
  description : Option String
  version : Option String
  capabilities : List String
  deriving DecidableEq, Repr

def readField (fields : Fields) (line : List Char) : Fields :=
  let line := trimWhitespace line
  if line = [] ∨ line.head? = some '#' then fields
  else
    match splitOnce [':'] line with
    | none => fields
    | some (k, v) =>
      let v := trimWhitespace v
      match String.ofList (trimWhitespace k) with
      | "name" => { fields with name := some (String.ofList v) }
      | "description" => { fields with description := some (String.ofList v) }
      | "version" => { fields with version := some (String.ofList v) }
      | "capabilities" =>
        { fields with
          capabilities := fields.capabilities ++
            (((v.splitOn ',').map trimWhitespace).filter (· ≠ [])).map String.ofList }
      | _ => fields

def fromFrontmatter (text : List Char) : Except ParseError (SkillManifest × List Char) :=
  match stripPrefix "---".toList (trimStart '\n' text) with
  | none => .error .missingFrontmatter
  | some rest =>
    let rest := (stripPrefix ['\n'] rest).getD rest
    match splitOnce "\n---".toList rest with
    | none => .error .unclosedFrontmatter
    | some (front, afterClose) =>
      let body := (stripPrefix ['\n'] afterClose).getD afterClose
      let fields := (lines front).foldl readField ⟨none, none, none, []⟩
      match fields.name with
      | none => .error .missingName
      | some name =>
        .ok (⟨name, fields.description.getD "", fields.version, fields.capabilities⟩, body)

/-- A one-byte drive letter and a colon, or a leading separator, is no local link. -/
def isSafeLocalLink (target : List Char) : Bool :=
  if target = [] ∨ "://".toList <:+: target ∨ target.head? = some '#' then false
  else if target.head? = some '/' ∨ target.head? = some '\\' then false
  else if (target.head?.any fun c => c.utf8Size = 1) ∧ target[1]? = some ':' then false
  else !(target.splitOnP fun c => c = '/' ∨ c = '\\').contains ['.', '.']

/-- `fuel` bounds the links, each of which takes at least three characters. -/
def linksFrom : Nat → List Char → List String
  | 0, _ => []
  | fuel + 1, rest =>
    match splitOnce [']', '('] rest with
    | none => []
    | some (_, afterOpen) =>
      match splitOnce [')'] afterOpen with
      | none => []
      | some (target, afterClose) =>
        if isSafeLocalLink target then String.ofList target :: linksFrom fuel afterClose
        else linksFrom fuel afterClose

def extractLocalLinks (text : List Char) : List String := linksFrom text.length text

def parseBody (text : List Char) : Except ParseError SkillBody :=
  match fromFrontmatter text with
  | .error e => .error e
  | .ok (manifest, body) => .ok ⟨manifest, String.ofList body, extractLocalLinks body⟩

/-! ## Provenance and state -/

inductive SkillAuthor where
  | builtin
  | operator
  | agent
  deriving DecidableEq, Repr

def SkillAuthor.display : SkillAuthor → String
  | .builtin => "builtin"
  | .operator => "operator"
  | .agent => "agent"

structure SkillProvenance where
  authoredBy : SkillAuthor
  proposedAtNs : Nat
  sourceEpisode : Option String
  schemaVersion : Nat
  deriving DecidableEq, Repr

inductive SkillState where
  | active
  | proposed
  | quarantined (reason : String)
  | rolledBack
  deriving DecidableEq, Repr

structure SkillEntry where
  id : String
  manifest : SkillManifest
  body : Option SkillBody
  provenance : SkillProvenance
  state : SkillState
  deriving DecidableEq, Repr

section Names

variable (toLowercase : String → String)

def idFromName (name : String) : String :=
  String.ofList ((toLowercase name).toList.map fun c => if c = ' ' then '-' else c)

end Names

/-! ## The registry -/

inductive RegistryError where
  | duplicateId (id : String)
  | parseFailed (e : ParseError)
  | notFound (id : String)
  deriving DecidableEq, Repr

def RegistryError.message : RegistryError → String
  | .duplicateId id => "skill id already registered: " ++ id
  | .parseFailed e => "SKILL.md parse error: " ++ e.message
  | .notFound id => "skill not found: " ++ id

structure Registry where
  entries : List SkillEntry
  distinct : (entries.map SkillEntry.id).Nodup
  deriving DecidableEq, Repr

def find (r : Registry) (id : String) : Option SkillEntry := findKey SkillEntry.id r.entries id

def stateOf (r : Registry) (id : String) : Option SkillState := (find r id).map SkillEntry.state

def register (toLowercase : String → String) (r : Registry) (manifest : SkillManifest)
    (body : Option SkillBody) (provenance : SkillProvenance) (state : SkillState) :
    Registry × Except RegistryError String :=
  let id := idFromName toLowercase manifest.name
  if fresh : id ∉ r.entries.map SkillEntry.id then
    ({ entries := r.entries ++ [⟨id, manifest, body, provenance, state⟩]
       distinct := by
         rw [← upsert_fresh SkillEntry.id fresh]
         exact upsert_distinct SkillEntry.id r.distinct _ }, .ok id)
  else (r, .error (.duplicateId id))

def registerFromText (toLowercase : String → String) (r : Registry) (text : String)
    (provenance : SkillProvenance) (state : SkillState) :
    Registry × Except RegistryError String :=
  match parseBody text.toList with
  | .error e => (r, .error (.parseFailed e))
  | .ok body => register toLowercase r body.manifest (some body) provenance state

def withState (state : SkillState) (e : SkillEntry) : SkillEntry := { e with state := state }

def setState (r : Registry) (id : String) (state : SkillState) :
    Registry × Except RegistryError Unit :=
  match find r id with
  | none => (r, .error (.notFound id))
  | some _ =>
    ({ entries := updateKey SkillEntry.id id (withState state) r.entries
       distinct := by
         rw [updateKey_keys SkillEntry.id id (f := withState state) fun _ => rfl]
         exact r.distinct }, .ok ())

/-- Whatever state the skill is in, it becomes active. -/
def promote (r : Registry) (id : String) : Registry × Except RegistryError Unit :=
  setState r id .active

def rollback (r : Registry) (id : String) : Registry × Except RegistryError Unit :=
  setState r id .rolledBack

def quarantine (r : Registry) (id reason : String) : Registry × Except RegistryError Unit :=
  setState r id (.quarantined reason)

def killed (e : SkillEntry) : Bool := e.state = .active ∧ e.provenance.authoredBy = .agent

def killSwitch (r : Registry) (reason : String) : Registry × List String :=
  ({ entries := r.entries.map fun e =>
       if killed e then withState (.quarantined reason) e else e
     distinct := by
       have same : (r.entries.map fun e =>
           if killed e then withState (.quarantined reason) e else e).map SkillEntry.id =
           r.entries.map SkillEntry.id := by
         rw [List.map_map]
         apply List.map_congr_left
         intro e _
         simp only [Function.comp_apply]
         split <;> rfl
       rw [same]
       exact r.distinct }, (r.entries.filter killed).map SkillEntry.id)

/-! ## Evaluating a proposal -/

structure SkillProposal where
  skillText : String
  authoredBy : SkillAuthor
  proposedAtNs : Nat
  sourceEpisode : Option String
  deriving DecidableEq, Repr

inductive ProposalAction where
  | autoPromoted
  | pendingApproval
  | rejected (reason : String)
  deriving DecidableEq, Repr

structure ProposalOutcome where
  artifactId : Option String
  action : ProposalAction
  deriving DecidableEq, Repr

structure SkillContentScreen where
  checkInjection : Bool
  maxTextBytes : Nat
  deriving DecidableEq, Repr

def injectionPatterns : List String :=
  ["ignore previous instructions", "ignore all previous", "disregard your instructions",
    "disregard all instructions", "you are now", "new instructions:", "system prompt:",
    "override: ", "[[system]]", "<system>", "jailbreak", "do anything now", "pretend you are",
    "act as if"]

/-- The reason a text is flagged for. -/
def screen (toLowercase : String → String) (s : SkillContentScreen) (text : String) :
    Option String :=
  if s.maxTextBytes < text.utf8ByteSize then
    some ("skill text exceeds " ++ toString s.maxTextBytes ++ " bytes (" ++
      toString text.utf8ByteSize ++ " bytes)")
  else if s.checkInjection then
    (injectionPatterns.find? fun pattern => pattern.toList <:+: (toLowercase text).toList).map
      fun pattern => "skill text contains injection pattern: \"" ++ pattern ++ "\""
  else none

structure PromotionGateConfig where
  autoPromoteAgentSkills : Bool
  deriving DecidableEq, Repr

def initialState (gate : PromotionGateConfig) : SkillAuthor → SkillState
  | .builtin => .active
  | .operator => .active
  | .agent => if gate.autoPromoteAgentSkills then .active else .proposed

def evaluateSkillProposal (toLowercase : String → String) (proposal : SkillProposal)
    (r : Registry) (s : SkillContentScreen) (gate : PromotionGateConfig) :
    Registry × Except RegistryError ProposalOutcome :=
  match screen toLowercase s proposal.skillText with
  | some reason => (r, .ok ⟨none, .rejected reason⟩)
  | none =>
    let state := initialState gate proposal.authoredBy
    let provenance : SkillProvenance :=
      ⟨proposal.authoredBy, proposal.proposedAtNs, proposal.sourceEpisode, 1⟩
    match registerFromText toLowercase r proposal.skillText provenance state with
    | (r, .error e) => (r, .error e)
    | (r, .ok id) =>
      (r, .ok ⟨some id, if state = .active then .autoPromoted else .pendingApproval⟩)

/-! ## States after a change -/

theorem find_setState (r : Registry) (id : String) (state : SkillState) (other : String) :
    find (setState r id state).1 other =
      if other = id then (find r id).map (withState state) else find r other := by
  cases found : find r id with
  | none =>
    simp only [setState, found]
    split
    · rename_i same
      rw [same, found]
      rfl
    · rfl
  | some e =>
    simp only [setState, found]
    rw [← found]
    exact findKey_updateKey SkillEntry.id id (f := withState state) (fun _ => rfl) r.entries other

theorem stateOf_setState (r : Registry) (id : String) (state : SkillState) (other : String) :
    stateOf (setState r id state).1 other =
      if other = id then (stateOf r id).map fun _ => state else stateOf r other := by
  rw [stateOf, find_setState]
  split
  · simp [stateOf, withState, Function.comp_def]
  · rfl

theorem find_killSwitch (r : Registry) (reason id : String) :
    find (killSwitch r reason).1 id = (find r id).map fun e =>
      if killed e then withState (.quarantined reason) e else e := by
  have same : ∀ e, (if killed e then withState (.quarantined reason) e else e).id = e.id := by
    intro e
    split <;> rfl
  have agree : (fun e : SkillEntry => decide (e.id = id)) ∘
      (fun e => if killed e then withState (.quarantined reason) e else e) =
        fun e => decide (e.id = id) := by
    funext e
    exact decide_eq_decide.mpr (by rw [same e])
  simp only [find, killSwitch, findKey, List.find?_map, agree]

theorem stateOf_killSwitch (r : Registry) (reason id : String) {state : SkillState}
    (before : stateOf r id = some state) :
    ∃ state', stateOf (killSwitch r reason).1 id = some state' ∧
      (state' = state ∨ state' = .quarantined reason) := by
  obtain ⟨e, found, rfl⟩ := Option.map_eq_some_iff.mp before
  rw [stateOf, find_killSwitch, found]
  refine ⟨_, rfl, ?_⟩
  dsimp only
  split
  · exact .inr rfl
  · exact .inl rfl

theorem find_none_iff {r : Registry} {id : String} :
    find r id = none ↔ id ∉ r.entries.map SkillEntry.id := by
  simp [find, findKey]

/-- A registration is refused, or it adds one entry under a free id. -/
theorem register_cases (toLowercase : String → String) (r : Registry) (manifest : SkillManifest)
    (body : Option SkillBody) (provenance : SkillProvenance) (state : SkillState) :
    (∃ e, register toLowercase r manifest body provenance state = (r, .error e)) ∨
    ∃ added : SkillEntry, find r added.id = none ∧ added.provenance = provenance ∧
      added.state = state ∧
      (register toLowercase r manifest body provenance state).2 = .ok added.id ∧
      ∀ other, find (register toLowercase r manifest body provenance state).1 other =
        if other = added.id then some added else find r other := by
  simp only [register]
  split
  · rename_i fresh
    refine .inr ⟨⟨idFromName toLowercase manifest.name, manifest, body, provenance, state⟩,
      find_none_iff.mpr fresh, rfl, rfl, rfl, ?_⟩
    intro other
    simp only [find, findKey, List.find?_append]
    split
    · rename_i same
      subst same
      have absent := find_none_iff.mpr fresh
      simp only [find, findKey] at absent
      simp [absent]
    · rename_i apart
      have apart' : ¬ idFromName toLowercase manifest.name = other := fun same => apart same.symm
      simp [apart']
  · exact .inl ⟨_, rfl⟩

/-- An evaluation registers nothing, or one skill in the state that the gate gives its author. -/
theorem evaluate_cases (toLowercase : String → String) (proposal : SkillProposal) (r : Registry)
    (s : SkillContentScreen) (gate : PromotionGateConfig) :
    ((evaluateSkillProposal toLowercase proposal r s gate).1 = r ∧
      ∀ outcome, (evaluateSkillProposal toLowercase proposal r s gate).2 = .ok outcome →
        outcome.artifactId = none) ∨
    ∃ added : SkillEntry, find r added.id = none ∧
      added.provenance.authoredBy = proposal.authoredBy ∧
      added.state = initialState gate proposal.authoredBy ∧
      (∃ action, (evaluateSkillProposal toLowercase proposal r s gate).2 =
        .ok ⟨some added.id, action⟩) ∧
      ∀ other, find (evaluateSkillProposal toLowercase proposal r s gate).1 other =
        if other = added.id then some added else find r other := by
  cases flagged : screen toLowercase s proposal.skillText with
  | some reason =>
    refine .inl ⟨by simp [evaluateSkillProposal, flagged], ?_⟩
    intro outcome answered
    simp only [evaluateSkillProposal, flagged] at answered
    cases answered
    rfl
  | none =>
    cases parsed : parseBody proposal.skillText.toList with
    | error e =>
      refine .inl ⟨by simp [evaluateSkillProposal, flagged, registerFromText, parsed], ?_⟩
      intro outcome answered
      simp [evaluateSkillProposal, flagged, registerFromText, parsed] at answered
    | ok body =>
      simp only [evaluateSkillProposal, flagged, registerFromText, parsed]
      rcases register_cases toLowercase r body.manifest (some body)
        ⟨proposal.authoredBy, proposal.proposedAtNs, proposal.sourceEpisode, 1⟩
        (initialState gate proposal.authoredBy) with ⟨e, refused⟩ |
        ⟨added, free, author, state, answer, entries⟩
      · rw [refused]
        refine .inl ⟨rfl, ?_⟩
        intro outcome answered
        cases answered
      · refine .inr ⟨added, free, by rw [author], state, ?_, ?_⟩
        · split
          · rename_i same
            rw [same] at answer
            cases answer
          · rename_i same
            rw [same] at answer
            cases answer
            exact ⟨_, rfl⟩
        · intro other
          rw [← entries other]
          split
          · rename_i same
            rw [same]
          · rename_i same
            rw [same]

end SkillRegistry
