import AnimaOS.ApprovalRoutes
import AnimaOS.ConsoleApprovals
import AnimaOS.JsonParser

/-!
# The bodies of console responses

The console writes its JSON bodies by hand and quotes the strings it is given
with an escaper of its own. That escaper leaves most control characters as they
are, so a body is a JSON text exactly when no quoted string holds one of them.
-/

namespace ConsoleBodies

open JsonGrammar ConsoleApprovals ApprovalQueue
open ApprovalRoutes (percentDecode)

/-! ## Bodies -/

def acceptedBody (messageId : String) : String :=
  "\x7b\"ok\":true,\"message_id\":" ++ jsonString messageId ++ "\x7d"

def refusedBody (error : String) : String :=
  "\x7b\"ok\":false,\"error\":" ++ jsonString error ++ "\x7d"

def whoamiBody (userId displayName trustTier : String) (registered tokenRequired : Bool) : String :=
  "\x7b\"user_id\":" ++ jsonString userId ++ ",\"display_name\":" ++ jsonString displayName ++
    ",\"trust_tier\":" ++ jsonString trustTier ++ ",\"registered\":" ++ toString registered ++
    ",\"token_required\":" ++ toString tokenRequired ++ "\x7d"

/-- The bodies that quote a string of the request, the queue or the registry. -/
inductive Body where
  | accepted (messageId : String)
  | refused (error : String)
  | whoami (userId displayName trustTier : String) (registered tokenRequired : Bool)

namespace Body

def text : Body → String
  | accepted messageId => acceptedBody messageId
  | refused error => refusedBody error
  | whoami userId displayName trustTier registered tokenRequired =>
    whoamiBody userId displayName trustTier registered tokenRequired

/-- The strings a body quotes. -/
def quoted : Body → List String
  | accepted messageId => [messageId]
  | refused error => [error]
  | whoami userId displayName trustTier _ _ => [userId, displayName, trustTier]

/-- The members of the object a body is meant to be. -/
def members : Body → List (String × Json)
  | accepted messageId => [("ok", .bool true), ("message_id", .string messageId.toList)]
  | refused error => [("ok", .bool false), ("error", .string error.toList)]
  | whoami userId displayName trustTier registered tokenRequired =>
    [("user_id", .string userId.toList), ("display_name", .string displayName.toList),
      ("trust_tier", .string trustTier.toList), ("registered", .bool registered),
      ("token_required", .bool tokenRequired)]

def value (body : Body) : Json := .object (body.members.map fun (name, v) => (name.toList, v))

end Body

/-- The string of the queue's error that the response to an action quotes. -/
def echoed (debug : ProposalStatus → String) (queue : Queue) (proposalId : String)
    (approve : Bool) (body : ActionBody) (ts : Nat) : Option String :=
  match body with
  | .reason reason =>
    match (if approve then ApprovalQueue.approve queue proposalId reason ts
      else ApprovalQueue.reject queue proposalId reason ts).2 with
    | .ok () => none
    | .error e => some (e.message debug)
  | .tooLarge => none
  | .notUtf8 => none
  | .notJson => none

/-! ## Quoted strings -/

/-- Each control character of the string is one that the escaper escapes. -/
def Escapable (s : String) : Prop :=
  ∀ c ∈ s.toList, c.toNat < 0x20 → c = '\n' ∨ c = '\r' ∨ c = '\t'

def escapeChar (c : Char) : List Char :=
  match c with
  | '"' => ['\\', '"']
  | '\\' => ['\\', '\\']
  | '\n' => ['\\', 'n']
  | '\r' => ['\\', 'r']
  | '\t' => ['\\', 't']
  | c => [c]

theorem jsonString_toList (s : String) :
    (jsonString s).toList = '"' :: (s.toList.flatMap escapeChar ++ ['"']) := by
  simp only [jsonString, String.toList_append, String.toList_ofList]
  rfl

theorem escapeChar_plain {c : Char} (quote : c ≠ '"') (backslash : c ≠ '\\') (newline : c ≠ '\n')
    (carriage : c ≠ '\r') (tab : c ≠ '\t') : escapeChar c = [c] := by
  unfold escapeChar
  split <;> first | rfl | contradiction

theorem escapeChar_text {c : Char} (escapable : c.toNat < 0x20 → c = '\n' ∨ c = '\r' ∨ c = '\t')
    {s t : List Char} (rest : StringText s t) : StringText (c :: s) (escapeChar c ++ t) := by
  by_cases quote : c = '"'
  · subst quote
    exact .short rfl rest
  by_cases backslash : c = '\\'
  · subst backslash
    exact .short rfl rest
  by_cases newline : c = '\n'
  · subst newline
    exact .short rfl rest
  by_cases carriage : c = '\r'
  · subst carriage
    exact .short rfl rest
  by_cases tab : c = '\t'
  · subst tab
    exact .short rfl rest
  · have printable : 0x20 ≤ c.toNat := by
      by_cases control : c.toNat < 0x20
      · rcases escapable control with same | same | same
        · exact absurd same newline
        · exact absurd same carriage
        · exact absurd same tab
      · omega
    rw [escapeChar_plain quote backslash newline carriage tab]
    exact .plain printable quote backslash rest

theorem escape_text {s : List Char}
    (escapable : ∀ c ∈ s, c.toNat < 0x20 → c = '\n' ∨ c = '\r' ∨ c = '\t') :
    StringText s (s.flatMap escapeChar) := by
  induction s with
  | nil => exact .nil
  | cons c s ih =>
    rw [List.flatMap_cons]
    exact escapeChar_text (escapable c List.mem_cons_self)
      (ih fun d hd => escapable d (List.mem_cons_of_mem c hd))

theorem jsonString_spells {s : String} (escapable : Escapable s) :
    Spells (.string s.toList) (jsonString s).toList := by
  rw [jsonString_toList]
  exact .string (escape_text escapable)

/-- A control character that is not escaped stands in the literal as it is. -/
theorem raw_of_not_escapable {s : String} (h : ¬ Escapable s) :
    ∃ c ∈ (jsonString s).toList, ¬ Visible c := by
  simp only [Escapable, not_forall] at h
  obtain ⟨c, hc, control, other⟩ := h
  simp only [not_or] at other
  obtain ⟨newline, carriage, tab⟩ := other
  have small (d : Char) (printable : 0x20 ≤ d.toNat) : c ≠ d := by
    rintro rfl
    omega
  have same : escapeChar c = [c] :=
    escapeChar_plain (small '"' (by decide)) (small '\\' (by decide)) newline carriage tab
  refine ⟨c, ?_, ?_⟩
  · rw [jsonString_toList]
    have inside : c ∈ s.toList.flatMap escapeChar :=
      List.mem_flatMap.mpr ⟨c, hc, by simp [same]⟩
    simp [inside]
  · rintro (printable | space)
    · omega
    · simp only [isSpace, Bool.or_eq_true, decide_eq_true_eq] at space
      rcases space with ((blank | same) | same) | same
      · exact small ' ' (by decide) blank
      · exact tab same
      · exact newline same
      · exact carriage same

/-! ## Assembled bodies -/

/-- A member written without white space. -/
structure Entry where
  name : String
  value : Json
  text : String

namespace Entry

def member (e : Entry) : Member := ⟨[], e.name.toList, e.name.toList, [], [], e.text.toList, [], e.value⟩

structure Good (e : Entry) : Prop where
  plain : StringText e.name.toList e.name.toList
  spells : Spells e.value e.text.toList

end Entry

/-- An object written without white space. -/
def compact (entries : List Entry) : List Char :=
  '{' :: (listed (entries.map fun e => e.member.piece) ++ ['}'])

/-- A name without characters that need an escape is its own text. -/
theorem name_text {s : List Char} (plain : ∀ c ∈ s, 0x20 ≤ c.toNat ∧ c ≠ '"' ∧ c ≠ '\\') :
    StringText s s := by
  induction s with
  | nil => exact .nil
  | cons c s ih =>
    obtain ⟨printable, quote, backslash⟩ := plain c List.mem_cons_self
    exact .plain printable quote backslash (ih fun d hd => plain d (List.mem_cons_of_mem c hd))

theorem compact_spells {entries : List Entry} (nonempty : entries ≠ [])
    (good : ∀ e ∈ entries, e.Good) :
    Spells (.object (entries.map fun e => (e.name.toList, e.value))) (compact entries) := by
  have object := @Spells.object (entries.map Entry.member) (by simpa using nonempty)
  simp only [List.forall_mem_map, List.map_map] at object
  refine object ?_ fun e he => (good e he).spells
  intro e he
  have blank : Blank [] := by simp [Blank]
  exact ⟨⟨blank, blank⟩, (good e he).plain, blank, blank⟩

theorem jsonText_of_spells {v : Json} {text : List Char} (h : Spells v text) : JsonText v text :=
  ⟨[], text, [], by simp, by simp [Blank], by simp [Blank], h⟩

theorem bool_spells (b : Bool) : Spells (.bool b) (toString b).toList := by
  cases b with
  | true => exact .true
  | false => exact .false

namespace Body

def entries : Body → List Entry
  | accepted messageId =>
    [⟨"ok", .bool true, toString true⟩, ⟨"message_id", .string messageId.toList, jsonString messageId⟩]
  | refused error =>
    [⟨"ok", .bool false, toString false⟩, ⟨"error", .string error.toList, jsonString error⟩]
  | whoami userId displayName trustTier registered tokenRequired =>
    [⟨"user_id", .string userId.toList, jsonString userId⟩,
      ⟨"display_name", .string displayName.toList, jsonString displayName⟩,
      ⟨"trust_tier", .string trustTier.toList, jsonString trustTier⟩,
      ⟨"registered", .bool registered, toString registered⟩,
      ⟨"token_required", .bool tokenRequired, toString tokenRequired⟩]

theorem entries_value (body : Body) :
    Json.object (body.entries.map fun e => (e.name.toList, e.value)) = body.value := by
  cases body <;> rfl

theorem text_toList (body : Body) : body.text.toList = compact body.entries := by
  have yes : (toString true).toList = ['t', 'r', 'u', 'e'] := rfl
  have no : (toString false).toList = ['f', 'a', 'l', 's', 'e'] := rfl
  cases body with
  | accepted messageId =>
    unfold text acceptedBody
    simp [yes, entries, compact, listed, Entry.member, Member.piece, Piece.whole]
  | refused error =>
    unfold text refusedBody
    simp [no, entries, compact, listed, Entry.member, Member.piece, Piece.whole]
  | whoami userId displayName trustTier registered tokenRequired =>
    unfold text whoamiBody
    simp [entries, compact, listed, Entry.member, Member.piece, Piece.whole]

theorem entries_good {body : Body} (escapable : ∀ s ∈ body.quoted, Escapable s) :
    ∀ e ∈ body.entries, e.Good := by
  cases body with
  | accepted messageId =>
    simp only [quoted, List.forall_mem_cons, List.not_mem_nil, false_implies, implies_true,
      and_true] at escapable
    simp only [entries, List.forall_mem_cons, List.not_mem_nil, false_implies, implies_true,
      and_true]
    exact ⟨⟨name_text (by simp), bool_spells true⟩,
      ⟨name_text (by simp), jsonString_spells escapable⟩⟩
  | refused error =>
    simp only [quoted, List.forall_mem_cons, List.not_mem_nil, false_implies, implies_true,
      and_true] at escapable
    simp only [entries, List.forall_mem_cons, List.not_mem_nil, false_implies, implies_true,
      and_true]
    exact ⟨⟨name_text (by simp), bool_spells false⟩,
      ⟨name_text (by simp), jsonString_spells escapable⟩⟩
  | whoami userId displayName trustTier registered tokenRequired =>
    simp only [quoted, List.forall_mem_cons, List.not_mem_nil, false_implies, implies_true,
      and_true] at escapable
    simp only [entries, List.forall_mem_cons, List.not_mem_nil, false_implies, implies_true,
      and_true]
    exact ⟨⟨name_text (by simp), jsonString_spells escapable.1⟩,
      ⟨name_text (by simp), jsonString_spells escapable.2.1⟩,
      ⟨name_text (by simp), jsonString_spells escapable.2.2⟩,
      ⟨name_text (by simp), bool_spells registered⟩,
      ⟨name_text (by simp), bool_spells tokenRequired⟩⟩

/-- The literal of every quoted string stands in the body. -/
theorem quoted_subset {body : Body} {s : String} (quotes : s ∈ body.quoted) :
    ∀ c ∈ (jsonString s).toList, c ∈ body.text.toList := by
  intro c hc
  cases body with
  | accepted messageId =>
    rw [List.mem_singleton.mp quotes] at hc
    unfold text acceptedBody
    simp [hc]
  | refused error =>
    rw [List.mem_singleton.mp quotes] at hc
    unfold text refusedBody
    simp [hc]
  | whoami userId displayName trustTier registered tokenRequired =>
    simp only [quoted, List.mem_cons, List.not_mem_nil, or_false] at quotes
    unfold text whoamiBody
    rcases quotes with rfl | rfl | rfl <;> simp [hc]

/-- A body is the JSON text of its object exactly when all it quotes can be escaped. -/
theorem valid_iff (body : Body) :
    (JsonText body.value body.text.toList ↔ ∀ s ∈ body.quoted, Escapable s) ∧
      ((∃ v, JsonText v body.text.toList) ↔ ∀ s ∈ body.quoted, Escapable s) := by
  have needed (v : Json) (h : JsonText v body.text.toList) : ∀ s ∈ body.quoted, Escapable s := by
    intro s quotes
    by_contra raw
    obtain ⟨c, hc, invisible⟩ := raw_of_not_escapable raw
    exact invisible (h.visible c (quoted_subset quotes c hc))
  have enough (escapable : ∀ s ∈ body.quoted, Escapable s) :
      JsonText body.value body.text.toList := by
    rw [text_toList, ← entries_value]
    have nonempty : body.entries ≠ [] := by cases body <;> exact List.cons_ne_nil _ _
    exact jsonText_of_spells (compact_spells nonempty (entries_good escapable))
  exact ⟨⟨needed _, enough⟩, fun ⟨v, h⟩ => needed v h, fun h => ⟨_, enough h⟩⟩

end Body

/-! ## Responses to an action -/

/-- The fixed texts with which the handler refuses a request body. -/
def fixedErrors : List String :=
  ["request body exceeds 4 KiB limit", "request body is not valid UTF-8",
    "request body is not valid JSON"]

theorem action_body (debug : ProposalStatus → String) (queue : Queue) (proposalId : String)
    (approve : Bool) (body : ActionBody) (ts : Nat) :
    let text := (serveApprovalAction debug queue proposalId approve body ts).response.body
    match echoed debug queue proposalId approve body ts with
    | some error => text = refusedBody error
    | none => text = "\x7b\"ok\":true\x7d" ∨ ∃ error ∈ fixedErrors, text = refusedBody error := by
  cases body with
  | tooLarge => exact .inr ⟨_, List.mem_cons_self, rfl⟩
  | notUtf8 => exact .inr ⟨_, List.mem_cons_of_mem _ List.mem_cons_self, rfl⟩
  | notJson => exact .inr ⟨_, List.mem_cons_of_mem _ (List.mem_cons_of_mem _ List.mem_cons_self), rfl⟩
  | reason reason =>
    simp only [serveApprovalAction, decideProposal, echoed]
    cases (if approve then ApprovalQueue.approve queue proposalId reason ts
      else ApprovalQueue.reject queue proposalId reason ts).2 with
    | ok _ => exact .inl rfl
    | error e => rfl

theorem fixedErrors_escapable : ∀ error ∈ fixedErrors, Escapable error := by
  have printable : ∀ error ∈ fixedErrors, ∀ c ∈ error.toList, 0x20 ≤ c.toNat := by
    simp [fixedErrors]
  intro error fixed c hc control
  have := printable error fixed c hc
  omega

theorem action_spells_iff (debug : ProposalStatus → String) (queue : Queue) (proposalId : String)
    (approve : Bool) (body : ActionBody) (ts : Nat) :
    (∃ v, JsonText v
        (serveApprovalAction debug queue proposalId approve body ts).response.body.toList) ↔
      ∀ error ∈ echoed debug queue proposalId approve body ts, Escapable error := by
  have refused (error : String) :
      (∃ v, JsonText v (refusedBody error).toList) ↔ Escapable error := by
    simpa [Body.text, Body.quoted] using (Body.valid_iff (.refused error)).2
  have form := action_body debug queue proposalId approve body ts
  cases quotes : echoed debug queue proposalId approve body ts with
  | some error =>
    rw [quotes] at form
    simp [form, refused]
  | none =>
    rw [quotes] at form
    refine ⟨fun _ => by simp, fun _ => ?_⟩
    rcases form with plain | ⟨error, fixed, same⟩
    · have object := @compact_spells [⟨"ok", .bool true, toString true⟩] (by simp)
        (by simpa using ⟨name_text (by simp), bool_spells true⟩)
      rw [plain]
      exact ⟨_, jsonText_of_spells object⟩
    · rw [same]
      exact (refused error).mpr (fixedErrors_escapable error fixed)

theorem jsonString_iff (s : String) :
    JsonText (.string s.toList) (jsonString s).toList ↔ Escapable s := by
  constructor
  · intro h
    by_contra raw
    obtain ⟨c, hc, invisible⟩ := raw_of_not_escapable raw
    exact invisible (h.visible c hc)
  · exact fun escapable => jsonText_of_spells (jsonString_spells escapable)

/-- The literal of a string decodes to it, and a body is a JSON text, exactly when the quoted strings
hold no control character but line feeds, carriage returns and tabs. -/
theorem valid_iff_escapable (s : String) (body : Body) (debug : ProposalStatus → String)
    (queue : Queue) (proposalId : String) (approve : Bool) (action : ActionBody) (ts : Nat) :
    ((JsonText (.string s.toList) (jsonString s).toList ∧
        parse (jsonString s).toList = some (.string s.toList)) ↔ Escapable s) ∧
      (JsonText body.value body.text.toList ↔ ∀ s ∈ body.quoted, Escapable s) ∧
      ((∃ v, JsonText v body.text.toList) ↔ ∀ s ∈ body.quoted, Escapable s) ∧
      ((∃ v, JsonText v
          (serveApprovalAction debug queue proposalId approve action ts).response.body.toList) ↔
        ∀ error ∈ echoed debug queue proposalId approve action ts, Escapable error) := by
  refine ⟨⟨fun h => (jsonString_iff s).mp h.1, fun escapable => ?_⟩, (Body.valid_iff body).1,
    (Body.valid_iff body).2, action_spells_iff debug queue proposalId approve action ts⟩
  have literal := (jsonString_iff s).mpr escapable
  exact ⟨literal, parse_complete literal⟩

/-- Approving the unknown proposal `%01` is answered with a text that is no JSON. -/
theorem approve_control_character :
    percentDecode ['%', '0', '1'] = String.ofList ['\x01'] ∧
      ¬ ∃ v, JsonText v (serveApprovalAction (fun _ => "") ApprovalQueue.empty
        (String.ofList ['\x01']) true (.reason "approved") 0).response.body.toList := by
  refine ⟨by decide, ?_⟩
  rintro ⟨v, h⟩
  have raw := h.visible '\x01' (by decide)
  simp [Visible, isSpace] at raw

end ConsoleBodies
