import AnimaOS.RecentWindow
import AnimaOS.SessionStore

/-!
# Composing prompts from a conversation

`SessionConversation` over the shared session store. Composing a prompt appends
the operator's turn to the session and renders the newest turns that fit the
context. The append may be refused, which is absorbed, and the prompt then goes
out without the operator's message.
-/

namespace ConversationPrompt

open Sessions RecentWindow Machine

/-- The store behind its lock; a panic of a holder poisons the lock. -/
structure Shared where
  store : SessionStore
  poisoned : Bool

structure Memory where
  sessionId : String
  identity : String
  maxContextChars : Nat

/-! ## Composition -/

def operatorLabel : String := "operator"

def agentLabel : String := "anima"

def label : ConversationRole → String
  | .user => operatorLabel
  | .assistant => agentLabel
  | .system => "system"
  | .tool => "tool"

/-- The label, separator and newline of a turn are counted as twelve bytes. -/
def turnCost (turn : ConversationTurn) : Nat := turn.content.utf8ByteSize + 12

def turnLine (turn : ConversationTurn) : String := label turn.role ++ ": " ++ turn.content ++ "\n"

def render (turns : List ConversationTurn) : String := String.join (turns.map turnLine)

/-- A storage error is absorbed. -/
def append (m : Memory) (s : Shared) (role : ConversationRole) (content : String) (now : Nat)
    (io : Except String Unit) : Shared :=
  if s.poisoned then s
  else { s with store := (appendTurn s.store m.sessionId ⟨0, role, content, [], now, 0⟩ io).1 }

def transcript (m : Memory) (s : Shared) : String :=
  if s.poisoned then ""
  else
    match s.store.sessions.get m.sessionId with
    | none => ""
    | some session => render (recent turnCost m.maxContextChars session.turns)

def prompt (identity transcript : String) : String :=
  (if identity.isEmpty then "" else identity ++ "\n\n") ++ "Conversation so far:\n" ++ transcript ++
    "\n" ++ agentLabel ++ ":"

def compose (m : Memory) (s : Shared) (guidance : String) (now : Nat) (io : Except String Unit) :
    Shared × String :=
  let s := append m s .user guidance now io
  (s, prompt m.identity (transcript m s))

def recordReply (m : Memory) (s : Shared) (response : String) (now : Nat)
    (io : Except String Unit) : Shared :=
  append m s .assistant response now io

/-! ## Runs -/

/-- The calls of the memory, and what other holders of the store do in between. -/
inductive Op where
  | compose (guidance : String) (now : Nat) (io : Except String Unit)
  | recordReply (response : String) (now : Nat) (io : Except String Unit)
  | store (op : StoreOp)
  | poison

def step (m : Memory) (s : Shared) : Op → Shared × Option String
  | .compose guidance now io =>
    ((compose m s guidance now io).1, some (compose m s guidance now io).2)
  | .recordReply response now io => (recordReply m s response now io, none)
  | .store op => ({ s with store := (Sessions.step s.store op).1 }, none)
  | .poison => ({ s with poisoned := true }, none)

/-! ## What is asked of a prompt -/

/-- The turns the store shows for the session. -/
def shown (m : Memory) (s : Shared) : List ConversationTurn :=
  ((s.store.sessions.get m.sessionId).map SessionRecord.turns).getD []

/-- The transcript in a prompt is the longest affordable final part of some turns. -/
def Renders (m : Memory) (turns : List ConversationTurn) (text : String)
    (window : List ConversationTurn) : Prop :=
  LongestAffordable turnCost m.maxContextChars turns window ∧
    text = prompt m.identity (render window)

def isGuidance (guidance : String) (turn : ConversationTurn) : Prop :=
  turn.role = .user ∧ turn.content = guidance

/-- The prompt renders the newest turns of the session, and the last of them is the guidance. -/
def Carries (m : Memory) (s : Shared) (guidance : String) (now : Nat) (io : Except String Unit) :
    Prop :=
  ∃ window, Renders m (shown m (compose m s guidance now io).1) (compose m s guidance now io).2
    window ∧ ∃ turn, window.getLast? = some turn ∧ isGuidance guidance turn

/-- The lock is sound and the session is there and active, unless its newest turn happens to be the
guidance already. -/
def Receives (m : Memory) (s : Shared) (guidance : String) : Prop :=
  s.poisoned = false ∧ ∃ session, s.store.sessions.get m.sessionId = some session ∧
    (session.status = .active ∨ ∃ turn, session.turns.getLast? = some turn ∧ isGuidance guidance turn)

/-! ## One call -/

theorem turnCost_pos (turn : ConversationTurn) : 0 < turnCost turn := Nat.succ_pos _

/-- With a sound lock the transcript is the window onto the turns the store shows. -/
theorem transcript_shown (m : Memory) {s : Shared} (sound : s.poisoned = false) :
    transcript m s = render (recent turnCost m.maxContextChars (shown m s)) := by
  rw [transcript, sound, shown]
  cases s.store.sessions.get m.sessionId with
  | none => rfl
  | some session => rfl

theorem append_poisoned (m : Memory) (s : Shared) (role : ConversationRole) (content : String)
    (now : Nat) (io : Except String Unit) :
    (append m s role content now io).poisoned = s.poisoned := by
  rw [append]
  split <;> rfl

theorem compose_renders (m : Memory) {s : Shared} (sound : s.poisoned = false) (guidance : String)
    (now : Nat) (io : Except String Unit) :
    Renders m (shown m (compose m s guidance now io).1) (compose m s guidance now io).2
      (recent turnCost m.maxContextChars (shown m (compose m s guidance now io).1)) := by
  have after : (compose m s guidance now io).1.poisoned = false :=
    (append_poisoned m s .user guidance now io).trans sound
  refine ⟨recent_longest turnCost_pos _ _, ?_⟩
  rw [← transcript_shown m after]
  rfl

/-- An active session gets the turn, whatever becomes of the write. -/
theorem shown_append {m : Memory} {s : Shared} (sound : s.poisoned = false)
    {session : SessionRecord} (found : s.store.sessions.get m.sessionId = some session)
    (active : session.status = .active) (role : ConversationRole) (content : String) (now : Nat)
    (io : Except String Unit) :
    shown m (append m s role content now io) =
      session.turns ++ [⟨session.turns.length, role, content, [], now, 0⟩] := by
  have called := SessionRecord.appendTurn_active active ⟨0, role, content, [], now, 0⟩
  rw [append, sound, shown]
  simp only [Bool.false_eq_true, if_false, appendTurn, editSession, found, called, flush_sessions,
    KeyedMap.get_insert_self, Option.map_some, Option.getD_some]

theorem append_refused {m : Memory} {s : Shared}
    (refused : ¬ ∃ session, s.store.sessions.get m.sessionId = some session ∧
      session.status = .active) (role : ConversationRole) (content : String) (now : Nat)
    (io : Except String Unit) : append m s role content now io = s := by
  rw [append, appendTurn_inactive refused]
  split <;> rfl

theorem prompt_inj {identity t t' : String} (same : prompt identity t = prompt identity t') :
    t = t' := by
  have text := congrArg String.toList same
  simp only [prompt, String.toList_append, List.append_assoc, List.append_cancel_left_eq,
    List.append_cancel_right_eq] at text
  exact String.toList_inj.mp text

theorem render_nonempty {window : List ConversationTurn} {turn : ConversationTurn}
    (last : window.getLast? = some turn) : render window ≠ "" := by
  intro empty
  have listed : turn ∈ window := List.mem_of_getLast? last
  have text := congrArg String.toList empty
  rw [render, String.toList_join, String.toList_empty, List.flatMap_eq_nil_iff] at text
  have line := text (turnLine turn) (List.mem_map_of_mem listed)
  simp [turnLine] at line

/-- A prompt carries the guidance exactly when the session receives it. -/
theorem carries_iff (m : Memory) (s : Shared) (guidance : String) (now : Nat)
    (io : Except String Unit) : Carries m s guidance now io ↔ Receives m s guidance := by
  have after : (compose m s guidance now io).1 = append m s .user guidance now io := rfl
  constructor
  · rintro ⟨window, ⟨longest, text⟩, turn, last, operator⟩
    have sound : s.poisoned = false := by
      cases poisoned : s.poisoned with
      | false => rfl
      | true =>
        have silent : (compose m s guidance now io).2 = prompt m.identity "" := by
          simp [compose, append, transcript, poisoned]
        exact absurd (prompt_inj (text.symm.trans silent)) (render_nonempty last)
    refine ⟨sound, ?_⟩
    rw [after] at longest
    rw [longest.newest] at last
    by_cases active : ∃ session, s.store.sessions.get m.sessionId = some session ∧
        session.status = .active
    · obtain ⟨session, found, ongoing⟩ := active
      exact ⟨session, found, .inl ongoing⟩
    · rw [append_refused active, shown] at last
      cases found : s.store.sessions.get m.sessionId with
      | none =>
        rw [found] at last
        cases last
      | some session =>
        rw [found] at last
        exact ⟨session, rfl, .inr ⟨turn, last, operator⟩⟩
  · rintro ⟨sound, session, found, received⟩
    have renders := compose_renders m sound guidance now io
    refine ⟨_, renders, ?_⟩
    rw [renders.1.newest, after]
    by_cases active : session.status = .active
    · rw [shown_append sound found active, List.getLast?_concat]
      exact ⟨_, rfl, rfl, rfl⟩
    · have refused : ¬ ∃ other, s.store.sessions.get m.sessionId = some other ∧
          other.status = .active := by
        rintro ⟨other, found', ongoing⟩
        rw [found] at found'
        cases found'
        exact active ongoing
      have turns : shown m s = session.turns := by rw [shown, found]; rfl
      rw [append_refused refused, turns]
      exact received.resolve_left active

/-! ## Turns over a run -/

/-- What a call of the store does to the turns it shows: it may add some at the end. -/
theorem shown_store (m : Memory) (s : Shared) (op : StoreOp) :
    ∃ later, shown m { s with store := (Sessions.step s.store op).1 } = shown m s ++ later := by
  simp only [shown]
  rcases get_step s.store op m.sessionId with related | ⟨absent, id, userId, agentId, now, new⟩
  · cases before : s.store.sessions.get m.sessionId with
    | none =>
      exact ⟨_, (List.nil_append _).symm⟩
    | some session =>
      rw [before] at related
      cases after : (Sessions.step s.store op).1.sessions.get m.sessionId with
      | none =>
        rw [after] at related
        cases related
      | some edited =>
        rw [after] at related
        cases related with
        | some change =>
          cases change with
          | same => exact ⟨[], (List.append_nil _).symm⟩
          | append turn answer =>
            obtain ⟨-, rfl⟩ := appendTurn_ok answer
            exact ⟨[_], rfl⟩
          | archive summary answer =>
            obtain ⟨-, -, turns, -⟩ := archive_ok answer
            exact ⟨[], by simp [turns]⟩
          | delete => exact ⟨[], (List.append_nil _).symm⟩
  · rw [absent, new]
    exact ⟨[], rfl⟩

theorem shown_append_grows (m : Memory) (s : Shared) (role : ConversationRole) (content : String)
    (now : Nat) (io : Except String Unit) :
    ∃ later, shown m (append m s role content now io) = shown m s ++ later := by
  rw [append]
  split
  · exact ⟨[], (List.append_nil _).symm⟩
  · exact shown_store m s (.appendTurn m.sessionId ⟨0, role, content, [], now, 0⟩ io)

theorem shown_step (m : Memory) (s : Shared) (op : Op) :
    ∃ later, shown m (step m s op).1 = shown m s ++ later := by
  cases op with
  | compose guidance now io => exact shown_append_grows m s .user guidance now io
  | recordReply response now io => exact shown_append_grows m s .assistant response now io
  | store op => exact shown_store m s op
  | poison => exact ⟨[], (List.append_nil _).symm⟩

/-- The turns shown before a run stay at the front of those shown after it. -/
theorem shown_run (m : Memory) (s : Shared) (ops : List Op) :
    ∃ later, shown m (final (step m) s ops) = shown m s ++ later := by
  induction ops generalizing s with
  | nil => exact ⟨[], (List.append_nil _).symm⟩
  | cons op ops ih =>
    obtain ⟨first, stepped⟩ := shown_step m s op
    obtain ⟨rest, ran⟩ := ih (step m s op).1
    exact ⟨first ++ rest, by rw [final, ran, stepped, List.append_assoc]⟩

/-- Along a run every prompt carries its guidance exactly when every session receives it; and with a
sound lock a prompt's transcript is the window onto the turns the store shows then, which stay
the first turns it shows later. -/
theorem prompts_carry_iff (m : Memory) (start : Shared) (ops : List Op) :
    ((∀ pre guidance now io post, ops = pre ++ .compose guidance now io :: post →
        Carries m (final (step m) start pre) guidance now io) ↔
      ∀ pre guidance now io post, ops = pre ++ .compose guidance now io :: post →
        Receives m (final (step m) start pre) guidance) ∧
    ∀ pre guidance now io post, ops = pre ++ .compose guidance now io :: post →
      (final (step m) start pre).poisoned = false →
      ∃ window later,
        Renders m (shown m (final (step m) start (pre ++ [.compose guidance now io])))
          (compose m (final (step m) start pre) guidance now io).2 window ∧
        shown m (final (step m) start ops) =
          shown m (final (step m) start (pre ++ [.compose guidance now io])) ++ later := by
  refine ⟨?_, ?_⟩
  · constructor
    · intro carries pre guidance now io post split
      exact (carries_iff m _ guidance now io).mp (carries pre guidance now io post split)
    · intro receives pre guidance now io post split
      exact (carries_iff m _ guidance now io).mpr (receives pre guidance now io post split)
  · intro pre guidance now io post split sound
    have renders := compose_renders m sound guidance now io
    have after : final (step m) start (pre ++ [.compose guidance now io]) =
        (compose m (final (step m) start pre) guidance now io).1 := final_snoc _ _ _ _
    obtain ⟨later, grown⟩ := shown_run m
      (final (step m) start (pre ++ [.compose guidance now io])) post
    have whole : final (step m) (final (step m) start (pre ++ [.compose guidance now io])) post =
        final (step m) start ops := by
      rw [← final_append, split, List.append_assoc]
      rfl
    rw [whole] at grown
    rw [after] at grown ⊢
    exact ⟨_, later, renders, grown⟩

/-- A store whose one session was archived before anything was said in it. -/
def archivedOnly : Shared :=
  ⟨⟨KeyedMap.empty.insert "sess-1"
    { SessionRecord.new "sess-1" "user" "agent" 1 with status := .archived }, none, none⟩, false⟩

/-- The prompt to an archived session leaves the message out, without any fault of the disk. -/
theorem archived_session_silent :
    ¬ Carries ⟨"sess-1", "", 6000⟩ archivedOnly "hello" 2 (.ok ()) ∧
      (compose ⟨"sess-1", "", 6000⟩ archivedOnly "hello" 2 (.ok ())).2 = prompt "" "" := by
  refine ⟨fun carries => ?_, rfl⟩
  obtain ⟨-, session, found, received⟩ := (carries_iff _ _ _ _ _).mp carries
  have only : archivedOnly.store.sessions.get "sess-1" =
      some { SessionRecord.new "sess-1" "user" "agent" 1 with status := .archived } :=
    KeyedMap.get_insert_self _ _ _
  cases only.symm.trans found
  rcases received with active | ⟨turn, last, -⟩
  · cases active
  · cases last

end ConversationPrompt
