import AnimaOS.FixedWidth
import AnimaOS.KeyedMap
import AnimaOS.Machine

/-!
# The session store

Conversation sessions with their turns, kept in a map and flushed as one file.
Appending, archiving and deleting edit the map first; the write comes afterwards
and may fail.
-/

namespace Sessions

open FixedWidth Machine

inductive ConversationRole where
  | user
  | assistant
  | system
  | tool
  deriving DecidableEq, Repr

structure ConversationTurn where
  index : Nat
  role : ConversationRole
  content : String
  toolCalls : List String
  timestampNs : Nat
  tokens : Nat
  deriving DecidableEq, Repr

inductive SessionStatus where
  | active
  | archived
  | deleted
  deriving DecidableEq, Repr

structure SessionRecord where
  schemaVersion : Nat
  id : String
  userId : String
  agentId : String
  startedAtNs : Nat
  lastActiveNs : Nat
  status : SessionStatus
  turns : List ConversationTurn
  summary : Option String
  totalTokens : Nat
  deriving DecidableEq, Repr

inductive SessionError where
  | alreadyExists (sessionId : String)
  | notFound (sessionId : String)
  | sessionNotActive (sessionId : String)
  | io (message : String)
  deriving DecidableEq, Repr

namespace SessionRecord

def new (id userId agentId : String) (now : Nat) : SessionRecord :=
  ⟨1, id, userId, agentId, now, now, .active, [], none, 0⟩

/-- The index of the turn is assigned here, whatever the caller put into it. -/
def appendTurn (s : SessionRecord) (turn : ConversationTurn) : Except SessionError SessionRecord :=
  if s.status ≠ .active then .error (.sessionNotActive s.id)
  else .ok { s with
    totalTokens := satAdd 32 s.totalTokens turn.tokens
    lastActiveNs := turn.timestampNs
    turns := s.turns ++ [{ turn with index := s.turns.length }] }

def archive (s : SessionRecord) (summary : Option String) : Except SessionError SessionRecord :=
  if s.status ≠ .active then .error (.sessionNotActive s.id)
  else .ok { s with
    status := .archived
    summary := if summary.isSome then summary else s.summary }

def delete (s : SessionRecord) : SessionRecord := { s with status := .deleted }

end SessionRecord

structure StoreFile where
  schemaVersion : Nat
  sessions : KeyedMap String SessionRecord
  deriving DecidableEq, Repr

/-- The store in memory and the file behind its path, if it has one. -/
structure SessionStore where
  sessions : KeyedMap String SessionRecord
  path : Option String
  file : Option StoreFile
  deriving DecidableEq, Repr

abbrev Result := Except SessionError Unit

/-- `io` is what the file system answers to the write and the rename. -/
def flush (s : SessionStore) (io : Except String Unit) : SessionStore × Result :=
  match s.path with
  | none => (s, .ok ())
  | some _ =>
    match io with
    | .ok () => ({ s with file := some ⟨1, s.sessions⟩ }, .ok ())
    | .error e => (s, .error (.io e))

def insert (s : SessionStore) (session : SessionRecord) : SessionStore × Result :=
  match s.sessions.get session.id with
  | some _ => (s, .error (.alreadyExists session.id))
  | none => ({ s with sessions := s.sessions.insert session.id session }, .ok ())

/-- The look-up, the edit of the session found and the flush that the three mutators share. -/
def editSession (s : SessionStore) (sessionId : String)
    (edit : SessionRecord → Except SessionError SessionRecord) (io : Except String Unit) :
    SessionStore × Result :=
  match s.sessions.get sessionId with
  | none => (s, .error (.notFound sessionId))
  | some session =>
    match edit session with
    | .error e => (s, .error e)
    | .ok session => flush { s with sessions := s.sessions.insert sessionId session } io

def appendTurn (s : SessionStore) (sessionId : String) (turn : ConversationTurn)
    (io : Except String Unit) : SessionStore × Result :=
  editSession s sessionId (fun session => session.appendTurn turn) io

def archive (s : SessionStore) (sessionId : String) (summary : Option String)
    (io : Except String Unit) : SessionStore × Result :=
  editSession s sessionId (fun session => session.archive summary) io

def delete (s : SessionStore) (sessionId : String) (io : Except String Unit) :
    SessionStore × Result :=
  editSession s sessionId (fun session => .ok session.delete) io

/-! ## Runs -/

inductive StoreOp where
  | insertNew (id userId agentId : String) (now : Nat)
  | appendTurn (sessionId : String) (turn : ConversationTurn) (io : Except String Unit)
  | archive (sessionId : String) (summary : Option String) (io : Except String Unit)
  | delete (sessionId : String) (io : Except String Unit)

def step (s : SessionStore) : StoreOp → SessionStore × Result
  | .insertNew id userId agentId now => insert s (.new id userId agentId now)
  | .appendTurn sessionId turn io => appendTurn s sessionId turn io
  | .archive sessionId summary io => archive s sessionId summary io
  | .delete sessionId io => delete s sessionId io

def SameSessions (s t : SessionStore) : Prop :=
  ∀ sessionId, s.sessions.get sessionId = t.sessions.get sessionId

/-- A failed append leaves the sessions alone, and the same append with a working disk
then records the turn as if it had been the only one. -/
structure AtomicAppend (s : SessionStore) (sessionId : String) (turn : ConversationTurn)
    (io : Except String Unit) : Prop where
  unchanged : ∀ e, (appendTurn s sessionId turn io).2 = .error e →
    SameSessions (appendTurn s sessionId turn io).1 s
  retried : ∀ e, (appendTurn s sessionId turn io).2 = .error e →
    SameSessions (appendTurn (appendTurn s sessionId turn io).1 sessionId turn (.ok ())).1
      (appendTurn s sessionId turn (.ok ())).1

/-- Turns are numbered from zero and the total is their saturating sum. -/
structure Counted (session : SessionRecord) : Prop where
  indices : session.turns.map ConversationTurn.index = List.range session.turns.length
  tokens : session.totalTokens =
    min (session.turns.map ConversationTurn.tokens).sum (maxOf 32)

def AllCounted (s : SessionStore) : Prop :=
  ∀ sessionId session, s.sessions.get sessionId = some session → Counted session

/-- What is asked of a run. -/
structure SessionsKept (start : SessionStore) (ops : List StoreOp) : Prop where
  atomic : ∀ pre sessionId turn io post, ops = pre ++ .appendTurn sessionId turn io :: post →
    AtomicAppend (final step start pre) sessionId turn io
  counted : AllCounted start → ∀ pre post, ops = pre ++ post → AllCounted (final step start pre)
  closed : ∀ pre middle post, ops = pre ++ middle ++ post → ∀ sessionId session,
    (final step start pre).sessions.get sessionId = some session → session.status ≠ .active →
      ∃ later, (final step start (pre ++ middle)).sessions.get sessionId = some later ∧
        later.turns = session.turns

/-- No append to an active session of a store with a file has its write fail. -/
def NoFailedAppend (start : SessionStore) (ops : List StoreOp) : Prop :=
  ∀ pre sessionId turn io post, ops = pre ++ .appendTurn sessionId turn io :: post →
    start.path ≠ none →
    (∃ session, (final step start pre).sessions.get sessionId = some session ∧
      session.status = .active) →
    io = .ok ()

/-! ## One call -/

theorem flush_sessions (s : SessionStore) (io : Except String Unit) :
    (flush s io).1.sessions = s.sessions := by
  cases path : s.path <;> cases io <;> simp [flush, path]

theorem flush_path (s : SessionStore) (io : Except String Unit) :
    (flush s io).1.path = s.path := by
  cases path : s.path <;> cases io <;> simp [flush, path]

/-- A call edits the one session it names, or leaves the store alone. -/
theorem editSession_cases (s : SessionStore) (sessionId : String)
    (edit : SessionRecord → Except SessionError SessionRecord) (io : Except String Unit) :
    (editSession s sessionId edit io).1 = s ∨
      ∃ session edited, s.sessions.get sessionId = some session ∧ edit session = .ok edited ∧
        editSession s sessionId edit io =
          flush { s with sessions := s.sessions.insert sessionId edited } io := by
  cases found : s.sessions.get sessionId with
  | none => exact .inl (by simp [editSession, found])
  | some session =>
    cases answer : edit session with
    | error e => exact .inl (by simp [editSession, found, answer])
    | ok edited => exact .inr ⟨session, edited, rfl, answer, by simp [editSession, found, answer]⟩

theorem editSession_path (s : SessionStore) (sessionId : String)
    (edit : SessionRecord → Except SessionError SessionRecord) (io : Except String Unit) :
    (editSession s sessionId edit io).1.path = s.path := by
  rcases editSession_cases s sessionId edit io with same | ⟨session, edited, -, -, called⟩
  · rw [same]
  · rw [called, flush_path]

theorem step_path (s : SessionStore) (op : StoreOp) : (step s op).1.path = s.path := by
  cases op with
  | insertNew id userId agentId now =>
    simp only [step, insert]
    split <;> rfl
  | appendTurn sessionId turn io => exact editSession_path s sessionId _ io
  | archive sessionId summary io => exact editSession_path s sessionId _ io
  | delete sessionId io => exact editSession_path s sessionId _ io

theorem final_path (start : SessionStore) (ops : List StoreOp) :
    (final step start ops).path = start.path := by
  induction ops using List.reverseRecOn with
  | nil => rfl
  | append_singleton pre op ih => rw [final_snoc, step_path, ih]

/-- A session after a call: new, or the one before with at most one edit. -/
inductive Edited : SessionRecord → SessionRecord → Prop
  | same (session : SessionRecord) : Edited session session
  | append {session edited : SessionRecord} (turn : ConversationTurn)
      (answer : session.appendTurn turn = .ok edited) : Edited session edited
  | archive {session edited : SessionRecord} (summary : Option String)
      (answer : session.archive summary = .ok edited) : Edited session edited
  | delete (session : SessionRecord) : Edited session session.delete

theorem get_editSession {s : SessionStore} {sessionId : String}
    {edit : SessionRecord → Except SessionError SessionRecord} {io : Except String Unit}
    (edits : ∀ session edited, edit session = .ok edited → Edited session edited)
    (key : String) : Option.Rel Edited (s.sessions.get key)
      ((editSession s sessionId edit io).1.sessions.get key) := by
  have unedited : Option.Rel Edited (s.sessions.get key) (s.sessions.get key) := by
    cases s.sessions.get key with
    | none => exact .none
    | some session => exact .some (.same session)
  rcases editSession_cases s sessionId edit io with same | ⟨session, edited, found, answer, called⟩
  · rw [same]
    exact unedited
  · rw [called, flush_sessions, KeyedMap.get_insert]
    split
    · rename_i named
      rw [named, found]
      exact .some (edits session edited answer)
    · exact unedited

theorem get_step (s : SessionStore) (op : StoreOp) (key : String) :
    Option.Rel Edited (s.sessions.get key) ((step s op).1.sessions.get key) ∨
      (s.sessions.get key = none ∧ ∃ id userId agentId now,
        (step s op).1.sessions.get key = some (.new id userId agentId now)) := by
  cases op with
  | insertNew id userId agentId now =>
    simp only [step, insert]
    cases present : s.sessions.get (SessionRecord.new id userId agentId now).id with
    | some other =>
      refine .inl ?_
      cases s.sessions.get key with
      | none => exact .none
      | some session => exact .some (.same session)
    | none =>
      by_cases named : key = (SessionRecord.new id userId agentId now).id
      · refine .inr ⟨named ▸ present, id, userId, agentId, now, ?_⟩
        rw [named]
        exact KeyedMap.get_insert_self _ _ _
      · refine .inl ?_
        simp only [KeyedMap.get_insert_other named]
        cases s.sessions.get key with
        | none => exact .none
        | some session => exact .some (.same session)
  | appendTurn sessionId turn io =>
    exact .inl (get_editSession (fun _ _ answer => .append turn answer) key)
  | archive sessionId summary io =>
    exact .inl (get_editSession (fun _ _ answer => .archive summary answer) key)
  | delete sessionId io =>
    refine .inl (get_editSession (fun session edited answer => ?_) key)
    cases answer
    exact .delete session

/-! ## Numbering -/

theorem Counted.new (id userId agentId : String) (now : Nat) :
    Counted (.new id userId agentId now) := ⟨rfl, rfl⟩

theorem appendTurn_ok {session edited : SessionRecord} {turn : ConversationTurn}
    (answer : session.appendTurn turn = .ok edited) :
    session.status = .active ∧ edited = { session with
      totalTokens := satAdd 32 session.totalTokens turn.tokens
      lastActiveNs := turn.timestampNs
      turns := session.turns ++ [{ turn with index := session.turns.length }] } := by
  simp only [SessionRecord.appendTurn] at answer
  split at answer
  · cases answer
  · rename_i active
    cases answer
    exact ⟨not_not.mp active, rfl⟩

theorem archive_ok {session edited : SessionRecord} {summary : Option String}
    (answer : session.archive summary = .ok edited) :
    session.status = .active ∧ edited.status = .archived ∧ edited.turns = session.turns ∧
      edited.totalTokens = session.totalTokens := by
  simp only [SessionRecord.archive] at answer
  split at answer
  · cases answer
  · rename_i active
    cases answer
    exact ⟨not_not.mp active, rfl, rfl, rfl⟩

theorem Counted.edited {session later : SessionRecord} (counted : Counted session)
    (edited : Edited session later) : Counted later := by
  cases edited with
  | same => exact counted
  | append turn answer =>
    obtain ⟨-, rfl⟩ := appendTurn_ok answer
    constructor
    · simp [counted.indices, List.range_succ]
    · simp only [counted.tokens, satAdd, List.map_append, List.sum_append, List.map_singleton,
        List.sum_singleton]
      omega
  | archive summary answer =>
    obtain ⟨-, -, turns, tokens⟩ := archive_ok answer
    constructor
    · rw [turns]
      exact counted.indices
    · rw [turns, tokens]
      exact counted.tokens
  | delete => exact ⟨counted.indices, counted.tokens⟩

theorem Edited.closed {session later : SessionRecord} (edited : Edited session later)
    (closed : session.status ≠ .active) : later.turns = session.turns ∧ later.status ≠ .active := by
  cases edited with
  | same => exact ⟨rfl, closed⟩
  | append turn answer => exact absurd (appendTurn_ok answer).1 closed
  | archive summary answer => exact absurd (archive_ok answer).1 closed
  | delete => exact ⟨rfl, nofun⟩

theorem AllCounted.afterStep {s : SessionStore} (counted : AllCounted s) (op : StoreOp) :
    AllCounted (step s op).1 := by
  intro key later found
  rcases get_step s op key with related | ⟨-, id, userId, agentId, now, new⟩
  · rw [found] at related
    cases before : s.sessions.get key with
    | none =>
      rw [before] at related
      cases related
    | some session =>
      rw [before] at related
      cases related with
      | some edited => exact (counted key session before).edited edited
  · rw [found] at new
    cases new
    exact Counted.new id userId agentId now

/-- In every run the turns stay numbered and the total their saturating sum. -/
theorem AllCounted.afterRun {start : SessionStore} (counted : AllCounted start)
    (ops : List StoreOp) : AllCounted (final step start ops) := by
  have keeps : ∀ s op, AllCounted s → AllCounted (step s op).1 :=
    fun _ op counted => counted.afterStep op
  exact final_invariant keeps counted ops

theorem closed_step {s : SessionStore} {key : String} {session : SessionRecord}
    (found : s.sessions.get key = some session) (closed : session.status ≠ .active)
    (op : StoreOp) : ∃ later, (step s op).1.sessions.get key = some later ∧
      later.turns = session.turns ∧ later.status ≠ .active := by
  rcases get_step s op key with related | ⟨absent, -⟩
  · rw [found] at related
    cases after : (step s op).1.sessions.get key with
    | none =>
      rw [after] at related
      cases related
    | some later =>
      rw [after] at related
      cases related with
      | some edited => exact ⟨later, rfl, edited.closed closed⟩
  · rw [found] at absent
    cases absent

theorem closed_run {s : SessionStore} {key : String} {session : SessionRecord}
    (found : s.sessions.get key = some session) (closed : session.status ≠ .active)
    (ops : List StoreOp) : ∃ later, (final step s ops).sessions.get key = some later ∧
      later.turns = session.turns ∧ later.status ≠ .active := by
  induction ops using List.reverseRecOn with
  | nil => exact ⟨session, found, rfl, closed⟩
  | append_singleton pre op ih =>
    obtain ⟨middle, present, turns, still⟩ := ih
    obtain ⟨later, after, same, last⟩ := closed_step present still op
    rw [final_snoc]
    exact ⟨later, after, same.trans turns, last⟩

/-! ## Atomicity -/

theorem SessionRecord.appendTurn_active {session : SessionRecord}
    (active : session.status = .active) (turn : ConversationTurn) :
    session.appendTurn turn = .ok { session with
      totalTokens := satAdd 32 session.totalTokens turn.tokens
      lastActiveNs := turn.timestampNs
      turns := session.turns ++ [{ turn with index := session.turns.length }] } := by
  simp [SessionRecord.appendTurn, active]

/-- An append that does not find an active session leaves the store as it is. -/
theorem appendTurn_inactive {s : SessionStore} {sessionId : String}
    (inactive : ¬ ∃ session, s.sessions.get sessionId = some session ∧ session.status = .active)
    (turn : ConversationTurn) (io : Except String Unit) :
    (appendTurn s sessionId turn io).1 = s := by
  rcases editSession_cases s sessionId (fun session => session.appendTurn turn) io with
    same | ⟨session, edited, found, answer, -⟩
  · exact same
  · exact absurd ⟨session, found, (appendTurn_ok answer).1⟩ inactive

theorem appendTurn_failed {s : SessionStore} {sessionId : String}
    {session : SessionRecord} (found : s.sessions.get sessionId = some session)
    (active : session.status = .active) (backed : s.path ≠ none) (turn : ConversationTurn)
    (message : String) : (appendTurn s sessionId turn (.error message)).2 = .error (.io message) ∧
      ((appendTurn s sessionId turn (.error message)).1.sessions.get sessionId).map
          SessionRecord.turns =
        some (session.turns ++ [{ turn with index := session.turns.length }]) := by
  obtain ⟨path, backed⟩ := Option.ne_none_iff_exists'.mp backed
  simp [appendTurn, editSession, found, SessionRecord.appendTurn_active active, flush, backed]

theorem appendTurn_works {s : SessionStore} {sessionId : String} {session : SessionRecord}
    (found : s.sessions.get sessionId = some session) (active : session.status = .active)
    (turn : ConversationTurn) {io : Except String Unit} (works : s.path ≠ none → io = .ok ()) :
    (appendTurn s sessionId turn io).2 = .ok () := by
  cases path : s.path with
  | none =>
    simp [appendTurn, editSession, found, SessionRecord.appendTurn_active active, flush, path]
  | some file =>
    have written := works (by simp [path])
    simp [appendTurn, editSession, found, SessionRecord.appendTurn_active active, flush, path,
      written]

theorem atomicAppend_iff (s : SessionStore) (sessionId : String) (turn : ConversationTurn)
    (io : Except String Unit) : AtomicAppend s sessionId turn io ↔
      (s.path ≠ none →
        (∃ session, s.sessions.get sessionId = some session ∧ session.status = .active) →
        io = .ok ()) := by
  constructor
  · rintro atomic backed ⟨session, found, active⟩
    cases io with
    | ok done => rfl
    | error message =>
      obtain ⟨failed, grown⟩ := appendTurn_failed found active backed turn message
      have same := atomic.unchanged _ failed sessionId
      rw [same, found] at grown
      simp at grown
  · intro works
    by_cases active : ∃ session, s.sessions.get sessionId = some session ∧ session.status = .active
    · obtain ⟨session, found, ongoing⟩ := active
      have succeeds := appendTurn_works found ongoing turn fun backed =>
        works backed ⟨session, found, ongoing⟩
      constructor <;> intro e failed <;> rw [succeeds] at failed <;> cases failed
    · constructor
      · intro e _ key
        rw [appendTurn_inactive active]
      · intro e _ key
        rw [appendTurn_inactive active]

/-- A run keeps its sessions exactly when no append to an active session has its write fail. -/
theorem sessions_kept_iff (start : SessionStore) (ops : List StoreOp) :
    SessionsKept start ops ↔ NoFailedAppend start ops := by
  constructor
  · intro kept pre sessionId turn io post split backed
    have atomic := kept.atomic pre sessionId turn io post split
    rw [← final_path start pre] at backed
    exact (atomicAppend_iff _ sessionId turn io).mp atomic backed
  · intro works
    refine ⟨?_, ?_, ?_⟩
    · intro pre sessionId turn io post split
      refine (atomicAppend_iff _ sessionId turn io).mpr ?_
      rw [final_path]
      exact works pre sessionId turn io post split
    · intro counted pre post _
      exact counted.afterRun pre
    · intro pre middle post _ sessionId session found closed
      obtain ⟨later, after, turns, -⟩ := closed_run found closed middle
      rw [final_append]
      exact ⟨later, after, turns⟩

def fresh : SessionStore :=
  final step ⟨KeyedMap.empty, some "sessions.json", none⟩ [.insertNew "sess-1" "user" "agent" 1]

def greeting : ConversationTurn := ⟨0, .user, "hello", [], 2, 3⟩

/-- The turn stays after the failed write, and retrying records it a second time. -/
theorem failed_append_repeated :
    ¬ SessionsKept fresh [.appendTurn "sess-1" greeting (.error "disk full")] ∧
      (appendTurn fresh "sess-1" greeting (.error "disk full")).2 = .error (.io "disk full") ∧
      ((appendTurn (appendTurn fresh "sess-1" greeting (.error "disk full")).1 "sess-1" greeting
        (.ok ())).1.sessions.get "sess-1").map (fun s => s.turns.map ConversationTurn.content) =
          some ["hello", "hello"] := by
  refine ⟨fun kept => ?_, by decide, by decide⟩
  have same := (kept.atomic [] "sess-1" greeting _ [] rfl).unchanged (.io "disk full")
    (by decide) "sess-1"
  exact absurd same (by decide)

end Sessions
