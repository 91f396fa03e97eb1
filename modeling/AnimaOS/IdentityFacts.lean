import AnimaOS.KeyedMap
import AnimaOS.Machine
import Mathlib.Data.List.Induction

/-!
# Identity facts

A fact is set in memory, flushed to the file and then recorded in the audit log. The
three copies are compared in every state of a run in which any flush may fail.
-/

namespace IdentityFacts

open Machine

universe u

abbrev FactMap := KeyedMap String String

/-- The sections beside the facts are a parameter. -/
structure IdentityDocument (S : Type u) where
  sections : S
  facts : FactMap

inductive IdentityError where
  | io (message : String)
  | parseError (message : String)
  deriving DecidableEq, Repr

structure IdentityUpdated where
  agentId : String
  key : String
  oldValue : Option String
  newValue : String
  deriving DecidableEq, Repr

/-- Paths are compared by their components. -/
structure IdentityMemory (S : Type u) where
  path : List String
  document : IdentityDocument S

def inMemoryPath : List String := [":memory:"]

/-- The answers of the file system to one flush. -/
structure FlushIo where
  createDirAll : Except String Unit
  write : Except String Unit
  rename : Except String Unit

def FlushIo.answer (io : FlushIo) : Except String Unit := do
  io.createDirAll
  io.write
  io.rename

structure SetFact where
  key : String
  value : String
  agentId : String
  io : FlushIo

/-- The store, the document in its file, and the entries the audit log was given. -/
structure World (S : Type u) where
  memory : IdentityMemory S
  file : Option (IdentityDocument S)
  log : List IdentityUpdated

section Runs

variable {S : Type u}

/-- The file is replaced by a rename, so a flush that fails leaves it as it was. -/
def flush (m : IdentityMemory S) (file : Option (IdentityDocument S)) (io : FlushIo) :
    Option (IdentityDocument S) × Except IdentityError Unit :=
  if m.path = inMemoryPath then (file, .ok ())
  else
    match io.answer with
    | .error e => (file, .error (.io e))
    | .ok () => (some m.document, .ok ())

def IdentityMemory.facts (m : IdentityMemory S) : FactMap := m.document.facts

def IdentityMemory.insert (m : IdentityMemory S) (key value : String) : IdentityMemory S :=
  { m with document := { m.document with facts := m.document.facts.insert key value } }

def setFact (w : World S) (call : SetFact) : World S × Except IdentityError Unit :=
  let oldValue := w.memory.facts.get call.key
  let memory := w.memory.insert call.key call.value
  match flush memory w.file call.io with
  | (file, .error e) => (⟨memory, file, w.log⟩, .error e)
  | (file, .ok ()) =>
    (⟨memory, file, w.log ++ [⟨call.agentId, call.key, oldValue, call.value⟩]⟩, .ok ())

/-- A store as it is opened; only one with a file has the document there. -/
def opened (path : List String) (document : IdentityDocument S) : World S :=
  ⟨⟨path, document⟩, if path = inMemoryPath then none else some document, []⟩

def replay (initial : FactMap) (log : List IdentityUpdated) : FactMap :=
  log.foldl (fun facts entry => facts.insert entry.key entry.newValue) initial

/-- Maps are equal when every key has the same value. -/
def SameFacts (a b : FactMap) : Prop := ∀ key, a.get key = b.get key

/-- The facts in memory and in the file are those of the audit trail. -/
structure Audited (initial : FactMap) (w : World S) : Prop where
  memory : SameFacts (replay initial w.log) w.memory.facts
  file : w.memory.path ≠ inMemoryPath →
    ∃ document, w.file = some document ∧ SameFacts (replay initial w.log) document.facts

/-- No call that fails changes a fact, and every state reached is audited. -/
structure AtomicRun (path : List String) (document : IdentityDocument S) (calls : List SetFact) :
    Prop where
  unchanged : ∀ c ∈ trace setFact (opened path document) calls, ∀ e, c.response = .error e →
    SameFacts (setFact c.before c.request).1.memory.facts c.before.memory.facts
  audited : ∀ pre, pre <+: calls → Audited document.facts (final setFact (opened path document) pre)

def insertAll (initial : FactMap) (calls : List SetFact) : FactMap :=
  calls.foldl (fun facts call => facts.insert call.key call.value) initial

/-- A flush only fails for a call that sets its key to the value the key was last set to. -/
def FailuresHarmless (path : List String) (initial : FactMap) (calls : List SetFact) : Prop :=
  path = inMemoryPath ∨
    ∀ pre call post, calls = pre ++ call :: post → (∃ e, call.io.answer = .error e) →
      (insertAll initial pre).get call.key = some call.value

/-! ## One call -/

@[simp] theorem insert_path (m : IdentityMemory S) (key value : String) :
    (m.insert key value).path = m.path := rfl

@[simp] theorem insert_facts (m : IdentityMemory S) (key value : String) :
    (m.insert key value).facts = m.facts.insert key value := rfl

theorem sameFacts_insert {m n : FactMap} (same : SameFacts m n) (key value : String) :
    SameFacts (m.insert key value) (n.insert key value) := by
  intro other
  simp only [KeyedMap.get_insert, same other]

theorem insert_present {m : FactMap} {key value : String} (present : m.get key = some value) :
    SameFacts (m.insert key value) m := by
  intro other
  rw [KeyedMap.get_insert]
  split
  · rename_i own
    rw [own, present]
  · rfl

theorem SameFacts.trans {a b c : FactMap} (first : SameFacts a b) (second : SameFacts b c) :
    SameFacts a c := fun key => (first key).trans (second key)

theorem SameFacts.symm {a b : FactMap} (same : SameFacts a b) : SameFacts b a :=
  fun key => (same key).symm

def recorded (w : World S) (call : SetFact) : List IdentityUpdated :=
  w.log ++ [⟨call.agentId, call.key, w.memory.facts.get call.key, call.value⟩]

/-- The fact stays in memory in any case; file and log follow a flush that succeeds. -/
theorem setFact_cases (w : World S) (call : SetFact) :
    (w.memory.path = inMemoryPath ∧
      setFact w call = (⟨w.memory.insert call.key call.value, w.file, recorded w call⟩, .ok ())) ∨
    (w.memory.path ≠ inMemoryPath ∧ ∃ e, call.io.answer = .error e ∧
      setFact w call = (⟨w.memory.insert call.key call.value, w.file, w.log⟩, .error (.io e))) ∨
    (w.memory.path ≠ inMemoryPath ∧ call.io.answer = .ok () ∧
      setFact w call = (⟨w.memory.insert call.key call.value,
        some (w.memory.insert call.key call.value).document, recorded w call⟩, .ok ())) := by
  by_cases ephemeral : w.memory.path = inMemoryPath
  · exact Or.inl ⟨ephemeral, by simp [setFact, flush, ephemeral, recorded]⟩
  · cases answered : call.io.answer with
    | error e =>
      exact Or.inr (Or.inl ⟨ephemeral, e, rfl, by simp [setFact, flush, ephemeral, answered]⟩)
    | ok =>
      exact Or.inr (Or.inr
        ⟨ephemeral, rfl, by simp [setFact, flush, ephemeral, answered, recorded]⟩)

theorem setFact_memory (w : World S) (call : SetFact) :
    (setFact w call).1.memory = w.memory.insert call.key call.value := by
  obtain ⟨-, step⟩ | ⟨-, e, -, step⟩ | ⟨-, -, step⟩ := setFact_cases w call <;> rw [step]

theorem setFact_fails {w : World S} {call : SetFact} {message : String}
    (durable : w.memory.path ≠ inMemoryPath) (answered : call.io.answer = .error message) :
    (setFact w call).2 = .error (.io message) := by
  obtain ⟨ephemeral, -⟩ | ⟨-, e, failed, step⟩ | ⟨-, fine, -⟩ := setFact_cases w call
  · exact absurd ephemeral durable
  · rw [answered] at failed
    cases failed
    rw [step]
  · rw [answered] at fine
    cases fine

theorem setFact_failed {w : World S} {call : SetFact} {e : IdentityError}
    (failed : (setFact w call).2 = .error e) :
    w.memory.path ≠ inMemoryPath ∧ ∃ message, call.io.answer = .error message := by
  obtain ⟨-, step⟩ | ⟨durable, message, answered, -⟩ | ⟨-, -, step⟩ := setFact_cases w call
  · rw [step] at failed
    cases failed
  · exact ⟨durable, message, answered⟩
  · rw [step] at failed
    cases failed

theorem replay_recorded (initial : FactMap) (w : World S) (call : SetFact) :
    replay initial (recorded w call) = (replay initial w.log).insert call.key call.value := by
  rw [recorded, replay, List.foldl_append]
  rfl

/-- A call keeps the trail exact unless its flush fails on a new value. -/
theorem setFact_audited {initial : FactMap} {w : World S} (h : Audited initial w) (call : SetFact)
    (harmless : w.memory.path ≠ inMemoryPath → (∃ e, call.io.answer = .error e) →
      w.memory.facts.get call.key = some call.value) : Audited initial (setFact w call).1 := by
  have grown := sameFacts_insert h.memory call.key call.value
  rw [← replay_recorded initial w call] at grown
  obtain ⟨ephemeral, step⟩ | ⟨durable, e, answered, step⟩ | ⟨durable, -, step⟩ :=
    setFact_cases w call
  · rw [step]
    exact ⟨grown, fun durable => absurd ephemeral durable⟩
  · rw [step]
    have kept := insert_present (harmless durable ⟨e, answered⟩)
    exact ⟨h.memory.trans kept.symm, h.file⟩
  · rw [step]
    exact ⟨grown, fun _ => ⟨_, rfl, grown⟩⟩

/-! ## Runs -/

theorem final_path (w : World S) (calls : List SetFact) :
    (final setFact w calls).memory.path = w.memory.path := by
  induction calls generalizing w with
  | nil => rfl
  | cons call rest ih => rw [final, ih, setFact_memory, insert_path]

/-- In memory the calls that fail count like the others. -/
theorem final_facts (w : World S) (calls : List SetFact) :
    (final setFact w calls).memory.facts = insertAll w.memory.facts calls := by
  induction calls generalizing w with
  | nil => rfl
  | cons call rest ih =>
    rw [final, ih, setFact_memory, insert_facts]
    rfl

variable {path : List String} {document : IdentityDocument S} {calls : List SetFact}

theorem opened_audited (path : List String) (document : IdentityDocument S) :
    Audited document.facts (opened path document) where
  memory := fun _ => rfl
  file := fun durable => ⟨document, if_neg durable, fun _ => rfl⟩

/-- The condition, said of the state that a call of the run meets. -/
theorem harmless_before (harmless : FailuresHarmless path document.facts calls)
    {pre post : List SetFact} {call : SetFact} (split : calls = pre ++ call :: post)
    (durable : path ≠ inMemoryPath) (fails : ∃ e, call.io.answer = .error e) :
    (final setFact (opened path document) pre).memory.facts.get call.key = some call.value := by
  rw [final_facts]
  exact (harmless.resolve_left durable) pre call post split fails

theorem run_audited (harmless : FailuresHarmless path document.facts calls) {pre : List SetFact}
    (reached : pre <+: calls) :
    Audited document.facts (final setFact (opened path document) pre) := by
  induction pre using List.reverseRecOn with
  | nil => exact opened_audited path document
  | append_singleton pre call ih =>
    obtain ⟨post, split⟩ := reached
    rw [List.append_assoc] at split
    rw [final_snoc]
    refine setFact_audited (ih ⟨_, split⟩) call fun durable fails => ?_
    rw [final_path] at durable
    exact harmless_before harmless split.symm durable fails

theorem run_unchanged (harmless : FailuresHarmless path document.facts calls)
    {c : Call (World S) SetFact (Except IdentityError Unit)}
    (called : c ∈ trace setFact (opened path document) calls) {e : IdentityError}
    (failed : c.response = .error e) :
    SameFacts (setFact c.before c.request).1.memory.facts c.before.memory.facts := by
  obtain ⟨pre, post, split, before, response⟩ := mem_trace called
  rw [response] at failed
  obtain ⟨durable, fails⟩ := setFact_failed failed
  rw [before, final_path] at durable
  rw [setFact_memory, insert_facts, before]
  exact insert_present (harmless_before harmless split durable fails)

/-- A failed call that leaves the facts alone set the value that was there. -/
theorem harmless_of_unchanged (atomic : AtomicRun path document calls) :
    FailuresHarmless path document.facts calls := by
  by_cases ephemeral : path = inMemoryPath
  · exact Or.inl ephemeral
  · right
    rintro pre call post rfl ⟨message, answered⟩
    have durable : (final setFact (opened path document) pre).memory.path ≠ inMemoryPath := by
      rw [final_path]
      exact ephemeral
    have failed := setFact_fails durable answered
    have called : ⟨final setFact (opened path document) pre, call,
        (setFact (final setFact (opened path document) pre) call).2⟩ ∈
          trace setFact (opened path document) (pre ++ call :: post) := by
      rw [trace_append]
      exact List.mem_append_right _ List.mem_cons_self
    have same := atomic.unchanged _ called _ failed call.key
    rw [setFact_memory, insert_facts, KeyedMap.get_insert_self, final_facts] at same
    exact same.symm

end Runs

/-- A run is atomic and audited exactly when no flush fails on a new value. -/
theorem atomicRun_iff {S : Type u} (path : List String) (document : IdentityDocument S)
    (calls : List SetFact) :
    AtomicRun path document calls ↔ FailuresHarmless path document.facts calls :=
  ⟨harmless_of_unchanged, fun harmless =>
    ⟨fun _ called _ failed => run_unchanged harmless called failed,
      fun _ reached => run_audited harmless reached⟩⟩

/-- A name that could not be saved is in memory, and the next call saves it without a record. -/
theorem failed_name_saved :
    ¬ AtomicRun ["identity.json"] ⟨(), .empty⟩
        [⟨"name", "Alice", "agent-1", ⟨.ok (), .ok (), .error "disk full"⟩⟩,
          ⟨"language", "en", "agent-1", ⟨.ok (), .ok (), .ok ()⟩⟩] := by
  intro atomic
  obtain ⟨document, saved, same⟩ := (atomic.audited _ (List.prefix_refl _)).file (by decide)
  have name := same "name"
  cases saved
  revert name
  decide

end IdentityFacts
