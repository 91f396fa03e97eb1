import AnimaOS.WebhookRegistry

/-!
# Failed writes of the webhook registry

`register`, `remove` and `set_enabled` edit the endpoints in memory and then flush
them to the file. A registry stands here beside its file, which a flush that fails
leaves alone, and can be reopened from it at any point.
-/

namespace WebhookAtomicity

open WebhookRegistry

/-- A registry and what is found at its path. -/
structure OnDisk where
  registry : Registry
  file : StoredFile
  deriving DecidableEq, Repr

inductive Call where
  | register (endpoint : WebhookEndpoint)
  | remove (id : String)
  | setEnabled (id : String) (enabled : Bool)
  deriving DecidableEq, Repr

/-- What a call returns, with the endpoint that `remove` hands back. -/
abbrev Answer := Except RegistryError (Option WebhookEndpoint)

def apply (r : Registry) (written : Except String Unit) : Call → Registry × Answer
  | .register endpoint =>
    ((register r endpoint written).1, (register r endpoint written).2.map fun _ => none)
  | .remove id => ((remove r id written).1, (remove r id written).2.map some)
  | .setEnabled id enabled =>
    ((setEnabled r id enabled written).1, (setEnabled r id enabled written).2.map fun _ => none)

/-- A call returns `Ok` through its flush, which then has replaced the file. -/
def fileAfter (file : StoredFile) (r : Registry) (answer : Answer) : StoredFile :=
  match answer, r.path with
  | .ok _, some _ => .store r.endpoints
  | _, _ => file

def call (disk : OnDisk) (c : Call) (written : Except String Unit) : OnDisk × Answer :=
  (⟨(apply disk.registry written c).1,
    fileAfter disk.file (apply disk.registry written c).1 (apply disk.registry written c).2⟩,
    (apply disk.registry written c).2)

/-- A registry in memory has nothing to be reopened from. -/
def reopen (disk : OnDisk) : OnDisk × Answer :=
  match disk.registry.path with
  | none => (disk, .ok none)
  | some path =>
    match openRegistry path disk.file with
    | .ok r => ({ disk with registry := r }, .ok none)
    | .error e => (disk, .error e)

inductive Op where
  | call (c : Call) (written : Except String Unit)
  | reopen

def step (disk : OnDisk) : Op → OnDisk × Answer
  | .call c written => call disk c written
  | .reopen => reopen disk

def run (disk : OnDisk) (ops : List Op) : OnDisk :=
  ops.foldl (fun disk op => (step disk op).1) disk

def answers : OnDisk → List Op → List Answer
  | _, [] => []
  | disk, op :: ops => (step disk op).2 :: answers (step disk op).1 ops

/-! ## What a call edits -/

/-- The call passes its checks and changes an endpoint. -/
def Edits (r : Registry) : Call → Prop
  | .register endpoint =>
    validateWebhookUrl endpoint.url = .ok () ∧ r.endpoints.get endpoint.id = none
  | .remove id => r.endpoints.get id ≠ none
  | .setEnabled id enabled => ∃ ep, r.endpoints.get id = some ep ∧ ep.enabled ≠ enabled

/-- The flush of a registry with a file fails. -/
def FlushFails (r : Registry) (written : Except String Unit) : Prop :=
  ∃ path msg, r.path = some path ∧ written = .error msg

/-- A call that is refused before it edits anything. -/
def Refused (r : Registry) (c : Call) : Prop :=
  (∃ e, ∀ written, apply r written c = (r, .error e)) ∧ ¬ Edits r c

/-- A call that sets the endpoints and then answers as its flush does. -/
def Flushed (r : Registry) (c : Call) : Prop :=
  ∃ endpoints answer,
    (∀ written, apply r written c =
      ({ r with endpoints := endpoints }, (flush r written).map fun _ => answer)) ∧
    ((∀ id, endpoints.get id = r.endpoints.get id) ↔ ¬ Edits r c)

theorem register_cases (r : Registry) (endpoint : WebhookEndpoint) :
    Refused r (.register endpoint) ∨ Flushed r (.register endpoint) := by
  cases valid : validateWebhookUrl endpoint.url with
  | error e =>
    refine .inl ⟨⟨e, fun written => ?_⟩, ?_⟩
    · simp only [apply, register, valid]
      rfl
    · intro edits
      rw [edits.1] at valid
      cases valid
  | ok accepted =>
    cases present : r.endpoints.get endpoint.id with
    | some ep =>
      refine .inl ⟨⟨.alreadyExists endpoint.id, fun written => ?_⟩, ?_⟩
      · simp only [apply, register, valid, present]
        rfl
      · intro edits
        rw [edits.2] at present
        cases present
    | none =>
      refine .inr ⟨r.endpoints.insert endpoint.id endpoint, none, fun written => ?_, ?_⟩
      · simp only [apply, register, valid, present]
        rfl
      · refine iff_of_false ?_ (not_not_intro ⟨valid, present⟩)
        intro same
        have here := same endpoint.id
        rw [KeyedMap.get_insert_self, present] at here
        cases here

theorem remove_cases (r : Registry) (id : String) :
    Refused r (.remove id) ∨ Flushed r (.remove id) := by
  cases present : r.endpoints.get id with
  | none =>
    refine .inl ⟨⟨.notFound id, fun written => ?_⟩, ?_⟩
    · simp only [apply, remove, present]
      rfl
    · exact fun edits => edits present
  | some ep =>
    refine .inr ⟨r.endpoints.remove id, some ep, fun written => ?_, ?_⟩
    · simp only [apply, remove, present]
      have flushed : flush { r with endpoints := r.endpoints.remove id } written =
          flush r written := rfl
      rw [flushed]
      cases flush r written with
      | error e => rfl
      | ok _ => rfl
    · refine iff_of_false ?_ (not_not_intro ?_)
      · intro same
        have here := same id
        rw [KeyedMap.get_remove_self, present] at here
        cases here
      · intro absent
        rw [absent] at present
        cases present

theorem setEnabled_cases (r : Registry) (id : String) (enabled : Bool) :
    Refused r (.setEnabled id enabled) ∨ Flushed r (.setEnabled id enabled) := by
  cases present : r.endpoints.get id with
  | none =>
    refine .inl ⟨⟨.notFound id, fun written => ?_⟩, ?_⟩
    · simp only [apply, setEnabled, present]
      rfl
    · rintro ⟨ep, found, _⟩
      rw [found] at present
      cases present
  | some ep =>
    refine .inr ⟨r.endpoints.insert id { ep with enabled := enabled }, none, fun written => ?_, ?_⟩
    · simp only [apply, setEnabled, present]
      rfl
    · constructor
      · rintro same ⟨found, listed, differs⟩
        have here := same id
        rw [KeyedMap.get_insert_self, listed] at here
        exact differs (congrArg WebhookEndpoint.enabled (Option.some.inj here)).symm
      · intro unedited key
        have kept : ep.enabled = enabled := by
          by_contra differs
          exact unedited ⟨ep, present, differs⟩
        rw [KeyedMap.get_insert]
        split
        · rename_i here
          rw [here, present, ← kept]
        · rfl

theorem apply_cases (r : Registry) (c : Call) : Refused r c ∨ Flushed r c := by
  cases c with
  | register endpoint => exact register_cases r endpoint
  | remove id => exact remove_cases r id
  | setEnabled id enabled => exact setEnabled_cases r id enabled

theorem flush_error {r : Registry} {written : Except String Unit} (fails : FlushFails r written) :
    ∃ msg, flush r written = .error (.io msg) := by
  obtain ⟨path, msg, stored, rfl⟩ := fails
  refine ⟨msg, ?_⟩
  rw [flush, stored]
  rfl

theorem flush_ok {r : Registry} {written : Except String Unit} (works : ¬ FlushFails r written) :
    flush r written = .ok () := by
  cases stored : r.path with
  | none => rw [flush, stored]
  | some path =>
    cases written with
    | error msg => exact absurd ⟨path, msg, stored, rfl⟩ works
    | ok _ =>
      rw [flush, stored]
      rfl

/-! ## States that cannot be told apart -/

/-- Endpoints are kept without an order. -/
def SameEndpoints (m m' : KeyedMap String WebhookEndpoint) : Prop := ∀ id, m.get id = m'.get id

def SameFile : StoredFile → StoredFile → Prop
  | .missing, .missing => True
  | .unreadable msg, .unreadable msg' => msg = msg'
  | .store endpoints, .store endpoints' => SameEndpoints endpoints endpoints'
  | _, _ => False

structure Alike (disk other : OnDisk) : Prop where
  endpoints : SameEndpoints disk.registry.endpoints other.registry.endpoints
  path : disk.registry.path = other.registry.path
  file : SameFile disk.file other.file

theorem sameFile_refl (file : StoredFile) : SameFile file file := by
  cases file with
  | missing => trivial
  | unreadable msg => rfl
  | store endpoints => exact fun _ => rfl

theorem sameEndpoints_insert {m m' : KeyedMap String WebhookEndpoint} (same : SameEndpoints m m')
    (id : String) (ep : WebhookEndpoint) : SameEndpoints (m.insert id ep) (m'.insert id ep) := by
  intro key
  rw [KeyedMap.get_insert, KeyedMap.get_insert, same key]

theorem sameEndpoints_remove {m m' : KeyedMap String WebhookEndpoint} (same : SameEndpoints m m')
    (id : String) : SameEndpoints (m.remove id) (m'.remove id) := by
  intro key
  rw [KeyedMap.get_remove, KeyedMap.get_remove, same key]

theorem sameEndpoints_loaded {m m' : KeyedMap String WebhookEndpoint} (same : SameEndpoints m m') :
    SameEndpoints (loaded m) (loaded m') := by
  intro key
  rw [loaded, loaded, KeyedMap.get_retain, KeyedMap.get_retain, same key]

theorem apply_same {m m' : KeyedMap String WebhookEndpoint} (same : SameEndpoints m m')
    (path : Option String) (written : Except String Unit) (c : Call) :
    (apply ⟨m, path⟩ written c).2 = (apply ⟨m', path⟩ written c).2 ∧
      SameEndpoints (apply ⟨m, path⟩ written c).1.endpoints
        (apply ⟨m', path⟩ written c).1.endpoints ∧
      (apply ⟨m, path⟩ written c).1.path = (apply ⟨m', path⟩ written c).1.path := by
  cases c with
  | register endpoint =>
    simp only [apply, register, same endpoint.id]
    cases validateWebhookUrl endpoint.url with
    | error e => exact ⟨rfl, same, rfl⟩
    | ok _ =>
      cases m'.get endpoint.id with
      | some _ => exact ⟨rfl, same, rfl⟩
      | none => exact ⟨rfl, sameEndpoints_insert same _ _, rfl⟩
  | remove id =>
    simp only [apply, remove, same id]
    cases m'.get id with
    | none => exact ⟨rfl, same, rfl⟩
    | some _ => exact ⟨rfl, sameEndpoints_remove same _, rfl⟩
  | setEnabled id enabled =>
    simp only [apply, setEnabled, same id]
    cases m'.get id with
    | none => exact ⟨rfl, same, rfl⟩
    | some _ => exact ⟨rfl, sameEndpoints_insert same _ _, rfl⟩

theorem sameFile_after {file file' : StoredFile} {r r' : Registry} (files : SameFile file file')
    (same : SameEndpoints r.endpoints r'.endpoints) (path : r.path = r'.path) (answer : Answer) :
    SameFile (fileAfter file r answer) (fileAfter file' r' answer) := by
  unfold fileAfter
  rw [path]
  cases answer with
  | error e => exact files
  | ok found =>
    cases r'.path with
    | none => exact files
    | some _ => exact same

theorem step_alike {disk other : OnDisk} (alike : Alike disk other) (op : Op) :
    (step disk op).2 = (step other op).2 ∧ Alike (step disk op).1 (step other op).1 := by
  obtain ⟨⟨m, path⟩, file⟩ := disk
  obtain ⟨⟨m', path'⟩, file'⟩ := other
  obtain ⟨same, paths, files⟩ := alike
  cases paths
  cases op with
  | call c written =>
    obtain ⟨answer, endpoints, kept⟩ := apply_same same path written c
    refine ⟨answer, endpoints, kept, ?_⟩
    simp only [step, call, answer]
    exact sameFile_after files endpoints kept _
  | reopen =>
    cases path with
    | none => exact ⟨rfl, same, rfl, files⟩
    | some path =>
      cases file with
      | missing =>
        cases file' with
        | missing => exact ⟨rfl, fun _ => rfl, rfl, files⟩
        | unreadable msg => cases files
        | store endpoints => cases files
      | unreadable msg =>
        cases file' with
        | missing => cases files
        | unreadable msg' =>
          cases (show msg = msg' from files)
          exact ⟨rfl, same, rfl, rfl⟩
        | store endpoints => cases files
      | store endpoints =>
        cases file' with
        | missing => cases files
        | unreadable msg => cases files
        | store endpoints' => exact ⟨rfl, sameEndpoints_loaded files, rfl, files⟩

theorem run_alike {disk other : OnDisk} (alike : Alike disk other) (ops : List Op) :
    answers disk ops = answers other ops ∧ Alike (run disk ops) (run other ops) := by
  induction ops generalizing disk other with
  | nil => exact ⟨rfl, alike⟩
  | cons op ops ih =>
    obtain ⟨answer, next⟩ := step_alike alike op
    obtain ⟨later, last⟩ := ih next
    exact ⟨congrArg₂ List.cons answer later, last⟩

/-! ## Calls that fail -/

/-- After a call that returned an error everything goes on as if it had not been made:
the endpoints are those before it, now and after whatever is done next, and a retry
and all other calls and reopenings answer as they would have. -/
def Undone (disk after : OnDisk) : Prop :=
  ∀ later, answers after later = answers disk later ∧
    SameEndpoints (run after later).registry.endpoints (run disk later).registry.endpoints

/-- Along a run every call that returns an error is undone. -/
def FailuresUndone : OnDisk → List Op → Prop
  | _, [] => True
  | disk, op :: ops =>
    (∀ c written e, op = .call c written → (call disk c written).2 = .error e →
      Undone disk (call disk c written).1) ∧
    FailuresUndone (step disk op).1 ops

/-- Along a run no write fails after a call has changed an endpoint. -/
def EditsWritten : OnDisk → List Op → Prop
  | _, [] => True
  | disk, op :: ops =>
    (∀ c written, op = .call c written → Edits disk.registry c →
      ¬ FlushFails disk.registry written) ∧
    EditsWritten (step disk op).1 ops

theorem call_undone_iff (disk : OnDisk) (c : Call) (written : Except String Unit) :
    (∀ e, (call disk c written).2 = .error e → Undone disk (call disk c written).1) ↔
      (Edits disk.registry c → ¬ FlushFails disk.registry written) := by
  obtain ⟨⟨e, refused⟩, unedited⟩ | ⟨endpoints, answer, edited, same⟩ :=
    apply_cases disk.registry c
  · refine iff_of_true ?_ fun edits => absurd edits unedited
    intro _ _
    have kept : (call disk c written).1 = disk := by
      simp only [call, refused]
      rfl
    rw [kept]
    exact fun later => ⟨rfl, fun _ => rfl⟩
  · have result : (call disk c written).2 = (flush disk.registry written).map fun _ => answer := by
      simp only [call, edited]
    constructor
    · intro undone edits fails
      obtain ⟨msg, flushed⟩ := flush_error fails
      rw [flushed] at result
      have now := (undone (.io msg) result []).2
      refine (mt same.mp (not_not_intro edits)) fun id => ?_
      have here := now id
      simp only [run, List.foldl_nil, call, edited] at here
      exact here
    · intro works e failed
      have fails : FlushFails disk.registry written := by
        by_contra ok
        rw [result, flush_ok ok] at failed
        cases failed
      have unedited : ¬ Edits disk.registry c := fun edits => works edits fails
      obtain ⟨msg, flushed⟩ := flush_error fails
      have alike : Alike (call disk c written).1 disk := by
        constructor
        · simp only [call, edited]
          exact same.mpr unedited
        · simp only [call, edited]
        · simp only [call, edited, flushed]
          exact sameFile_refl disk.file
      intro later
      obtain ⟨answered, last⟩ := run_alike alike later
      exact ⟨answered, last.endpoints⟩

/-- Failed calls are undone along a run exactly when no write fails behind an edit. -/
theorem failures_undone_iff (disk : OnDisk) (ops : List Op) :
    FailuresUndone disk ops ↔ EditsWritten disk ops := by
  induction ops generalizing disk with
  | nil => exact Iff.rfl
  | cons op ops ih =>
    refine and_congr ?_ (ih (step disk op).1)
    constructor
    · intro undone c written called
      exact (call_undone_iff disk c written).mp fun e => undone c written e called
    · intro works c written e called failed
      exact (call_undone_iff disk c written).mpr (works c written called) e failed

def hook : WebhookEndpoint := ⟨"wh-1", "https://example.com/hook".toList, .all, true⟩

def firstUse : OnDisk := ⟨⟨.empty, some "webhook_endpoints.json"⟩, .missing⟩

theorem hook_valid : validateWebhookUrl hook.url = .ok () := by rfl

/-- A registration reported as failed is delivered to all the same. -/
theorem failed_registration_delivered :
    (call firstUse (.register hook) (.error "No space left on device")).2 =
        .error (.io "No space left on device") ∧
      endpointsForEvent (call firstUse (.register hook)
        (.error "No space left on device")).1.registry "task_completed" = [hook] ∧
      ¬ FailuresUndone firstUse [.call (.register hook) (.error "No space left on device")] := by
  have registered : apply firstUse.registry (.error "No space left on device") (.register hook) =
      (⟨KeyedMap.empty.insert "wh-1" hook, some "webhook_endpoints.json"⟩,
        .error (.io "No space left on device")) := by
    simp only [apply, register, hook_valid]
    rfl
  refine ⟨congrArg Prod.snd registered, ?_, ?_⟩
  · simp only [call, registered]
    rfl
  · intro undone
    have now := (undone.1 _ _ _ rfl (congrArg Prod.snd registered) []).2 "wh-1"
    simp only [run, List.foldl_nil, call, registered] at now
    cases now

end WebhookAtomicity
