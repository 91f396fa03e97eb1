import AnimaOS.KeyedMap
import AnimaOS.MotorGate

/-!
# The registry of webhook endpoints

The registry vets the URL of every endpoint that is registered or loaded. Its
URL functions are those of the motor gate, word for word.
-/

namespace WebhookRegistry

open MotorGate TextSplit

/-! ## Vetting a URL -/

inductive RegistryError where
  | alreadyExists (id : String)
  | notFound (id : String)
  | invalidUrl (msg : String)
  | io (msg : String)
  deriving DecidableEq, Repr

def RegistryError.message : RegistryError → String
  | .alreadyExists id => "endpoint '" ++ id ++ "' already exists"
  | .notFound id => "endpoint '" ++ id ++ "' not found"
  | .invalidUrl msg => "invalid webhook URL: " ++ msg
  | .io msg => "I/O error: " ++ msg

def webhookHost (url : Text) : Text := extractHost url

def hostIsSsrfUnsafe (host : Text) : Bool := isPrivateOrMetadataHost host

def validateWebhookUrl (url : Text) : Except RegistryError Unit :=
  match splitOnce "://".toList url with
  | none => .error (.invalidUrl "missing scheme")
  | some (scheme, _) =>
    if scheme ≠ "https".toList ∧ scheme ≠ "http".toList then
      .error (.invalidUrl ("unsupported scheme '" ++ String.ofList scheme ++ "'"))
    else
      let host := webhookHost url
      if host.isEmpty then .error (.invalidUrl "URL has no host")
      else if hostIsSsrfUnsafe host then
        .error (.invalidUrl
          ("host '" ++ String.ofList host ++ "' is loopback/private/link-local/metadata"))
      else .ok ()

/-! ## Endpoints -/

inductive EventFilter where
  | all
  | selected (kinds : List String)
  deriving DecidableEq, Repr

def EventFilter.matches : EventFilter → String → Bool
  | .all, _ => true
  | .selected kinds, kind => kinds.contains kind

structure WebhookEndpoint where
  id : String
  url : Text
  filter : EventFilter
  enabled : Bool
  deriving DecidableEq, Repr

/-- A registry in memory has no path and nothing to flush. -/
structure Registry where
  endpoints : KeyedMap String WebhookEndpoint
  path : Option String
  deriving DecidableEq, Repr

def inMemory : Registry := ⟨.empty, none⟩

/-- What is found at the path of a registry that is opened. -/
inductive StoredFile where
  | missing
  | unreadable (msg : String)
  | store (endpoints : KeyedMap String WebhookEndpoint)
  deriving DecidableEq, Repr

def loaded (endpoints : KeyedMap String WebhookEndpoint) : KeyedMap String WebhookEndpoint :=
  endpoints.retain fun _ ep => (validateWebhookUrl ep.url).isOk

def openRegistry (path : String) : StoredFile → Except RegistryError Registry
  | .missing => .ok ⟨loaded .empty, some path⟩
  | .unreadable msg => .error (.io msg)
  | .store endpoints => .ok ⟨loaded endpoints, some path⟩

/-- `written` is what became of the write to the file. -/
def flush (r : Registry) (written : Except String Unit) : Except RegistryError Unit :=
  match r.path with
  | none => .ok ()
  | some _ => written.mapError .io

def register (r : Registry) (endpoint : WebhookEndpoint) (written : Except String Unit) :
    Registry × Except RegistryError Unit :=
  match validateWebhookUrl endpoint.url with
  | .error e => (r, .error e)
  | .ok () =>
    match r.endpoints.get endpoint.id with
    | some _ => (r, .error (.alreadyExists endpoint.id))
    | none =>
      let r := { r with endpoints := r.endpoints.insert endpoint.id endpoint }
      (r, flush r written)

def remove (r : Registry) (id : String) (written : Except String Unit) :
    Registry × Except RegistryError WebhookEndpoint :=
  match r.endpoints.get id with
  | none => (r, .error (.notFound id))
  | some ep =>
    let r := { r with endpoints := r.endpoints.remove id }
    (r, (flush r written).map fun _ => ep)

def setEnabled (r : Registry) (id : String) (enabled : Bool) (written : Except String Unit) :
    Registry × Except RegistryError Unit :=
  match r.endpoints.get id with
  | none => (r, .error (.notFound id))
  | some ep =>
    let r := { r with endpoints := r.endpoints.insert id { ep with enabled := enabled } }
    (r, flush r written)

def endpointsForEvent (r : Registry) (kind : String) : List WebhookEndpoint :=
  r.endpoints.values.filter fun ep => ep.enabled && ep.filter.matches kind

/-! ## Runs -/

inductive RegistryOp where
  | register (endpoint : WebhookEndpoint) (written : Except String Unit)
  | remove (id : String) (written : Except String Unit)
  | setEnabled (id : String) (enabled : Bool) (written : Except String Unit)
  | openRegistry (path : String) (file : StoredFile)

/-- A registry that could not be opened leaves the one in use. -/
def registryStep (r : Registry) : RegistryOp → Registry
  | .register endpoint written => (register r endpoint written).1
  | .remove id written => (remove r id written).1
  | .setEnabled id enabled written => (setEnabled r id enabled written).1
  | .openRegistry path file => (openRegistry path file).toOption.getD r

def registry (ops : List RegistryOp) : Registry := ops.foldl registryStep inMemory

/-! ## The URLs in the registry -/

/-- The URLs that an operation hands to the registry. -/
def Offers : RegistryOp → Text → Prop
  | .register endpoint _, url => endpoint.url = url
  | .openRegistry _ (.store endpoints), url => ∃ id ep, endpoints.get id = some ep ∧ ep.url = url
  | _, _ => False

/-- Every endpoint has a URL that was vetted and that one of the operations offered. -/
def Vetted (ops : List RegistryOp) (r : Registry) : Prop :=
  ∀ id ep, r.endpoints.get id = some ep →
    validateWebhookUrl ep.url = .ok () ∧ ∃ op ∈ ops, Offers op ep.url

theorem isOk_unit {ε : Type} {answer : Except ε Unit} (ok : answer.isOk = true) :
    answer = .ok () := by
  cases answer with
  | error e => cases ok
  | ok _ => rfl

theorem get_loaded {endpoints : KeyedMap String WebhookEndpoint} {id : String} {ep : WebhookEndpoint}
    (found : (loaded endpoints).get id = some ep) :
    endpoints.get id = some ep ∧ validateWebhookUrl ep.url = .ok () := by
  rw [loaded, KeyedMap.get_retain, Option.filter_eq_some_iff] at found
  exact ⟨found.1, isOk_unit found.2⟩

theorem Vetted.append {ops : List RegistryOp} {r : Registry} (vetted : Vetted ops r)
    (op : RegistryOp) : Vetted (ops ++ [op]) r := by
  intro id ep found
  obtain ⟨valid, offer, listed, offers⟩ := vetted id ep found
  exact ⟨valid, offer, List.mem_append_left _ listed, offers⟩

theorem vetted_step {ops : List RegistryOp} {r : Registry} (vetted : Vetted ops r)
    (op : RegistryOp) : Vetted (ops ++ [op]) (registryStep r op) := by
  have last : op ∈ ops ++ [op] := by simp
  have before := vetted.append op
  cases op with
  | register endpoint written =>
    simp only [registryStep, register]
    cases valid : validateWebhookUrl endpoint.url with
    | error e => exact before
    | ok accepted =>
      cases r.endpoints.get endpoint.id with
      | some _ => exact before
      | none =>
        intro id ep found
        rw [KeyedMap.get_insert] at found
        split at found
        · cases found
          exact ⟨valid, _, last, rfl⟩
        · exact before id ep found
  | remove removed written =>
    simp only [registryStep, remove]
    cases r.endpoints.get removed with
    | none => exact before
    | some _ => exact fun id ep found => before id ep (KeyedMap.get_of_remove found)
  | setEnabled changed enabled written =>
    simp only [registryStep, setEnabled]
    cases present : r.endpoints.get changed with
    | none => exact before
    | some old =>
      intro id ep found
      rw [KeyedMap.get_insert] at found
      split at found
      · cases found
        exact before changed old present
      · exact before id ep found
  | openRegistry path file =>
    cases file with
    | missing =>
      intro id ep found
      cases (get_loaded found).1
    | unreadable msg => exact before
    | store endpoints =>
      intro id ep found
      obtain ⟨listed, valid⟩ := get_loaded found
      exact ⟨valid, _, last, id, ep, listed, rfl⟩

theorem vetted_registry (ops : List RegistryOp) : Vetted ops (registry ops) := by
  induction ops using List.reverseRecOn with
  | nil =>
    intro id ep found
    cases found
  | append_singleton ops op ih =>
    rw [registry, List.foldl_append]
    exact vetted_step ih op

/-- Whatever event endpoints are asked for, their URLs were vetted. -/
theorem endpointsForEvent_vetted {ops : List RegistryOp} {kind : String} {ep : WebhookEndpoint}
    (listed : ep ∈ endpointsForEvent (registry ops) kind) :
    validateWebhookUrl ep.url = .ok () ∧ ∃ op ∈ ops, Offers op ep.url := by
  obtain ⟨id, found⟩ := KeyedMap.mem_values_get.mp (List.mem_filter.mp listed).1
  exact vetted_registry ops id ep found

end WebhookRegistry
