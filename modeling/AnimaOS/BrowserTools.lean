import Mathlib
import AnimaOS.WebSearch

/-!
# The browser tools over the live driver

Each tool screens its URL and hands it to the driver, which screens it again and
has a worker load it. The worker follows redirects: `navigate` screens where it
ended, `read_text` and `extract` do not.
-/

namespace BrowserTools

open EgressDispatch EgressGuard TextSplit ToolRegistry
open WebSearch (asArray)

/-! ## The driver and its worker -/

structure Command where
  command : Text
  url : Text
  selector : Option Text
  deriving DecidableEq, Repr

structure PageState where
  url : Text
  title : Text
  text : Text
  deriving DecidableEq, Repr

structure PlaywrightDriver where
  egressGuard : Guard

def asBool : Value → Option Bool
  | .bool b => some b
  | _ => none

/-- The text under a field of the worker's answer. -/
def field (result : Value) (key : String) : Option Text := (result.get key.toList).bind Value.asStr

section

variable (toLowercase debug : Text → Text) (worker : Command → Except Text Value)

/-- The command a worker is started with, and its result; `worker` is a whole exchange. -/
def PlaywrightDriver.runCommand (d : PlaywrightDriver) (c : Command) :
    Option Command × Except Text Value :=
  match checkUrl toLowercase d.egressGuard c.url with
  | .deny reason => (none, .error ("egress-blocked: ".toList ++ description debug reason))
  | .allow =>
    match worker c with
    | .error e => (some c, .error e)
    | .ok resp =>
      if (resp.get "ok".toList).bind asBool = some true then
        (some c, .ok ((resp.get "result".toList).getD .null))
      else (some c, .error ((field resp "error").getD "browser: worker reported failure".toList))

def screenRedirectTarget (guard : Guard) (finalUrl : Text) : Except Text Unit :=
  match checkUrl toLowercase guard finalUrl with
  | .deny reason =>
    .error ("egress-blocked (post-redirect): ".toList ++ description debug reason)
  | .allow => .ok ()

def pageOf (guard : Guard) (url : Text) (result : Value) : Except Text PageState :=
  let finalUrl := (field result "url").getD url
  match screenRedirectTarget toLowercase debug guard finalUrl with
  | .error e => .error e
  | .ok () => .ok ⟨finalUrl, (field result "title").getD [], (field result "text").getD []⟩

def textOf (result : Value) : Except Text Text :=
  .ok (((field result "text").or result.asStr).getD [])

def itemsOf (result : Value) : Except Text (List Text) :=
  match (asArray result).or ((result.get "items".toList).bind asArray) with
  | none => .error "browser: extract result is not an array".toList
  | some items => .ok (items.filterMap Value.asStr)

/-- The `?` of the driver's calls: a failed command ends the call. -/
def andThen {T U : Type} (ran : Option Command × Except Text T) (next : T → Except Text U) :
    Option Command × Except Text U :=
  (ran.1, match ran.2 with
    | .error e => .error e
    | .ok result => next result)

def PlaywrightDriver.navigate (d : PlaywrightDriver) (url : Text) :
    Option Command × Except Text PageState :=
  andThen (d.runCommand toLowercase debug worker ⟨"navigate".toList, url, none⟩)
    (pageOf toLowercase debug d.egressGuard url)

def PlaywrightDriver.readText (d : PlaywrightDriver) (url : Text) :
    Option Command × Except Text Text :=
  andThen (d.runCommand toLowercase debug worker ⟨"read_text".toList, url, none⟩) textOf

def PlaywrightDriver.extract (d : PlaywrightDriver) (url selector : Text) :
    Option Command × Except Text (List Text) :=
  andThen (d.runCommand toLowercase debug worker ⟨"extract".toList, url, some selector⟩) itemsOf

/-! ## The tools -/

def blank (text : Text) : Bool := (trimWhitespace text).isEmpty

/-- What the tools share: the URL is screened, and an error of the driver ends the call. -/
def screened {T : Type} (guard : Guard) (url : Text) (ran : Option Command × Except Text T) :
    Option Command × Except ToolInvocationError T :=
  match checkUrl toLowercase guard url with
  | .deny reason =>
    (none, .error (.executionFailed
      (String.ofList ("egress-blocked: ".toList ++ description debug reason))))
  | .allow =>
    (ran.1, match ran.2 with
      | .error e => .error (.executionFailed (String.ofList e))
      | .ok result => .ok result)

/-- A request is what the payload was read as: the URL, for `extract` with its selector. -/
def browserNavigate (guard : Guard) (d : PlaywrightDriver) (request : Option Text) :
    Option Command × Except ToolInvocationError PageState :=
  match request with
  | none => (none, .error .invalidPayload)
  | some url =>
    if blank url then (none, .error .invalidPayload)
    else screened toLowercase debug guard url (d.navigate toLowercase debug worker url)

def browserReadText (guard : Guard) (d : PlaywrightDriver) (request : Option Text) :
    Option Command × Except ToolInvocationError Text :=
  match request with
  | none => (none, .error .invalidPayload)
  | some url =>
    if blank url then (none, .error .invalidPayload)
    else screened toLowercase debug guard url (d.readText toLowercase debug worker url)

def browserExtract (guard : Guard) (d : PlaywrightDriver) (request : Option (Text × Text)) :
    Option Command × Except ToolInvocationError (List Text) :=
  match request with
  | none => (none, .error .invalidPayload)
  | some (url, selector) =>
    if blank url || blank selector then (none, .error .invalidPayload)
    else screened toLowercase debug guard url (d.extract toLowercase debug worker url selector)

/-! ## What is loaded and what is handed on -/

variable {toLowercase debug worker}

/-- A command is about this URL, and both guards allow it. -/
def Allowed (toLowercase : Text → Text) (guard : Guard) (d : PlaywrightDriver) (url : Text)
    (sent : Option Command) : Prop :=
  ∀ c ∈ sent, c.url = url ∧ checkUrl toLowercase guard url = .allow ∧
    checkUrl toLowercase d.egressGuard url = .allow

theorem runCommand_sent (d : PlaywrightDriver) (c : Command) :
    ∀ sent ∈ (d.runCommand toLowercase debug worker c).1,
      sent = c ∧ checkUrl toLowercase d.egressGuard c.url = .allow := by
  intro sent started
  unfold PlaywrightDriver.runCommand at started
  cases allowed : checkUrl toLowercase d.egressGuard c.url with
  | deny reason =>
    rw [allowed] at started
    cases started
  | allow =>
    rw [allowed] at started
    refine ⟨?_, rfl⟩
    cases answered : worker c with
    | error e =>
      rw [answered] at started
      exact (Option.mem_some_iff.mp started).symm
    | ok resp =>
      simp only [answered] at started
      split at started
      · exact (Option.mem_some_iff.mp started).symm
      · exact (Option.mem_some_iff.mp started).symm

theorem screened_allowed {T : Type} (guard : Guard) (d : PlaywrightDriver) (c : Command)
    (next : Value → Except Text T) :
    Allowed toLowercase guard d c.url
      (screened toLowercase debug guard c.url
        (andThen (d.runCommand toLowercase debug worker c) next)).1 := by
  intro sent started
  unfold screened at started
  cases allowed : checkUrl toLowercase guard c.url with
  | deny reason =>
    rw [allowed] at started
    cases started
  | allow =>
    rw [allowed] at started
    obtain ⟨rfl, driver⟩ := runCommand_sent d c sent started
    exact ⟨rfl, rfl, driver⟩

theorem screened_ok {T : Type} {guard : Guard} {url : Text}
    {ran : Option Command × Except Text T} {result : T}
    (ended : (screened toLowercase debug guard url ran).2 = .ok result) : ran.2 = .ok result := by
  unfold screened at ended
  split at ended
  · cases ended
  split at ended
  · cases ended
  next found => rw [found, Except.ok.inj ended]

theorem pageOf_screened {guard : Guard} {url : Text} {result : Value} {page : PageState}
    (read : pageOf toLowercase debug guard url result = .ok page) :
    page.url = (field result "url").getD url ∧ checkUrl toLowercase guard page.url = .allow := by
  simp only [pageOf, screenRedirectTarget] at read
  cases allowed : checkUrl toLowercase guard ((field result "url").getD url) with
  | deny reason =>
    rw [allowed] at read
    cases read
  | allow =>
    rw [allowed] at read
    rw [← Except.ok.inj read]
    exact ⟨rfl, allowed⟩

theorem navigate_screened {d : PlaywrightDriver} {url : Text} {page : PageState}
    (loaded : (d.navigate toLowercase debug worker url).2 = .ok page) :
    checkUrl toLowercase d.egressGuard page.url = .allow := by
  simp only [PlaywrightDriver.navigate, andThen] at loaded
  split at loaded
  · cases loaded
  · exact (pageOf_screened loaded).2

/-- The worker answers the command with this result, whatever else it says. -/
def Answered (worker : Command → Except Text Value) (c : Command) (result : Value) : Prop :=
  ∃ resp, worker c = .ok resp ∧ (resp.get "ok".toList).bind asBool = some true ∧
    (resp.get "result".toList).getD .null = result

theorem Answered.runCommand {d : PlaywrightDriver} {c : Command} {result : Value}
    (answered : Answered worker c result)
    (allowed : checkUrl toLowercase d.egressGuard c.url = .allow) :
    d.runCommand toLowercase debug worker c = (some c, .ok result) := by
  obtain ⟨resp, answer, fine, rfl⟩ := answered
  unfold PlaywrightDriver.runCommand
  simp only [allowed, answer]
  rw [if_pos fine]

theorem screened_answered {T : Type} {guard : Guard} {d : PlaywrightDriver} {c : Command}
    {result : Value} {next : Value → Except Text T} {given : T}
    (tool : checkUrl toLowercase guard c.url = .allow)
    (driver : checkUrl toLowercase d.egressGuard c.url = .allow)
    (answered : Answered worker c result) (read : next result = .ok given) :
    (screened toLowercase debug guard c.url
      (andThen (d.runCommand toLowercase debug worker c) next)).2 = .ok given := by
  simp only [screened, tool, andThen, answered.runCommand driver, read]

variable (toLowercase debug worker)

/-- A worker is only ever sent to a URL that the tool's guard and the driver's allow, and a page
comes from `navigate` only if the driver's guard allows where it ended. What `read_text` and
`extract` hand on comes from wherever the worker ended: it is read off the answer, whatever URL
that gives. -/
theorem browser_fetches_screened (guard : Guard) (d : PlaywrightDriver) :
    (∀ url selector,
      Allowed toLowercase guard d url (browserNavigate toLowercase debug worker guard d url).1 ∧
      Allowed toLowercase guard d url (browserReadText toLowercase debug worker guard d url).1 ∧
      Allowed toLowercase guard d url
        (browserExtract toLowercase debug worker guard d (some (url, selector))).1) ∧
    (∀ request page,
      (browserNavigate toLowercase debug worker guard d request).2 = .ok page →
        checkUrl toLowercase d.egressGuard page.url = .allow) ∧
    ∀ url, blank url = false → checkUrl toLowercase guard url = .allow →
      checkUrl toLowercase d.egressGuard url = .allow →
      (∀ result ended, Answered worker ⟨"navigate".toList, url, none⟩ result →
        field result "url" = some ended → checkUrl toLowercase d.egressGuard ended ≠ .allow →
        ∃ e, (browserNavigate toLowercase debug worker guard d url).2 = .error e) ∧
      (∀ result, Answered worker ⟨"read_text".toList, url, none⟩ result →
        (browserReadText toLowercase debug worker guard d url).2 =
          .ok (((field result "text").or result.asStr).getD [])) ∧
      ∀ selector result items, blank selector = false →
        Answered worker ⟨"extract".toList, url, some selector⟩ result →
        (asArray result).or ((result.get "items".toList).bind asArray) = some items →
        (browserExtract toLowercase debug worker guard d (some (url, selector))).2 =
          .ok (items.filterMap Value.asStr) := by
  refine ⟨fun url selector => ⟨?_, ?_, ?_⟩, ?_, fun url solid tool driver => ⟨?_, ?_, ?_⟩⟩
  · simp only [browserNavigate]
    split
    · exact nofun
    · exact screened_allowed guard d ⟨"navigate".toList, url, none⟩ _
  · simp only [browserReadText]
    split
    · exact nofun
    · exact screened_allowed guard d ⟨"read_text".toList, url, none⟩ _
  · simp only [browserExtract]
    split
    · exact nofun
    · exact screened_allowed guard d ⟨"extract".toList, url, some selector⟩ _
  · intro request page loaded
    unfold browserNavigate at loaded
    split at loaded
    · cases loaded
    split at loaded
    · cases loaded
    · exact navigate_screened (screened_ok loaded)
  · intro result ended answered final denied
    cases loaded : (browserNavigate toLowercase debug worker guard d url).2 with
    | error e => exact ⟨e, rfl⟩
    | ok page =>
      simp only [browserNavigate, solid] at loaded
      have read := screened_ok loaded
      simp only [PlaywrightDriver.navigate, andThen, answered.runCommand driver] at read
      obtain ⟨here, allowed⟩ := pageOf_screened read
      rw [here, final] at allowed
      exact absurd allowed denied
  · intro result answered
    simp only [browserReadText, solid]
    exact screened_answered tool driver answered rfl
  · intro selector result items solid' answered listed
    simp only [browserExtract, solid, solid']
    refine screened_answered tool driver answered ?_
    simp only [itemsOf, listed]

/-- A worker that is always led to the metadata address. -/
def redirectedWorker (c : Command) : Except Text Value :=
  .ok (.object [("id".toList, .string c.command), ("ok".toList, .bool true),
    ("result".toList, .object [("url".toList, .string "http://169.254.169.254/".toList),
      ("text".toList, .string "key".toList)])])

theorem redirected_text_read :
    let url := "https://example.org/".toList
    (∃ e, (browserNavigate toAsciiLowercase id redirectedWorker .default ⟨.default⟩ url).2 =
      .error e) ∧
    (browserReadText toAsciiLowercase id redirectedWorker .default ⟨.default⟩ url).2 =
      .ok "key".toList := by
  intro url
  obtain ⟨navigates, reads, -⟩ := (browser_fetches_screened toAsciiLowercase id redirectedWorker
    .default ⟨.default⟩).2.2 url (by decide) (by decide) (by decide)
  exact ⟨navigates _ _ ⟨_, rfl, rfl, rfl⟩ rfl (by decide), reads _ ⟨_, rfl, rfl, rfl⟩⟩

end

end BrowserTools
