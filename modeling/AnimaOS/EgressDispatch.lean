import AnimaOS.EgressGuard
import Mathlib.Data.List.Infix

/-!
# Egress-aware tool dispatch

The dispatcher screens the URL it finds in a network tool's arguments and then
calls the inner dispatcher. The JSON reader, Unicode lowercasing and the debug
form of a text are parameters.
-/

namespace EgressDispatch

open EgressGuard TextSplit

/-- A JSON value; the keys of an object are distinct. -/
inductive Value where
  | null
  | bool (b : Bool)
  | number (literal : Text)
  | string (text : Text)
  | array (items : List Value)
  | object (fields : List (Text × Value))

def Value.get : Value → Text → Option Value
  | .object fields, key => fields.lookup key
  | _, _ => none

def Value.asStr : Value → Option Text
  | .string text => some text
  | _ => none

inductive AuditEntry where
  | egressRequested (toolId url : Text)
  | egressBlocked (toolId url reason : Text)
  deriving DecidableEq, Repr

def networkToolIds : List Text :=
  ["web-search", "browser", "navigate", "browse", "extract"].map String.toList

structure Dispatcher where
  egressGuard : Guard
  networkToolIds : List Text

def Dispatcher.new (guard : Guard) : Dispatcher := ⟨guard, EgressDispatch.networkToolIds⟩

/-- What a call leaves: the audit buffer, the calls of the inner dispatcher and the response. -/
structure Dispatched where
  auditBuffer : List AuditEntry
  innerCalls : List (Text × Text)
  response : Except Text Text

section

variable (fromStr : Text → Option Value) (toLowercase debug : Text → Text)

def description : EgressDenialReason → Text
  | .forbiddenScheme scheme =>
    "forbidden scheme ".toList ++ debug scheme ++ ": only https is permitted".toList
  | .ssrfPrivateAddress address =>
    "SSRF protection: ".toList ++ debug address ++ " is a private/loopback address".toList
  | .blocklistedHost host => "host ".toList ++ debug host ++ " is on the egress blocklist".toList
  | .hostNotAllowed host => "host ".toList ++ debug host ++ " is not on the egress allow-list".toList

def sensitive : List Text :=
  ["key", "token", "secret", "auth", "password", "api"].map String.toList

def isSensitive (text : Text) : Bool := sensitive.any fun pat => pat <:+: toLowercase text

def redactPair (pair : Text) : Text :=
  match splitOnce ['='] pair with
  | some (k, v) =>
    if isSensitive toLowercase k || isSensitive toLowercase v then k ++ "=[REDACTED]".toList
    else pair
  | none => pair

def redactUrl (url : Text) : Text :=
  if '?' ∉ url then url
  else
    let urlNoFrag := ((splitOnce ['#'] url).map Prod.fst).getD url
    match splitOnce ['?'] urlNoFrag with
    | none => urlNoFrag
    | some (base, query) =>
      base ++ '?' :: ['&'].intercalate ((query.splitOn '&').map (redactPair toLowercase))

def urlFields : List Text := ["url", "base_url", "href", "link", "navigate_to"].map String.toList

/-- The string under one field, where there is one. -/
def urlUnder (v : Value) (key : Text) : Option Text := (v.get key).bind Value.asStr

def extractUrlFromArgs (args : Text) : Option Text :=
  (fromStr args).bind fun v => urlFields.findSome? (urlUnder v)

def dispatch (d : Dispatcher) (inner : Text → Text → Except Text Text) (buf : List AuditEntry)
    (toolName args : Text) : Dispatched :=
  let forward := fun buf => Dispatched.mk buf [(toolName, args)] (inner toolName args)
  if toolName ∈ d.networkToolIds then
    match extractUrlFromArgs fromStr args with
    | some url =>
      match checkUrl toLowercase d.egressGuard url with
      | .allow => forward (buf ++ [.egressRequested toolName (redactUrl toLowercase url)])
      | .deny reason =>
        ⟨buf ++ [.egressBlocked toolName (redactUrl toLowercase url) (description debug reason)], [],
          .error ("egress-blocked: ".toList ++ description debug reason)⟩
    | none => forward (buf ++ [.egressRequested toolName "(url embedded in tool driver)".toList])
  else forward buf

/-! ## Every URL argument -/

/-- The strings under all recognised fields, in the order in which they are looked for. -/
def urlArguments (args : Text) : List Text :=
  match fromStr args with
  | some v => urlFields.filterMap (urlUnder v)
  | none => []

theorem extractUrlFromArgs_eq (args : Text) :
    extractUrlFromArgs fromStr args = (urlArguments fromStr args).head? := by
  rw [extractUrlFromArgs, urlArguments]
  cases fromStr args with
  | none => rfl
  | some v => exact List.head?_filterMap.symm

/-- The call ends at the guard: a network tool whose first URL is denied. -/
def Blocked (d : Dispatcher) (toolName args : Text) : Prop :=
  toolName ∈ d.networkToolIds ∧
    ∃ url, (urlArguments fromStr args).head? = some url ∧
      (checkUrl toLowercase d.egressGuard url).isDenied = true

theorem dispatch_forwards (d : Dispatcher) (inner : Text → Text → Except Text Text)
    (buf : List AuditEntry) (toolName args : Text) :
    (dispatch fromStr toLowercase debug d inner buf toolName args).innerCalls =
        [(toolName, args)] ∧ ¬ Blocked fromStr toLowercase d toolName args ∨
      (dispatch fromStr toLowercase debug d inner buf toolName args).innerCalls = [] ∧
        Blocked fromStr toLowercase d toolName args := by
  rw [dispatch, extractUrlFromArgs_eq]
  by_cases network : toolName ∈ d.networkToolIds
  · rw [if_pos network]
    cases first : (urlArguments fromStr args).head? with
    | none =>
      refine .inl ⟨rfl, ?_⟩
      rintro ⟨-, url, found, -⟩
      cases first.symm.trans found
    | some url =>
      dsimp only
      cases verdict : checkUrl toLowercase d.egressGuard url with
      | allow =>
        refine .inl ⟨rfl, ?_⟩
        rintro ⟨-, url', found, denied⟩
        cases first.symm.trans found
        rw [verdict] at denied
        cases denied
      | deny reason => exact .inr ⟨rfl, network, url, first, by rw [verdict]; rfl⟩
  · rw [if_neg network]
    exact .inl ⟨rfl, fun blocked => network blocked.1⟩

/-- Every screened call leaves one audit entry, any other call none. -/
theorem dispatch_audited (d : Dispatcher) (inner : Text → Text → Except Text Text)
    (buf : List AuditEntry) (toolName args : Text) :
    (dispatch fromStr toLowercase debug d inner buf toolName args).auditBuffer.length =
      buf.length + if toolName ∈ d.networkToolIds then 1 else 0 := by
  rw [dispatch]
  split
  · split
    · split
      · exact List.length_append
      · exact List.length_append
    · exact List.length_append
  · rfl

/-- The inner dispatcher is reached only with allowed URLs, exactly when all of them are allowed or
the first one is denied to a network tool. -/
theorem reached_urls_allowed_iff (d : Dispatcher) (inner : Text → Text → Except Text Text)
    (buf : List AuditEntry) (toolName args : Text) :
    ((dispatch fromStr toLowercase debug d inner buf toolName args).innerCalls ≠ [] →
        ∀ url ∈ urlArguments fromStr args,
          (checkUrl toLowercase d.egressGuard url).isAllowed = true) ↔
      (∀ url ∈ urlArguments fromStr args,
          (checkUrl toLowercase d.egressGuard url).isAllowed = true) ∨
        toolName ∈ d.networkToolIds ∧
          ∃ url, (urlArguments fromStr args).head? = some url ∧
            (checkUrl toLowercase d.egressGuard url).isDenied = true := by
  rcases dispatch_forwards fromStr toLowercase debug d inner buf toolName args with
    ⟨reached, through⟩ | ⟨stopped, blocked⟩
  · constructor
    · exact fun screened => .inl (screened (by rw [reached]; exact List.cons_ne_nil _ _))
    · rintro (allowed | blocked)
      · exact fun _ => allowed
      · exact absurd blocked through
  · constructor
    · exact fun _ => .inr blocked
    · exact fun _ reached => absurd stopped reached

end

def secondUrlArgs : Text :=
  "\x7b\"navigate_to\":\"https://169.254.169.254/\",\"url\":\"https://example.com/\"\x7d".toList

/-- Reads those arguments and nothing else. -/
def readSecondUrl (args : Text) : Option Value :=
  if args = secondUrlArgs then
    some (.object [("navigate_to".toList, .string "https://169.254.169.254/".toList),
      ("url".toList, .string "https://example.com/".toList)])
  else none

theorem second_url_unscreened :
    (dispatch readSecondUrl toAsciiLowercase id (.new .default) (fun _ _ => .ok []) []
        "navigate".toList secondUrlArgs).innerCalls = [("navigate".toList, secondUrlArgs)] ∧
      "https://169.254.169.254/".toList ∈ urlArguments readSecondUrl secondUrlArgs ∧
      (checkUrl toAsciiLowercase .default "https://169.254.169.254/".toList).isDenied = true := by
  refine ⟨?_, ?_, ?_⟩
  · rfl
  · decide
  · decide

end EgressDispatch
