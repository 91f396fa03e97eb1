import AnimaOS.KeyedMap
import AnimaOS.TextSplit

/-!
# Throttling of failed authentications

The failure tracker of the console server and the way a connection goes through
it. Instants are nanoseconds of the monotonic clock.
-/

namespace AuthLimiter

open TextSplit

def maxAuthFailures : Nat := 5

def authFailureWindow : Nat := 60 * 1000000000

variable {IpAddr : Type} [DecidableEq IpAddr]

/-! ## The tracker -/

def prune (map : KeyedMap IpAddr (List Nat)) (ip : IpAddr) (now : Nat) :
    KeyedMap IpAddr (List Nat) :=
  match map.get ip with
  | none => map
  | some v =>
    let v := v.filter fun t => now - t < authFailureWindow
    if v.isEmpty then map.remove ip else map.insert ip v

def isLocked (map : KeyedMap IpAddr (List Nat)) (ip : IpAddr) (now : Nat) :
    KeyedMap IpAddr (List Nat) × Bool :=
  let map := prune map ip now
  (map, (map.get ip).any fun v => v.length ≥ maxAuthFailures)

/-- The answer is true only where the threshold is first reached. -/
def recordFailure (map : KeyedMap IpAddr (List Nat)) (ip : IpAddr) (now : Nat) :
    KeyedMap IpAddr (List Nat) × Bool :=
  let map := prune map ip now
  let v := (map.get ip).getD []
  let wasBelow : Bool := v.length < maxAuthFailures
  let v := v ++ [now]
  (map.insert ip v, wasBelow && v.length ≥ maxAuthFailures)

def recordSuccess (map : KeyedMap IpAddr (List Nat)) (ip : IpAddr) : KeyedMap IpAddr (List Nat) :=
  map.remove ip

/-! ## A connection -/

/-- The stages of a connection; the locks are taken between them. -/
inductive Stage where
  | arrived
  | checked
  | refused
  | accepted
  | done
  deriving DecidableEq, Repr

structure Connection (IpAddr : Type) where
  peerIp : Option IpAddr
  authHeader : Option (List Char)
  query : List Char
  stage : Stage
  deriving DecidableEq, Repr

def authorised (token authHeader : Option (List Char)) (query : List Char) : Bool :=
  match token with
  | none => true
  | some expected =>
    let bearer := authHeader.bind (stripPrefix "Bearer ".toList)
    bearer = some expected ||
      ((query.splitOn '&').filterMap (splitOnce ['='])).any fun (k, v) =>
        k = "token".toList && v = expected

/-- The tokens a request presents, in the order in which they are compared. -/
def presented (authHeader : Option (List Char)) (query : List Char) : List (List Char) :=
  (authHeader.bind (stripPrefix "Bearer ".toList)).toList ++
    (((query.splitOn '&').filterMap (splitOnce ['='])).filter fun (k, _) =>
      k = "token".toList).map Prod.snd

/-- How the comparisons come out; the first right token ends them. -/
def comparisons (expected : List Char) : List (List Char) → List Bool
  | [] => []
  | tok :: rest => if tok = expected then [true] else false :: comparisons expected rest

/-- One answer for each token that `authorised` compares with the expected one. -/
def compared (token authHeader : Option (List Char)) (query : List Char) : List Bool :=
  match token with
  | none => []
  | some expected => comparisons expected (presented authHeader query)

/-- The address whose failures count; without a token there is nothing to guess. -/
def source (token : Option (List Char)) (c : Connection IpAddr) : Option IpAddr :=
  if token.isSome then c.peerIp else none

/-- What can be observed of a step. -/
inductive Event (IpAddr : Type) where
  | rejected (ip : IpAddr)
  | compared (source : Option IpAddr) (right : Bool) (now : Nat)
  | failure (ip : IpAddr) (lockout : Bool)
  | success (ip : IpAddr)
  deriving DecidableEq, Repr

structure Server (IpAddr : Type) where
  failures : KeyedMap IpAddr (List Nat)
  connections : List (Connection IpAddr)
  /-- Kept for the statements; the code logs lockouts only. -/
  trace : List (Event IpAddr)

def Server.new : Server IpAddr := ⟨.empty, [], []⟩

structure Step (IpAddr : Type) where
  failures : KeyedMap IpAddr (List Nat)
  stage : Stage
  events : List (Event IpAddr)

/-- The next critical section or comparison of a connection. -/
def handle (token : Option (List Char)) (failures : KeyedMap IpAddr (List Nat))
    (c : Connection IpAddr) (now : Nat) : Step IpAddr :=
  match c.stage with
  | .arrived =>
    match source token c with
    | none => ⟨failures, .checked, []⟩
    | some ip =>
      let (failures, locked) := isLocked failures ip now
      if locked then ⟨failures, .done, [.rejected ip]⟩ else ⟨failures, .checked, []⟩
  | .checked =>
    -- one event a token: a request may carry a header and any number of `token` pairs
    let events := (compared token c.authHeader c.query).map fun right =>
      .compared (source token c) right now
    if authorised token c.authHeader c.query then ⟨failures, .accepted, events⟩
    else ⟨failures, .refused, events⟩
  | .refused =>
    match source token c with
    | none => ⟨failures, .done, []⟩
    | some ip =>
      let (failures, lockout) := recordFailure failures ip now
      ⟨failures, .done, [.failure ip lockout]⟩
  | .accepted =>
    match source token c with
    | none => ⟨failures, .done, []⟩
    | some ip => ⟨recordSuccess failures ip, .done, [.success ip]⟩
  | .done => ⟨failures, .done, []⟩

/-! ## Comparisons of a request -/

theorem comparisons_any (expected : List Char) (tokens : List (List Char)) :
    (comparisons expected tokens).any id = tokens.any fun tok => tok = expected := by
  induction tokens with
  | nil => rfl
  | cons tok rest ih =>
    rw [comparisons, List.any_cons]
    split <;> simp_all

/-- A gated request is authorised by a right comparison and by nothing else. -/
theorem authorised_compared (expected : List Char) (authHeader : Option (List Char))
    (query : List Char) :
    authorised (some expected) authHeader query =
      (compared (some expected) authHeader query).any id := by
  have pairs : ∀ fields : List (List Char × List Char),
      (fields.any fun (k, v) => k = "token".toList && v = expected) =
        ((fields.filter fun (k, _) => k = "token".toList).map Prod.snd).any fun tok =>
          tok = expected := by
    intro fields
    rw [List.any_map, List.any_filter]
    rfl
  rw [compared, comparisons_any, presented, List.any_append, ← pairs, authorised]
  congr 1
  cases authHeader.bind (stripPrefix "Bearer ".toList) <;> simp

/-! ## Interleavings -/

inductive Action (IpAddr : Type) where
  | arrive (peerIp : Option IpAddr) (authHeader : Option (List Char)) (query : List Char)
  | advance (n : Nat)
  deriving DecidableEq, Repr

def serverStep (token : Option (List Char)) (s : Server IpAddr) (at' : Nat × Action IpAddr) :
    Server IpAddr :=
  match at'.2 with
  | .arrive peerIp authHeader query =>
    { s with connections := s.connections ++ [⟨peerIp, authHeader, query, .arrived⟩] }
  | .advance n =>
    match s.connections[n]? with
    | none => s
    | some c =>
      let r := handle token s.failures c at'.1
      ⟨r.failures, s.connections.set n { c with stage := r.stage }, s.trace ++ r.events⟩

def server (token : Option (List Char)) (steps : List (Nat × Action IpAddr)) : Server IpAddr :=
  steps.foldl (serverStep token) .new

/-! ## Failures on record -/

def failuresOf (map : KeyedMap IpAddr (List Nat)) (ip : IpAddr) : List Nat := (map.get ip).getD []

theorem failuresOf_remove (map : KeyedMap IpAddr (List Nat)) (ip other : IpAddr) :
    failuresOf (map.remove ip) other = if other = ip then [] else failuresOf map other := by
  rw [failuresOf, KeyedMap.get_remove]
  split <;> rfl

theorem failuresOf_insert (map : KeyedMap IpAddr (List Nat)) (ip : IpAddr) (v : List Nat)
    (other : IpAddr) :
    failuresOf (map.insert ip v) other = if other = ip then v else failuresOf map other := by
  rw [failuresOf, KeyedMap.get_insert]
  split <;> rfl

theorem failuresOf_prune (map : KeyedMap IpAddr (List Nat)) (ip : IpAddr) (now : Nat)
    (other : IpAddr) :
    failuresOf (prune map ip now) other =
      if other = ip then (failuresOf map ip).filter fun t => now - t < authFailureWindow
      else failuresOf map other := by
  cases found : map.get ip with
  | none =>
    have none' : failuresOf map ip = [] := by simp [failuresOf, found]
    simp only [prune, found, none', List.filter_nil]
    split
    · rename_i same
      rw [same, none']
    · rfl
  | some v =>
    have before : failuresOf map ip = v := by simp [failuresOf, found]
    simp only [prune, found, before]
    by_cases empty : v.filter (fun t => now - t < authFailureWindow) = []
    · simp [empty, failuresOf_remove]
    · simp [empty, failuresOf_insert]

theorem isLocked_iff (map : KeyedMap IpAddr (List Nat)) (ip : IpAddr) (now : Nat) :
    (isLocked map ip now).2 = true ↔
      maxAuthFailures ≤
        ((failuresOf map ip).filter fun t => now - t < authFailureWindow).length := by
  have pruned := failuresOf_prune map ip now ip
  rw [if_pos rfl] at pruned
  rw [← pruned, isLocked, failuresOf]
  cases (prune map ip now).get ip with
  | none => simp [maxAuthFailures]
  | some v => simp

theorem recordFailure_failures (map : KeyedMap IpAddr (List Nat)) (ip : IpAddr) (now : Nat)
    (other : IpAddr) :
    failuresOf (recordFailure map ip now).1 other =
      if other = ip then ((failuresOf map ip).filter fun t => now - t < authFailureWindow) ++ [now]
      else failuresOf map other := by
  have pruned := failuresOf_prune map ip now
  rw [recordFailure, failuresOf_insert]
  split
  · have own := pruned ip
    rw [if_pos rfl, failuresOf] at own
    rw [own]
  · rename_i apart
    rw [pruned, if_neg apart]

theorem recordFailure_lockout (map : KeyedMap IpAddr (List Nat)) (ip : IpAddr) (now : Nat) :
    (recordFailure map ip now).2 = true ↔
      ((failuresOf map ip).filter fun t => now - t < authFailureWindow).length + 1 =
        maxAuthFailures := by
  have pruned := failuresOf_prune map ip now ip
  rw [if_pos rfl] at pruned
  rw [← pruned, recordFailure, failuresOf]
  simp only [List.length_append, List.length_singleton, Bool.and_eq_true, decide_eq_true_eq]
  omega

end AuthLimiter
