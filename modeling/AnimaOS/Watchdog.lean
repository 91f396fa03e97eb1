import AnimaOS.FixedWidth
import AnimaOS.Machine
import AnimaOS.TextSplit

/-!
# The cognitive watchdog of the somatic loop

Three detectors watch the outputs of the completions. A trip stays pending until
a reset, and the loop, which never resets, looks at it after every completion.
-/

namespace Watchdog

open FixedWidth Machine TextSplit

structure WatchdogConfig where
  stuckLoopThreshold : Nat
  noProgressThreshold : Nat
  shortOutputThreshold : Nat
  shortOutputMinChars : Nat
  deriving DecidableEq, Repr

/-- `WatchdogConfig::default`. -/
def defaultConfig : WatchdogConfig := ⟨3, 5, 4, 15⟩

structure WatchdogTrip where
  detector : String
  reason : String
  streak : Nat
  deriving DecidableEq, Repr

structure WatchdogState where
  lastOutputHash : UInt64
  stuckStreak : Nat
  noProgressStreak : Nat
  shortOutputStreak : Nat
  deriving DecidableEq, Repr

def WatchdogState.initial : WatchdogState := ⟨0, 0, 0, 0⟩

structure CognitiveWatchdog where
  config : WatchdogConfig
  state : WatchdogState
  tripCount : Nat
  pendingTrip : Option WatchdogTrip
  deriving DecidableEq, Repr

def CognitiveWatchdog.new (config : WatchdogConfig) : CognitiveWatchdog :=
  ⟨config, .initial, 0, none⟩

def fnvHash (s : String) : UInt64 :=
  s.toUTF8.toList.foldl (fun hash byte => (hash ^^^ byte.toUInt64) * 1099511628211)
    14695981039346656037

def trim (s : String) : String := String.ofList (trimWhitespace s.toList)

/-- `record_invocation` up to the evaluation of the detectors. -/
def observe (config : WatchdogConfig) (s : WatchdogState) (output : String)
    (toolCallsMade : Nat) : WatchdogState where
  lastOutputHash := fnvHash (trim output)
  stuckStreak :=
    if trim output = "" then 0
    else if fnvHash (trim output) = s.lastOutputHash then wrap 32 (s.stuckStreak + 1)
    else 1
  noProgressStreak := if toolCallsMade = 0 then wrap 32 (s.noProgressStreak + 1) else 0
  shortOutputStreak :=
    if (trim output).utf8ByteSize < config.shortOutputMinChars then
      wrap 32 (s.shortOutputStreak + 1)
    else 0

def evaluateDetectors (config : WatchdogConfig) (s : WatchdogState) : Option WatchdogTrip :=
  if s.stuckStreak ≥ config.stuckLoopThreshold then
    some ⟨"StuckLoop", "cortex output hash repeated " ++ toString s.stuckStreak ++
      " consecutive times — agent appears stuck", s.stuckStreak⟩
  else if s.noProgressStreak ≥ config.noProgressThreshold then
    some ⟨"NoProgress", toString s.noProgressStreak ++
      " consecutive invocations with zero tool calls — no observable progress",
      s.noProgressStreak⟩
  else if s.shortOutputStreak ≥ config.shortOutputThreshold then
    some ⟨"ShortOutputSpiral", toString s.shortOutputStreak ++
      " consecutive outputs shorter than " ++ toString config.shortOutputMinChars ++
      " bytes — possible hallucination spiral", s.shortOutputStreak⟩
  else none

def recordInvocation (wd : CognitiveWatchdog) (output : String) (toolCallsMade : Nat) :
    CognitiveWatchdog :=
  let state := observe wd.config wd.state output toolCallsMade
  match wd.pendingTrip with
  | some _ => { wd with state := state }
  | none =>
    match evaluateDetectors wd.config state with
    | some trip =>
      { wd with state := state, tripCount := wrap 32 (wd.tripCount + 1), pendingTrip := some trip }
    | none => { wd with state := state }

def checkTrip (wd : CognitiveWatchdog) : Option WatchdogTrip := wd.pendingTrip

def reset (wd : CognitiveWatchdog) : CognitiveWatchdog :=
  { wd with state := .initial, pendingTrip := none }

/-! ## The loop -/

/-- The audit entry `CognitiveWatchdogTripped`. -/
structure CognitiveWatchdogTripped where
  agentId : String
  detector : String
  reason : String
  streak : Nat
  tripCount : Nat
  deriving DecidableEq, Repr

/-- What the loop does with the response of a completed dispatch. -/
def onCompletion (agentId : String) (wd : CognitiveWatchdog) (response : String) :
    CognitiveWatchdog × Option CognitiveWatchdogTripped :=
  let wd := recordInvocation wd response 0
  (wd, (checkTrip wd).map fun t => ⟨agentId, t.detector, t.reason, t.streak, wd.tripCount⟩)

/-- Completion by completion, the entry that was written. -/
def written (agentId : String) (wd : CognitiveWatchdog) (outputs : List String) :
    List (Option CognitiveWatchdogTripped) :=
  (trace (onCompletion agentId) wd outputs).map Call.response

def observeAll (config : WatchdogConfig) (outputs : List String) : WatchdogState :=
  outputs.foldl (fun s output => observe config s output 0) .initial

/-- A detector is at its threshold after these outputs. -/
def Trips (config : WatchdogConfig) (outputs : List String) : Prop :=
  evaluateDetectors config (observeAll config outputs) ≠ none

/-- One entry for a trip, written when the condition first became true. -/
structure ReportedOnce (agentId : String) (config : WatchdogConfig) (outputs : List String) :
    Prop where
  counted : ((written agentId (.new config) outputs).filterMap id).length =
    (final (onCompletion agentId) (.new config) outputs).tripCount
  timely : ∀ (n : Nat) entry, (written agentId (.new config) outputs)[n]? = some (some entry) →
    Trips config (outputs.take (n + 1)) ∧ ∀ m < n, ¬ Trips config (outputs.take (m + 1))

/-- No completion before the last one brings a detector to its threshold. -/
def NoEarlyTrip (config : WatchdogConfig) (outputs : List String) : Prop :=
  ∀ n, n + 1 < outputs.length → ¬ Trips config (outputs.take (n + 1))

/-! ## Before and after the first trip -/

variable {agentId : String} {config : WatchdogConfig}

def Quiet (config : WatchdogConfig) (outputs : List String) : Prop :=
  ∀ n < outputs.length, ¬ Trips config (outputs.take (n + 1))

theorem quiet_snoc (outputs : List String) (output : String) :
    Quiet config (outputs ++ [output]) ↔
      Quiet config outputs ∧ ¬ Trips config (outputs ++ [output]) := by
  have length : (outputs ++ [output]).length = outputs.length + 1 := List.length_append
  constructor
  · intro quiet
    refine ⟨?_, ?_⟩
    · intro n below
      have early := quiet n (by omega)
      rwa [List.take_append_of_le_length (by omega)] at early
    · have whole := quiet outputs.length (by omega)
      rwa [← length, List.take_length] at whole
  · rintro ⟨quiet, last⟩ n below
    by_cases whole : n = outputs.length
    · subst whole
      rwa [← length, List.take_length]
    · rw [List.take_append_of_le_length (by omega)]
      exact quiet n (by omega)

theorem noEarlyTrip_snoc (outputs : List String) (output : String) :
    NoEarlyTrip config (outputs ++ [output]) ↔ Quiet config outputs := by
  have length : (outputs ++ [output]).length = outputs.length + 1 := List.length_append
  constructor
  · intro none n below
    have early := none n (by omega)
    rwa [List.take_append_of_le_length (by omega)] at early
  · intro quiet n below
    rw [List.take_append_of_le_length (by omega)]
    exact quiet n (by omega)

theorem observeAll_snoc (config : WatchdogConfig) (outputs : List String) (output : String) :
    observeAll config (outputs ++ [output]) =
      observe config (observeAll config outputs) output 0 :=
  List.foldl_append

theorem written_snoc (agentId : String) (wd : CognitiveWatchdog) (outputs : List String)
    (output : String) :
    written agentId wd (outputs ++ [output]) = written agentId wd outputs ++
      [(onCompletion agentId (final (onCompletion agentId) wd outputs) output).2] := by
  simp only [written, trace_append, List.map_append]
  rfl

theorem written_length (agentId : String) (wd : CognitiveWatchdog) (outputs : List String) :
    (written agentId wd outputs).length = outputs.length := by
  rw [written, List.length_map, trace_length]

/-- Without a pending trip a completion trips and is reported, or only the streaks move. -/
theorem onCompletion_idle (agentId : String) (wd : CognitiveWatchdog)
    (idle : wd.pendingTrip = none) (output : String) :
    match evaluateDetectors wd.config (observe wd.config wd.state output 0) with
    | none => onCompletion agentId wd output =
        ({ wd with state := observe wd.config wd.state output 0 }, none)
    | some trip => ∃ entry, onCompletion agentId wd output =
        (⟨wd.config, observe wd.config wd.state output 0, wrap 32 (wd.tripCount + 1), some trip⟩,
          some entry) := by
  cases evaluated : evaluateDetectors wd.config (observe wd.config wd.state output 0) with
  | none => simp [onCompletion, recordInvocation, checkTrip, idle, evaluated]
  | some trip => simp [onCompletion, recordInvocation, checkTrip, idle, evaluated]

/-- A pending trip is reported again at every completion. -/
theorem onCompletion_pending (agentId : String) (wd : CognitiveWatchdog) {trip : WatchdogTrip}
    (pending : wd.pendingTrip = some trip) (output : String) :
    (onCompletion agentId wd output).1.pendingTrip = some trip ∧
      (onCompletion agentId wd output).1.tripCount = wd.tripCount ∧
      ∃ entry, (onCompletion agentId wd output).2 = some entry := by
  simp [onCompletion, recordInvocation, checkTrip, pending]

theorem final_quiet {outputs : List String} (quiet : Quiet config outputs) :
    final (onCompletion agentId) (.new config) outputs =
        ⟨config, observeAll config outputs, 0, none⟩ ∧
      (written agentId (.new config) outputs).filterMap id = [] := by
  induction outputs using List.reverseRecOn with
  | nil => exact ⟨rfl, rfl⟩
  | append_singleton outputs output ih =>
    obtain ⟨earlier, last⟩ := (quiet_snoc outputs output).mp quiet
    obtain ⟨state, silent⟩ := ih earlier
    have step := onCompletion_idle agentId ⟨config, observeAll config outputs, 0, none⟩ rfl output
    rw [Trips, not_not, observeAll_snoc] at last
    simp only [last] at step
    rw [final_snoc, written_snoc, List.filterMap_append, silent, state, step, observeAll_snoc]
    exact ⟨rfl, rfl⟩

/-- From the first trip on it stays pending, and every completion adds an entry. -/
theorem final_tripped {outputs : List String} (loud : ¬ Quiet config outputs) :
    ∃ trip, (final (onCompletion agentId) (.new config) outputs).pendingTrip = some trip ∧
      (final (onCompletion agentId) (.new config) outputs).tripCount = 1 ∧
      1 ≤ ((written agentId (.new config) outputs).filterMap id).length := by
  induction outputs using List.reverseRecOn with
  | nil => exact absurd (fun n below => absurd below (Nat.not_lt_zero n)) loud
  | append_singleton outputs output ih =>
    rw [final_snoc, written_snoc, List.filterMap_append, List.length_append]
    by_cases earlier : Quiet config outputs
    · obtain ⟨state, silent⟩ := @final_quiet agentId config outputs earlier
      have last : Trips config (outputs ++ [output]) := by
        by_contra last
        exact loud ((quiet_snoc outputs output).mpr ⟨earlier, last⟩)
      have step := onCompletion_idle agentId ⟨config, observeAll config outputs, 0, none⟩ rfl output
      rw [Trips, observeAll_snoc] at last
      obtain ⟨trip, evaluated⟩ := Option.ne_none_iff_exists'.mp last
      simp only [evaluated] at step
      obtain ⟨entry, step⟩ := step
      rw [state, silent, step]
      exact ⟨trip, rfl, rfl, Nat.le_refl 1⟩
    · obtain ⟨trip, pending, count, several⟩ := ih earlier
      obtain ⟨still, same, entry, -⟩ := onCompletion_pending agentId _ pending output
      exact ⟨trip, still, same.trans count, Nat.le_add_right_of_le several⟩

theorem unreported_of_quiet {outputs : List String} (quiet : Quiet config outputs) (n : Nat)
    (entry : CognitiveWatchdogTripped) :
    (written agentId (.new config) outputs)[n]? ≠ some (some entry) := by
  intro reported
  have found : entry ∈ (written agentId (.new config) outputs).filterMap id :=
    List.mem_filterMap.mpr ⟨some entry, List.mem_of_getElem? reported, rfl⟩
  rw [(final_quiet quiet).2] at found
  cases found

/-- After quiet completions one more writes an entry exactly when it trips. -/
theorem final_quiet_snoc {outputs : List String} (quiet : Quiet config outputs) (output : String) :
    match evaluateDetectors config (observeAll config (outputs ++ [output])) with
    | none => (final (onCompletion agentId) (.new config) (outputs ++ [output])).tripCount = 0 ∧
        written agentId (.new config) (outputs ++ [output]) =
          written agentId (.new config) outputs ++ [none]
    | some _ => (final (onCompletion agentId) (.new config) (outputs ++ [output])).tripCount = 1 ∧
        ∃ entry, written agentId (.new config) (outputs ++ [output]) =
          written agentId (.new config) outputs ++ [some entry] := by
  obtain ⟨state, -⟩ := @final_quiet agentId config outputs quiet
  have step := onCompletion_idle agentId ⟨config, observeAll config outputs, 0, none⟩ rfl output
  rw [observeAll_snoc]
  simp only [final_snoc, written_snoc, state]
  cases evaluated : evaluateDetectors config
    (observe config (observeAll config outputs) output 0) with
  | none =>
    simp only [evaluated] at step
    rw [step]
    exact ⟨rfl, rfl⟩
  | some trip =>
    simp only [evaluated] at step
    obtain ⟨entry, step⟩ := step
    rw [step]
    exact ⟨rfl, entry, rfl⟩

theorem counted_of_quiet {outputs : List String} (quiet : Quiet config outputs) (output : String) :
    ((written agentId (.new config) (outputs ++ [output])).filterMap id).length =
      (final (onCompletion agentId) (.new config) (outputs ++ [output])).tripCount := by
  have silent := (@final_quiet agentId config outputs quiet).2
  have last := @final_quiet_snoc agentId config outputs quiet output
  cases evaluated : evaluateDetectors config (observeAll config (outputs ++ [output])) with
  | none =>
    simp only [evaluated] at last
    obtain ⟨count, entries⟩ := last
    rw [count, entries, List.filterMap_append, silent]
    rfl
  | some trip =>
    simp only [evaluated] at last
    obtain ⟨count, entry, entries⟩ := last
    rw [count, entries, List.filterMap_append, silent]
    rfl

/-- The only entry is the last one, and the last completion is the first to trip. -/
theorem timely_of_quiet {outputs : List String} (quiet : Quiet config outputs) (output : String)
    {n : Nat} {entry : CognitiveWatchdogTripped}
    (reported : (written agentId (.new config) (outputs ++ [output]))[n]? = some (some entry)) :
    Trips config ((outputs ++ [output]).take (n + 1)) ∧
      ∀ m < n, ¬ Trips config ((outputs ++ [output]).take (m + 1)) := by
  have length := written_length agentId (.new config) outputs
  have last := @final_quiet_snoc agentId config outputs quiet output
  rcases Nat.lt_trichotomy n outputs.length with before | rfl | beyond
  · rw [written_snoc, List.getElem?_append_left (by omega)] at reported
    exact absurd reported (unreported_of_quiet quiet n entry)
  · refine ⟨?_, ?_⟩
    · rw [List.take_of_length_le (by simp), Trips]
      intro evaluated
      simp only [evaluated] at last
      rw [last.2, ← length, List.getElem?_concat_length] at reported
      cases reported
    · intro m below
      rw [List.take_append_of_le_length (by omega)]
      exact quiet m below
  · rw [written_snoc, List.getElem?_eq_none (by simp; omega)] at reported
    cases reported

/-- After a trip the next completion writes an entry too many. -/
theorem quiet_of_counted {outputs : List String} {output : String}
    (counted : ((written agentId (.new config) (outputs ++ [output])).filterMap id).length =
      (final (onCompletion agentId) (.new config) (outputs ++ [output])).tripCount) :
    Quiet config outputs := by
  by_contra loud
  obtain ⟨trip, pending, count, several⟩ := @final_tripped agentId config outputs loud
  obtain ⟨-, same, entry, again⟩ := onCompletion_pending agentId _ pending output
  rw [final_snoc, written_snoc, List.filterMap_append, List.length_append, same, count,
    again] at counted
  have one : ([some entry].filterMap id).length = 1 := rfl
  omega

theorem reported_once_iff (agentId : String) (config : WatchdogConfig) (outputs : List String) :
    ReportedOnce agentId config outputs ↔ NoEarlyTrip config outputs := by
  cases outputs using List.reverseRecOn with
  | nil =>
    refine ⟨fun _ n below => absurd below (Nat.not_lt_zero _), fun _ => ⟨rfl, ?_⟩⟩
    intro n entry reported
    cases reported
  | append_singleton outputs output =>
    rw [noEarlyTrip_snoc]
    refine ⟨fun reported => quiet_of_counted reported.counted, fun quiet => ?_⟩
    exact ⟨counted_of_quiet quiet output, fun n entry => timely_of_quiet quiet output⟩

/-- The fourth of four equal outputs is reported again. -/
theorem trip_reported_twice :
    ¬ ReportedOnce "agent" defaultConfig ["the same answer", "the same answer",
      "the same answer", "the same answer"] := by
  intro reported
  exact absurd reported.counted (by decide +kernel)

/-! ## With the documented reset -/

/-- The caller resets after it surfaced a trip, as the watchdog's documentation asks. -/
def onCompletionReset (agentId : String) (wd : CognitiveWatchdog) (response : String) :
    CognitiveWatchdog × Option CognitiveWatchdogTripped :=
  match onCompletion agentId wd response with
  | (wd, some entry) => (reset wd, some entry)
  | (wd, none) => (wd, none)

theorem onCompletionReset_step (agentId : String) (wd : CognitiveWatchdog)
    (idle : wd.pendingTrip = none) (output : String) :
    (onCompletionReset agentId wd output).1.pendingTrip = none ∧
      (((onCompletionReset agentId wd output).2 = none ∧
          (onCompletionReset agentId wd output).1.tripCount = wd.tripCount) ∨
        ∃ entry, (onCompletionReset agentId wd output).2 = some entry ∧
          (onCompletionReset agentId wd output).1.tripCount = wrap 32 (wd.tripCount + 1)) := by
  have step := onCompletion_idle agentId wd idle output
  cases evaluated : evaluateDetectors wd.config (observe wd.config wd.state output 0) with
  | none =>
    simp only [evaluated] at step
    simp [onCompletionReset, step, idle]
  | some trip =>
    simp only [evaluated] at step
    obtain ⟨entry, step⟩ := step
    simp [onCompletionReset, step, reset]

/-- A loop that resets writes one entry for each trip it counts. -/
theorem reset_counts (agentId : String) (config : WatchdogConfig) (outputs : List String) :
    (final (onCompletionReset agentId) (.new config) outputs).pendingTrip = none ∧
      (final (onCompletionReset agentId) (.new config) outputs).tripCount =
        wrap 32 (((trace (onCompletionReset agentId) (.new config) outputs).filterMap
          Call.response).length) := by
  induction outputs using List.reverseRecOn with
  | nil => exact ⟨rfl, rfl⟩
  | append_singleton outputs output ih =>
    obtain ⟨idle, count⟩ := ih
    obtain ⟨still, step⟩ := onCompletionReset_step agentId _ idle output
    rw [final_snoc, trace_append, List.filterMap_append, List.length_append]
    refine ⟨still, ?_⟩
    rcases step with ⟨silent, same⟩ | ⟨entry, reported, more⟩
    · rw [same, count]
      simp [trace, silent]
    · rw [more, count]
      simp [trace, reported, wrap]

end Watchdog
