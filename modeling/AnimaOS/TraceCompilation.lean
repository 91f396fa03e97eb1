import AnimaOS.Machine
import AnimaOS.TextLines
import AnimaOS.TextSplit
import Mathlib.Logic.Function.Basic

/-!
# Compilation of audit traces

The bounded audit log in memory, the pairs a sleep cycle extracts from it and
the corpus files it writes. Dispatches are numbered; the number of its dispatch
on an entry, a pair or a line is read by no function of the source.
-/

namespace TraceCompilation

open TextLines TextSplit

/-! ## Pair extraction -/

inductive AuditTraceEntry where
  | taskStarted (taskId tier : Nat) (prompt : String) (execution : Nat)
  | taskCompleted (taskId tokensEmitted : Nat) (response : String) (execution : Nat)
  | taskFailed (taskId : Nat) (error : String)
  | other
  deriving DecidableEq, Repr

structure TrainingPair where
  prompt : String
  response : String
  tier : Nat
  taskId : Nat
  execution : Nat
  deriving DecidableEq, Repr

/-- `started` is the index of started tasks by id. -/
def extractPairs (started : Nat → Option (Nat × String)) :
    List AuditTraceEntry → List TrainingPair
  | [] => []
  | .taskStarted taskId tier prompt _ :: rest =>
    extractPairs (Function.update started taskId (some (tier, prompt))) rest
  | .taskCompleted taskId _ response execution :: rest =>
    match started taskId with
    | some (tier, prompt) =>
      ⟨prompt, response, tier, taskId, execution⟩ ::
        extractPairs (Function.update started taskId none) rest
    | none => extractPairs started rest
  | .taskFailed _ _ :: rest => extractPairs started rest
  | .other :: rest => extractPairs started rest

/-! ## Corpus files -/

inductive TrainingFormat where
  | alpaca
  | conversation
  | chainOfThought
  deriving DecidableEq, Repr

inductive Record where
  | alpaca (instruction input output : String)
  | conversation (turns : List (String × String))
  | chainOfThought (prompt chainOfThought answer : String)
  deriving DecidableEq, Repr

/-- The last non-empty line is the answer, the lines before it are the reasoning. -/
def splitChainOfThought (response : String) : String × String :=
  let kept := ((lines response.toList).map trimWhitespace).filter fun line => line ≠ []
  if kept.length ≤ 1 then ("", String.ofList (trimWhitespace response.toList))
  else
    ("\n".intercalate (kept.dropLast.map String.ofList),
      String.ofList (kept.getLast?.getD []))

def record (pair : TrainingPair) : TrainingFormat → Record
  | .alpaca => .alpaca pair.prompt "" pair.response
  | .conversation => .conversation [("human", pair.prompt), ("gpt", pair.response)]
  | .chainOfThought =>
    let split := splitChainOfThought pair.response
    .chainOfThought pair.prompt split.1 split.2

/-- A line of a corpus file; lines older than the run belong to no dispatch of it. -/
structure Line where
  record : Record
  execution : Option Nat
  deriving DecidableEq, Repr

abbrev Corpus := TrainingFormat → Option (List Line)

structure CompilationConfig where
  formats : List TrainingFormat
  append : Bool
  deriving DecidableEq, Repr

/-- What the file system answers during one cycle. -/
structure Files where
  directory : Bool
  writes : TrainingFormat → Bool

structure CompilationReport where
  entriesProcessed : Nat
  pairsCompiled : Nat
  filesWritten : Nat
  emergencyConsolidation : Bool
  deriving DecidableEq, Repr

def writeFormat (corpus : Corpus) (fmt : TrainingFormat) (pairs : List TrainingPair)
    (append : Bool) : Corpus :=
  let buf := pairs.map fun pair => (⟨record pair fmt, some pair.execution⟩ : Line)
  match corpus fmt with
  | some existing =>
    Function.update corpus fmt (some (if append then existing ++ buf else buf))
  | none => Function.update corpus fmt (some buf)

def writeFormats (corpus : Corpus) (writes : TrainingFormat → Bool) (pairs : List TrainingPair)
    (append : Bool) : List TrainingFormat → Corpus × Nat
  | [] => (corpus, 0)
  | fmt :: rest =>
    if writes fmt then
      let later := writeFormats (writeFormat corpus fmt pairs append) writes pairs append rest
      (later.1, later.2 + 1)
    else writeFormats corpus writes pairs append rest

def compileTracesToPairs (corpus : Corpus) (files : Files) (entries : List AuditTraceEntry)
    (config : CompilationConfig) : Corpus × CompilationReport × List TrainingPair :=
  let pairs := extractPairs (fun _ => none) entries
  let written :=
    if config.formats ≠ [] ∧ pairs ≠ [] ∧ files.directory then
      writeFormats corpus files.writes pairs config.append config.formats
    else (corpus, 0)
  (written.1, ⟨entries.length, pairs.length, written.2, false⟩, pairs)

/-! ## The lifecycle -/

structure AuditLog where
  entries : List AuditTraceEntry
  maxEntries : Nat
  deriving DecidableEq, Repr

/-- The log overshoots its cap by a margin and then gives up its oldest entries at once. -/
def AuditLog.push (log : AuditLog) (entry : AuditTraceEntry) : AuditLog :=
  let entries := log.entries ++ [entry]
  if log.maxEntries > 0 ∧ entries.length ≥ log.maxEntries + max (log.maxEntries / 8) 1 then
    { log with entries := entries.drop (entries.length - log.maxEntries) }
  else { log with entries := entries }

inductive LifecycleState where
  | awake
  | sleep
  deriving DecidableEq, Repr

/-- `history` holds every entry pushed so far; the code keeps only its end. -/
structure World where
  state : LifecycleState
  audit : AuditLog
  corpus : Corpus
  history : List AuditTraceEntry

def pushEntry (w : World) (entry : AuditTraceEntry) : World :=
  { w with audit := w.audit.push entry, history := w.history ++ [entry] }

def pushOthers (w : World) : Nat → World
  | 0 => w
  | n + 1 => pushOthers (pushEntry w .other) n

def startOf : AuditTraceEntry → Option Nat
  | .taskStarted _ _ _ execution => some execution
  | _ => none

def startedIn (entries : List AuditTraceEntry) : List Nat := entries.filterMap startOf

/-- A dispatch and the number of other entries pushed before and after its outcome. -/
structure Dispatch where
  taskId : Nat
  tier : Nat
  prompt : String
  between : Nat
  outcome : Except String (Nat × String)
  after : Nat

def transitionToWakingState (w : World) : World :=
  match w.state with
  | .awake => w
  | .sleep => pushEntry { w with state := .awake } .other

def outcomeEntry (d : Dispatch) (execution : Nat) : AuditTraceEntry :=
  match d.outcome with
  | .ok (tokensEmitted, response) => .taskCompleted d.taskId tokensEmitted response execution
  | .error error => .taskFailed d.taskId error

def dispatch (w : World) (d : Dispatch) : World :=
  let execution := (startedIn w.history).length
  let started := pushEntry (transitionToWakingState w)
    (.taskStarted d.taskId d.tier d.prompt execution)
  let answered := pushEntry (pushOthers started d.between) (outcomeEntry d execution)
  pushOthers answered d.after

/-- A sleep cycle: the answers of the file system and the entries its phases push. -/
structure Cycle where
  files : Files
  entries : Nat

/-- The trace is taken before the phases push theirs. -/
def runMaintenance (config : CompilationConfig) (w : World) (c : Cycle) : World :=
  let compiled := compileTracesToPairs w.corpus c.files w.audit.entries config
  pushOthers { w with corpus := compiled.1 } c.entries

def transitionToSleepState (config : CompilationConfig) (w : World) (c : Cycle) : World :=
  match w.state with
  | .sleep => w
  | .awake => runMaintenance config (pushEntry { w with state := .sleep } .other) c

inductive Op where
  | dispatch (d : Dispatch)
  | entries (n : Nat)
  | transitionToSleepState (c : Cycle)
  | runSleepCycle (c : Cycle)

def step (config : CompilationConfig) (w : World) : Op → World × Unit
  | .dispatch d => (dispatch w d, ())
  | .entries n => (pushOthers w n, ())
  | .transitionToSleepState c => (transitionToSleepState config w c, ())
  | .runSleepCycle c => (runMaintenance config w c, ())

/-- A new lifecycle over the corpus files that are there. -/
def start (maxEntries : Nat) (older : TrainingFormat → Option (List Record)) : World :=
  ⟨.awake, ⟨[], maxEntries⟩, fun fmt => (older fmt).map (List.map fun r => ⟨r, none⟩), []⟩

end TraceCompilation
