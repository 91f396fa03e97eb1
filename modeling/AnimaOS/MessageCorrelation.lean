import AnimaOS.CronSchedule
import AnimaOS.KeyedMap
import AnimaOS.Numerals
import AnimaOS.OperatorEvents

/-!
# Operator messages and their tasks

`event_from_audit_value` and `CorrelationTracker` of the console. A JSON object is the
list of its entries in the order of the map. What numbers are and how values, floats and
debug forms are printed are parameters.
-/

namespace MessageCorrelation

open CronSchedule OperatorEvents
open Numerals (natText)

universe u v

inductive Value (N : Type u) where
  | null
  | bool (b : Bool)
  | number (n : N)
  | string (s : String)
  | array (items : List (Value N))
  | object (entries : List (String × Value N))

/-- What the source calls on numbers and how it prints. -/
structure Readings (N : Type u) (F : Type v) where
  asU64 : N → Option Nat
  asF32 : N → F
  zero : F
  toString : Value N → String
  debug : String → String
  twoPlaces : F → String

section Fields

variable {N : Type u} {F : Type v} (ρ : Readings N F) (fields : Value N)

def Value.get (k : String) : Option (Value N) :=
  match fields with
  | .object entries => entries.lookup k
  | _ => none

def optStr (k : String) : Option String :=
  (fields.get k).bind fun v => match v with
    | .string s => some s
    | _ => none

def optU64 (k : String) : Option Nat :=
  (fields.get k).bind fun v => match v with
    | .number n => ρ.asU64 n
    | _ => none

def str (k : String) : String := (optStr fields k).getD ""

def u64f (k : String) : Nat := (optU64 ρ fields k).getD 0

def f32f (k : String) : F :=
  match fields.get k with
  | some (.number n) => ρ.asF32 n
  | _ => ρ.zero

def boolf (k : String) : Bool :=
  match fields.get k with
  | some (.bool b) => b
  | _ => false

def renderField : String × Value N → Option String
  | ("agent_id", _) => none
  | (k, .string s) => some (k ++ "=" ++ s)
  | (k, v) => some (k ++ "=" ++ ρ.toString v)

def compactFields : String :=
  match fields with
  | .object entries => String.intercalate ", " (entries.filterMap (renderField ρ))
  | _ => ""

/-- `HelpRequest::operator_question`. -/
def operatorQuestion (taskDescription : String) (confidence : F) : String :=
  "I answered " ++ ρ.debug taskDescription ++ " but I'm not confident in it (" ++
    ρ.twoPlaces confidence ++ "). Is that good enough, or should I try again?"

/-- The event of an entry by the name of its variant. -/
def eventOf (variant : String) : OperatorEvent F :=
  match variant with
  | "TaskStarted" => .taskStarted (u64f ρ fields "task_id") none (str fields "prompt")
  | "TaskCompleted" =>
    .agentMessage (u64f ρ fields "task_id") none (u64f ρ fields "tokens_emitted" % 2 ^ 32)
      (str fields "response")
  | "TaskFailed" =>
    .audit "TaskFailed"
      ("task " ++ natText (u64f ρ fields "task_id") ++ " failed: " ++ str fields "error") none
  | "GateDecision" =>
    .gate none (boolf fields "invoke") (optStr fields "cost_class") (f32f ρ fields "value_score")
      (f32f ρ fields "threshold_applied") (boolf fields "override_active") (str fields "reasoning")
  | "InteroceptiveSnapshot" =>
    .vitals (f32f ρ fields "thermal_load") (f32f ρ fields "compute_pressure")
      (f32f ρ fields "memory_pressure") (f32f ρ fields "power_budget")
      (f32f ρ fields "financial_budget") (f32f ρ fields "attention_demand")
      (f32f ρ fields "aggregate_stress")
  | "SleepEntered" => .state "Sleep" none 0
  | "WakeEntered" => .state "Awake" none 0
  | "SleepPhaseStarted" => .state "Sleep" (some (str fields "phase")) 0
  | "SleepPhaseCompleted" =>
    .audit "SleepPhaseCompleted" ("phase " ++ str fields "phase" ++ " " ++
      (if boolf fields "success" then "ok" else "FAILED")) none
  | "MemoryPressureEvent" =>
    .audit "MemoryPressureEvent" (str fields "level" ++ " (" ++
      natText (u64f ρ fields "active_tokens") ++ "/" ++ natText (u64f ρ fields "max_context") ++
      " tokens)") none
  | "DefenceVeto" =>
    .audit "DefenceVeto" (str fields "detector" ++ " blocked " ++ str fields "action_blocked" ++
      ": " ++ str fields "reason") none
  | "AttentionDemandEscalated" =>
    .audit "AttentionDemandEscalated" (natText (u64f ρ fields "veto_count") ++
      " vetoes in window — operator attention requested") none
  | "CortexFault" =>
    .audit "CortexFault" ("task " ++ str fields "task_id" ++ ": " ++ str fields "error") none
  | "HelpRequested" =>
    .agentQuestion (u64f ρ fields "task_id") ("help-" ++ natText (u64f ρ fields "task_id"))
      (operatorQuestion ρ (str fields "task_description") (f32f ρ fields "confidence"))
      ["that's fine", "try again"] (str fields "reason")
  | "ApprovalProposalQueued" =>
    .agentQuestion 0 ("approval:" ++ str fields "proposal_id")
      ("I'd like to add a " ++ str fields "kind" ++ " (" ++ str fields "proposal_id" ++
        "). Approve it?") ["approve", "reject"] (str fields "provenance")
  | "IdentityUpdated" =>
    .audit "IdentityUpdated" (str fields "key" ++ " = " ++ str fields "new_value") none
  | other => .audit other (compactFields ρ fields) none

end Fields

/-- The variant of an entry, its first key, with its fields. -/
def Value.variant {N : Type u} : Value N → Option (String × Value N)
  | .object (first :: _) => some first
  | _ => none

def eventFromAuditValue {N : Type u} {F : Type v} (ρ : Readings N F) (value : Value N) :
    Option (OperatorEvent F) :=
  value.variant.map fun (variant, fields) => eventOf ρ fields variant

/-! ## The tracker -/

def MAX_TRACKED_LINKS : Nat := 256

structure CorrelationTracker where
  links : KeyedMap Nat String

namespace CorrelationTracker

def new : CorrelationTracker := ⟨.empty⟩

def tracked (t : CorrelationTracker) : Nat := t.links.size

end CorrelationTracker

/-- The lowest key of a map. -/
def firstKey (links : KeyedMap Nat String) : Option Nat := (KeyedList.keys links.entries).min?

/-- At the bound the lowest key goes before a link comes in. -/
def evicted (links : KeyedMap Nat String) : KeyedMap Nat String :=
  if MAX_TRACKED_LINKS ≤ links.size then
    match firstKey links with
    | some oldest => links.remove oldest
    | none => links
  else links

section Translate

variable {N : Type u} {F : Type v} (ρ : Readings N F)

/-- The task of a gate decision about a sensory event. -/
def sensoryTask (fields : Value N) : Option Nat :=
  (optStr fields "event_id").bind fun e =>
    (TextSplit.stripPrefix "sensory-".toList e.toList).bind parseU64

/-- Stamps an event and settles its task. -/
def stamp (fields : Value N) (failedTask : Option Nat) (links : KeyedMap Nat String) :
    OperatorEvent F → KeyedMap Nat String × OperatorEvent F
  | .audit kind detail messageId =>
    if failedTask.isSome then (links, .audit kind detail (failedTask.bind links.get))
    else (links, .audit kind detail messageId)
  | .taskStarted taskId _ prompt => (links, .taskStarted taskId (links.get taskId) prompt)
  | .agentMessage taskId _ tokens text =>
    (links.remove taskId, .agentMessage taskId (links.get taskId) tokens text)
  | .gate _ invoke costClass valueScore threshold overrideActive reasoning =>
    let taskId := sensoryTask fields
    (if invoke then links else taskId.elim links links.remove,
      .gate (taskId.bind links.get) invoke costClass valueScore threshold overrideActive reasoning)
  | event => (links, event)

def translate (t : CorrelationTracker) (value : Value N) :
    CorrelationTracker × Option (OperatorEvent F) :=
  match value.variant with
  | none => (t, none)
  | some (variant, fields) =>
    if variant = "OperatorMessageLinked" then
      match optU64 ρ fields "task_id", optStr fields "message_id" with
      | some taskId, some messageId => (⟨(evicted t.links).insert taskId messageId⟩, none)
      | _, _ => (t, none)
    else
      let failedTask := if variant = "TaskFailed" then optU64 ρ fields "task_id" else none
      match eventFromAuditValue ρ value with
      | none => (t, none)
      | some event =>
        let stamped := stamp fields failedTask t.links event
        (⟨failedTask.elim stamped.1 stamped.1.remove⟩, some stamped.2)

end Translate

/-! ## Links and settling entries of a run -/

section Reference

variable {N : Type u} {F : Type v} (ρ : Readings N F)

/-- The task and the message of a link entry. -/
def linkOf (value : Value N) : Option (Nat × String) :=
  value.variant.bind fun (variant, fields) =>
    if variant = "OperatorMessageLinked" then
      (optU64 ρ fields "task_id").bind fun k => (optStr fields "message_id").map (k, ·)
    else none

/-- The task an entry is about. -/
def taskOf (value : Value N) : Option Nat :=
  value.variant.bind fun (variant, fields) =>
    if variant = "TaskStarted" ∨ variant = "TaskCompleted" then some (u64f ρ fields "task_id")
    else if variant = "TaskFailed" then optU64 ρ fields "task_id"
    else if variant = "GateDecision" then sensoryTask fields
    else none

/-- The task a completion, a failure or a gate block settles. -/
def settledBy (value : Value N) : Option Nat :=
  value.variant.bind fun (variant, fields) =>
    if variant = "TaskCompleted" then some (u64f ρ fields "task_id")
    else if variant = "TaskFailed" then optU64 ρ fields "task_id"
    else if variant = "GateDecision" ∧ boolf fields "invoke" = false then sensoryTask fields
    else none

/-- The latest link of `k` in a history is to `m`, and nothing settled `k` since. -/
def LinkedTo (history : List (Value N)) (k : Nat) (m : String) : Prop :=
  ∃ before link since, history = before ++ link :: since ∧ linkOf ρ link = some (k, m) ∧
    ∀ value ∈ since, settledBy ρ value ≠ some k ∧ ∀ n, linkOf ρ value ≠ some (k, n)

def Open (history : List (Value N)) (k : Nat) : Prop := ∃ m, LinkedTo ρ history k m

/-- At every point of the run at most `MAX_TRACKED_LINKS` tasks are open. -/
def WithinBound (run : List (Value N)) : Prop :=
  ∀ history, history <+: run → ∀ ids : Finset Nat, (∀ k ∈ ids, Open ρ history k) →
    ids.card ≤ MAX_TRACKED_LINKS

/-- At the bound, no link renews an open task but the lowest one. -/
def RenewsLowest (run : List (Value N)) : Prop :=
  ∀ history value since, run = history ++ value :: since →
    ∀ k m, linkOf ρ value = some (k, m) → Open ρ history k →
      ∀ ids : Finset Nat, ids.card = MAX_TRACKED_LINKS → (∀ j ∈ ids, Open ρ history j) →
        ∀ j ∈ ids, k ≤ j

end Reference

section Events

variable {N : Type u} {F : Type v}

def messageId : OperatorEvent F → Option String
  | .accepted messageId .. => some messageId
  | .gate messageId .. => messageId
  | .audit _ _ messageId => messageId
  | .taskStarted _ messageId _ => messageId
  | .agentMessage _ messageId _ _ => messageId
  | _ => none

/-- Only four variants are stamped. -/
theorem stamp_unstamped (ρ : Readings N F) (fields : Value N) {variant : String}
    (started : variant ≠ "TaskStarted") (completed : variant ≠ "TaskCompleted")
    (gate : variant ≠ "GateDecision") (links : KeyedMap Nat String) :
    stamp fields none links (eventOf ρ fields variant) = (links, eventOf ρ fields variant) ∧
      messageId (eventOf ρ fields variant) = none := by
  unfold eventOf
  split <;> first | exact ⟨rfl, rfl⟩ | contradiction

end Events

section Steps

variable {N : Type u} {F : Type v} (ρ : Readings N F) {value : Value N}

theorem translate_link {k : Nat} {m : String} (link : linkOf ρ value = some (k, m))
    (t : CorrelationTracker) :
    translate ρ t value = (⟨(evicted t.links).insert k m⟩, none) := by
  obtain ⟨⟨variant, fields⟩, first, named⟩ := Option.bind_eq_some_iff.mp link
  by_cases linked : variant = "OperatorMessageLinked"
  · simp only [linked, if_true] at named
    obtain ⟨task, readTask, rest⟩ := Option.bind_eq_some_iff.mp named
    obtain ⟨message, readMessage, same⟩ := Option.map_eq_some_iff.mp rest
    obtain ⟨rfl, rfl⟩ := Prod.mk.inj same
    simp [translate, first, linked, readTask, readMessage]
  · simp [linked] at named

theorem translate_unlinked (plain : linkOf ρ value = none) (t : CorrelationTracker) :
    (translate ρ t value).1.links = (settledBy ρ value).elim t.links t.links.remove ∧
      ∀ event, (translate ρ t value).2 = some event →
        messageId event = (taskOf ρ value).bind t.links.get := by
  cases named : value.variant with
  | none => simp [translate, settledBy, named]
  | some entry =>
    obtain ⟨variant, fields⟩ := entry
    have mapped : eventFromAuditValue ρ value = some (eventOf ρ fields variant) := by
      simp [eventFromAuditValue, named]
    by_cases linked : variant = "OperatorMessageLinked"
    · subst linked
      have unread : optU64 ρ fields "task_id" = none ∨ optStr fields "message_id" = none := by
        cases readTask : optU64 ρ fields "task_id" with
        | none => exact Or.inl rfl
        | some task => simpa [linkOf, named, readTask] using plain
      rcases unread with unread | unread <;> simp [translate, settledBy, named, unread]
    · by_cases started : variant = "TaskStarted"
      · subst started
        simp [translate, settledBy, taskOf, named, mapped, eventOf, stamp, messageId]
      · by_cases completed : variant = "TaskCompleted"
        · subst completed
          simp [translate, settledBy, taskOf, named, mapped, eventOf, stamp, messageId]
        · by_cases failed : variant = "TaskFailed"
          · subst failed
            cases readTask : optU64 ρ fields "task_id" <;>
              simp [translate, settledBy, taskOf, named, mapped, eventOf, stamp, messageId,
                readTask]
          · by_cases gate : variant = "GateDecision"
            · subst gate
              cases invoked : boolf fields "invoke" <;>
                simp [translate, settledBy, taskOf, named, mapped, eventOf, stamp, messageId,
                  invoked]
            · obtain ⟨kept, unmarked⟩ :=
                stamp_unstamped ρ fields started completed gate t.links
              simp [translate, settledBy, taskOf, named, mapped, linked, started, completed,
                failed, gate, kept, unmarked]

theorem settledBy_link {k : Nat} {m : String} (link : linkOf ρ value = some (k, m)) :
    settledBy ρ value = none := by
  obtain ⟨⟨variant, fields⟩, first, named⟩ := Option.bind_eq_some_iff.mp link
  by_cases linked : variant = "OperatorMessageLinked"
  · simp [settledBy, first, linked]
  · simp [linked] at named

theorem linkedTo_snoc (history : List (Value N)) (k : Nat) (m : String) :
    LinkedTo ρ (history ++ [value]) k m ↔
      linkOf ρ value = some (k, m) ∨
        (LinkedTo ρ history k m ∧ settledBy ρ value ≠ some k ∧
          ∀ n, linkOf ρ value ≠ some (k, n)) := by
  constructor
  · rintro ⟨before, link, since, split, named, quiet⟩
    rcases List.eq_nil_or_concat since with rfl | ⟨rest, last, rfl⟩
    · obtain ⟨rfl, same⟩ := List.append_inj' split rfl
      exact Or.inl (List.singleton_inj.mp same ▸ named)
    · rw [List.concat_eq_append, ← List.cons_append, ← List.append_assoc] at split
      obtain ⟨earlier, same⟩ := List.append_inj' split rfl
      obtain rfl := List.singleton_inj.mp same
      rw [List.concat_eq_append] at quiet
      refine Or.inr ⟨⟨before, link, rest, earlier, named, ?_⟩, quiet value (by simp)⟩
      exact fun v hv => quiet v (List.mem_append_left _ hv)
  · rintro (named | ⟨⟨before, link, since, rfl, named, quiet⟩, last⟩)
    · exact ⟨history, value, [], rfl, named, by simp⟩
    · refine ⟨before, link, since ++ [value], by simp, named, fun v hv => ?_⟩
      rcases List.mem_append.mp hv with hv | hv
      · exact quiet v hv
      · exact List.mem_singleton.mp hv ▸ last

/-- A link leaves the links of other tasks as they are. -/
theorem LinkedTo.past_link {history : List (Value N)} {j k : Nat} {m n : String}
    (linked : LinkedTo ρ history j n) (link : linkOf ρ value = some (k, m)) (other : j ≠ k) :
    LinkedTo ρ (history ++ [value]) j n := by
  have apart : k ≠ j := Ne.symm other
  refine (linkedTo_snoc ρ history j n).mpr (Or.inr ⟨linked, ?_, ?_⟩)
  · simp [settledBy_link ρ link]
  · simp [link, apart]

theorem not_linkedTo_nil (k : Nat) (m : String) : ¬ LinkedTo ρ [] k m := by
  rintro ⟨before, link, since, split, -⟩
  simp at split

end Steps

/-! ## Eviction -/

section Eviction

variable {links : KeyedMap Nat String}

/-- The tasks of a map, as a set. -/
def heldTasks (links : KeyedMap Nat String) : Finset Nat :=
  ⟨KeyedList.keys links.entries, links.distinct⟩

theorem mem_heldTasks {k : Nat} : k ∈ heldTasks links ↔ links.get k ≠ none := by
  have listed : k ∈ heldTasks links ↔ k ∈ KeyedList.keys links.entries := Iff.rfl
  rw [listed, KeyedList.mem_keys, Option.ne_none_iff_exists']
  exact exists_congr fun m => KeyedMap.mem_entries

theorem card_heldTasks (links : KeyedMap Nat String) : (heldTasks links).card = links.size :=
  List.length_map _

theorem firstKey_lowest {oldest : Nat} (first : firstKey links = some oldest) :
    links.get oldest ≠ none ∧ ∀ k, links.get k ≠ none → oldest ≤ k := by
  obtain ⟨listed, least⟩ := List.min?_eq_some_iff.mp first
  exact ⟨mem_heldTasks.mp listed, fun k hk => least k (mem_heldTasks.mpr hk)⟩

theorem firstKey_some (held : 0 < links.size) : ∃ oldest, firstKey links = some oldest := by
  refine Option.ne_none_iff_exists'.mp fun empty => ?_
  have bare : links.entries = [] := by simpa [firstKey, KeyedList.keys] using empty
  simp [KeyedMap.size, bare] at held

theorem evicted_below (room : links.size < MAX_TRACKED_LINKS) : evicted links = links :=
  if_neg (Nat.not_le.mpr room)

theorem evicted_full (full : MAX_TRACKED_LINKS ≤ links.size) :
    ∃ oldest, evicted links = links.remove oldest ∧ links.get oldest ≠ none ∧
      ∀ k, links.get k ≠ none → oldest ≤ k := by
  obtain ⟨oldest, first⟩ := firstKey_some (Nat.lt_of_lt_of_le (by decide) full)
  exact ⟨oldest, by simp [evicted, full, first], firstKey_lowest first⟩

theorem evicted_size (bounded : links.size ≤ MAX_TRACKED_LINKS) :
    (evicted links).size < MAX_TRACKED_LINKS := by
  by_cases full : MAX_TRACKED_LINKS ≤ links.size
  · obtain ⟨oldest, removed, held, -⟩ := evicted_full full
    rw [removed]
    exact Nat.lt_of_lt_of_le (KeyedMap.size_remove_present held) bounded
  · rw [evicted_below (Nat.not_le.mp full)]
    exact Nat.not_le.mp full

end Eviction

/-! ## Runs -/

section Runs

variable {N : Type u} {F : Type v} (ρ : Readings N F)

def feed (t : CorrelationTracker) (entries : List (Value N)) : CorrelationTracker :=
  entries.foldl (fun t value => (translate ρ t value).1) t

theorem feed_snoc (t : CorrelationTracker) (entries : List (Value N)) (value : Value N) :
    feed ρ t (entries ++ [value]) = (translate ρ (feed ρ t entries) value).1 :=
  List.foldl_append

theorem translate_tracked {t : CorrelationTracker} (bounded : t.tracked ≤ MAX_TRACKED_LINKS)
    (value : Value N) : (translate ρ t value).1.tracked ≤ MAX_TRACKED_LINKS := by
  cases link : linkOf ρ value with
  | some named =>
    rw [translate_link ρ link]
    exact (KeyedMap.size_insert_le _ _ _).trans (evicted_size bounded)
  | none =>
    have kept := (translate_unlinked ρ link t).1
    cases settled : settledBy ρ value with
    | none => simpa [CorrelationTracker.tracked, kept, settled] using bounded
    | some k =>
      rw [CorrelationTracker.tracked, kept, settled, Option.elim_some]
      exact (KeyedMap.size_retain t.links _).trans bounded

theorem feed_tracked (run : List (Value N)) :
    (feed ρ .new run).tracked ≤ MAX_TRACKED_LINKS := by
  induction run using List.reverseRecOn with
  | nil => exact Nat.zero_le _
  | append_singleton history value bounded =>
    rw [feed_snoc]
    exact translate_tracked ρ bounded value

/-- The tracker holds the open links of a history and no others. -/
def Tracks (t : CorrelationTracker) (history : List (Value N)) : Prop :=
  ∀ k m, t.links.get k = some m ↔ LinkedTo ρ history k m

variable {ρ} {t : CorrelationTracker} {history : List (Value N)} {value : Value N}

theorem Tracks.open_iff (tracks : Tracks ρ t history) (k : Nat) :
    Open ρ history k ↔ k ∈ heldTasks t.links := by
  rw [mem_heldTasks, Option.ne_none_iff_exists']
  exact exists_congr fun m => (tracks k m).symm

/-- A link costs no other task its own. -/
theorem Tracks.evicted_get (tracks : Tracks ρ t history) {k : Nat} {m : String}
    (link : linkOf ρ value = some (k, m))
    (bound : ∀ ids : Finset Nat, (∀ j ∈ ids, Open ρ (history ++ [value]) j) →
      ids.card ≤ MAX_TRACKED_LINKS)
    (lowest : Open ρ history k → t.links.size = MAX_TRACKED_LINKS →
      ∀ j ∈ heldTasks t.links, k ≤ j)
    {j : Nat} (other : j ≠ k) : (evicted t.links).get j = t.links.get j := by
  by_cases full : MAX_TRACKED_LINKS ≤ t.links.size
  · obtain ⟨oldest, removed, held, least⟩ := evicted_full full
    have opened : ∀ j ∈ insert k (heldTasks t.links), Open ρ (history ++ [value]) j := by
      intro j hj
      by_cases same : j = k
      · exact ⟨m, (linkedTo_snoc ρ history j m).mpr (Or.inl (same ▸ link))⟩
      · obtain ⟨n, linked⟩ := (tracks.open_iff j).mpr (Finset.mem_of_mem_insert_of_ne hj same)
        exact ⟨n, linked.past_link ρ link same⟩
    have counted := bound _ opened
    have present : k ∈ heldTasks t.links := by
      by_contra absent
      rw [Finset.card_insert_of_notMem absent, card_heldTasks] at counted
      omega
    rw [Finset.insert_eq_of_mem present, card_heldTasks] at counted
    have below := lowest ((tracks.open_iff k).mpr present) (Nat.le_antisymm counted full)
      oldest (mem_heldTasks.mpr held)
    have above := least k (mem_heldTasks.mp present)
    rw [removed, Nat.le_antisymm above below, KeyedMap.get_remove_other other]
  · rw [evicted_below (Nat.not_le.mp full)]

theorem Tracks.step (tracks : Tracks ρ t history)
    (bound : ∀ ids : Finset Nat, (∀ j ∈ ids, Open ρ (history ++ [value]) j) →
      ids.card ≤ MAX_TRACKED_LINKS)
    (lowest : ∀ k m, linkOf ρ value = some (k, m) → Open ρ history k →
      t.links.size = MAX_TRACKED_LINKS → ∀ j ∈ heldTasks t.links, k ≤ j) :
    Tracks ρ (translate ρ t value).1 (history ++ [value]) := by
  intro j n
  rw [linkedTo_snoc]
  cases link : linkOf ρ value with
  | some named =>
    obtain ⟨k, m⟩ := named
    rw [translate_link ρ link, KeyedMap.get_insert, settledBy_link ρ link]
    by_cases same : j = k
    · subst same
      simp
    · have kept := tracks.evicted_get link bound (lowest k m link) same
      have apart : k ≠ j := Ne.symm same
      simp [same, apart, kept, tracks j n]
  | none =>
    rw [(translate_unlinked ρ link t).1]
    cases settled : settledBy ρ value with
    | none => simp [tracks j n]
    | some k =>
      rw [Option.elim_some, KeyedMap.get_remove]
      by_cases same : j = k
      · simp [same]
      · have apart : k ≠ j := Ne.symm same
        simp [same, apart, tracks j n]

theorem tracks_new : Tracks ρ .new [] := by
  intro k m
  have bare : CorrelationTracker.new.links.get k = none := rfl
  simp [bare, not_linkedTo_nil]

/-- While the renewals at the bound are of the lowest task, the tracker follows its run. -/
theorem feed_tracks {run : List (Value N)} (within : WithinBound ρ run)
    (renews : RenewsLowest ρ run) (history : List (Value N)) (start : history <+: run) :
    Tracks ρ (feed ρ .new history) history := by
  induction history using List.reverseRecOn with
  | nil => exact tracks_new
  | append_singleton history value ih =>
    have tracks := ih ((List.prefix_append _ _).trans start)
    obtain ⟨since, split⟩ := start
    rw [List.append_assoc] at split
    rw [feed_snoc]
    refine tracks.step (within _ ⟨since, by rw [← split, List.append_assoc]⟩) ?_
    intro k m link opened full
    refine renews history value since split.symm k m link opened _ ?_ ?_
    · rw [card_heldTasks, full]
    · exact fun j hj => (tracks.open_iff j).mpr hj

/-- The event of an entry after a history carries the message its task is linked to. -/
theorem Tracks.stamped (tracks : Tracks ρ t history) {event : OperatorEvent F}
    (mapped : (translate ρ t value).2 = some event) (m : String) :
    messageId event = some m ↔ ∃ k, taskOf ρ value = some k ∧ LinkedTo ρ history k m := by
  cases link : linkOf ρ value with
  | some named => simp [translate_link ρ link] at mapped
  | none =>
    rw [(translate_unlinked ρ link t).2 event mapped, Option.bind_eq_some_iff]
    exact exists_congr fun k => and_congr_right fun _ => tracks k m

/-- At the bound the lowest task gives way to any link but its own. -/
theorem renewal_loses {k : Nat} {m : String} (link : linkOf ρ value = some (k, m))
    (full : MAX_TRACKED_LINKS ≤ t.links.size) :
    ∃ oldest ∈ heldTasks t.links, (∀ j ∈ heldTasks t.links, oldest ≤ j) ∧
      (oldest ≠ k → (translate ρ t value).1.links.get oldest = none) := by
  obtain ⟨oldest, removed, held, least⟩ := evicted_full full
  refine ⟨oldest, mem_heldTasks.mpr held, fun j hj => least j (mem_heldTasks.mp hj), ?_⟩
  intro other
  rw [translate_link ρ link, removed, KeyedMap.get_insert_other other, KeyedMap.get_remove_self]

/-- Renewing the lowest only is what keeps the tracker and its run together. -/
theorem renewsLowest_iff {run : List (Value N)} (within : WithinBound ρ run) :
    RenewsLowest ρ run ↔
      ∀ history, history <+: run → Tracks ρ (feed ρ .new history) history := by
  constructor
  · exact fun renews => feed_tracks within renews
  · intro follows history value since split k m link opened ids counted listed j hj
    have tracks := follows history ⟨value :: since, split.symm⟩
    have after := follows (history ++ [value]) ⟨since, by rw [split]; simp⟩
    have inside : ids ⊆ heldTasks (feed ρ .new history).links :=
      fun i hi => (tracks.open_iff i).mp (listed i hi)
    have full := Finset.card_le_card inside
    rw [card_heldTasks, counted] at full
    obtain ⟨oldest, held, least, lost⟩ := renewal_loses link full
    by_cases same : oldest = k
    · exact same ▸ least j (inside hj)
    · obtain ⟨n, linked⟩ := (tracks.open_iff oldest).mpr held
      have found := (after oldest n).mpr (linked.past_link ρ link same)
      rw [feed_snoc, lost same] at found
      cases found

theorem LinkedTo.listed {k : Nat} {m : String} (linked : LinkedTo ρ history k m) :
    ∃ value ∈ history, linkOf ρ value = some (k, m) := by
  obtain ⟨before, link, since, rfl, named, -⟩ := linked
  exact ⟨link, by simp, named⟩

/-- Every open task has an entry of its own. -/
theorem open_card_le {ids : Finset Nat} (opened : ∀ k ∈ ids, Open ρ history k) :
    ids.card ≤ history.length := by
  have linked : ids ⊆ ((history.filterMap (linkOf ρ)).map Prod.fst).toFinset := by
    intro k hk
    obtain ⟨m, link⟩ := opened k hk
    obtain ⟨value, listed, named⟩ := link.listed
    rw [List.mem_toFinset]
    exact List.mem_map.mpr ⟨(k, m), List.mem_filterMap.mpr ⟨value, listed, named⟩, rfl⟩
  calc ids.card ≤ _ := Finset.card_le_card linked
    _ ≤ _ := List.toFinset_card_le _
    _ = (history.filterMap (linkOf ρ)).length := List.length_map _
    _ ≤ history.length := List.length_filterMap_le _ _

theorem withinBound_short {run : List (Value N)} (short : run.length ≤ MAX_TRACKED_LINKS) :
    WithinBound ρ run :=
  fun _ start _ opened => (open_card_le opened).trans (start.length_le.trans short)

theorem renewsLowest_short {run : List (Value N)} (short : run.length ≤ MAX_TRACKED_LINKS) :
    RenewsLowest ρ run := by
  intro history value since split k m link _ ids counted listed
  have room := open_card_le listed
  simp [split] at short
  omega

/-- The held links never pass the bound; and in every run that keeps to it and, at the
bound, renews the lowest open task only, every event carries exactly the message of the
latest unsettled link of its task. -/
theorem correlation_exact_up_to_bound :
    (∀ run : List (Value N), (feed ρ .new run).tracked ≤ MAX_TRACKED_LINKS) ∧
      ∀ run : List (Value N), WithinBound ρ run → RenewsLowest ρ run →
        ∀ history value since, run = history ++ value :: since →
          ∀ event, (translate ρ (feed ρ .new history) value).2 = some event →
            ∀ m, messageId event = some m ↔
              ∃ k, taskOf ρ value = some k ∧ LinkedTo ρ history k m := by
  refine ⟨feed_tracked ρ, ?_⟩
  intro run within renews history value since split event mapped m
  have start : history <+: run := ⟨value :: since, split.symm⟩
  exact (feed_tracks within renews history start).stamped mapped m

end Runs

/-! ## A renewal at the bound -/

/-- Numbers that are naturals. -/
def naturals : Readings Nat Unit where
  asU64 n := if n < 2 ^ 64 then some n else none
  asF32 _ := ()
  zero := ()
  toString
    | .number n => natText n
    | _ => "null"
  debug s := "\"" ++ s ++ "\""
  twoPlaces _ := "0.00"

def linkEntry (k : Nat) (m : String) : Value Nat :=
  .object [("OperatorMessageLinked",
    .object [("agent_id", .string "a"), ("message_id", .string m), ("task_id", .number k)])]

def startEntry (k : Nat) : Value Nat :=
  .object [("TaskStarted",
    .object [("agent_id", .string "a"), ("prompt", .string "go"), ("task_id", .number k)])]

theorem linkOf_linkEntry {k : Nat} (small : k < 2 ^ 64) (m : String) :
    linkOf naturals (linkEntry k m) = some (k, m) := by
  have read : naturals.asU64 k = some k := if_pos small
  simp [linkOf, linkEntry, Value.variant, optU64, optStr, Value.get, List.lookup, read]

theorem taskOf_startEntry {k : Nat} (small : k < 2 ^ 64) :
    taskOf naturals (startEntry k) = some k := by
  have read : naturals.asU64 k = some k := if_pos small
  simp [taskOf, startEntry, Value.variant, u64f, optU64, Value.get, List.lookup, read]

theorem translate_startEntry {k : Nat} (small : k < 2 ^ 64) (t : CorrelationTracker) :
    (translate naturals t (startEntry k)).2 = some (.taskStarted k (t.links.get k) "go") := by
  have read : naturals.asU64 k = some k := if_pos small
  simp [translate, eventFromAuditValue, eventOf, stamp, startEntry, Value.variant, str, u64f,
    optU64, optStr, Value.get, List.lookup, read]

/-- The links of the tasks below `n`. -/
def crowd (n : Nat) : List (Value Nat) := (List.range n).map (linkEntry · "m")

theorem length_crowd (n : Nat) : (crowd n).length = n := by simp [crowd]

theorem crowd_links {n : Nat} (small : n ≤ 256) {k : Nat} (below : k < n) :
    LinkedTo naturals (crowd n) k "m" := by
  induction n with
  | zero => exact absurd below (Nat.not_lt_zero k)
  | succ n ih =>
    have grown : crowd (n + 1) = crowd n ++ [linkEntry n "m"] := by
      simp [crowd, List.range_succ]
    have link : linkOf naturals (linkEntry n "m") = some (n, "m") :=
      linkOf_linkEntry (by omega) "m"
    rw [grown, linkedTo_snoc, link]
    by_cases last : k = n
    · exact Or.inl (by rw [last])
    · refine Or.inr ⟨ih (by omega) (by omega), by simp [settledBy_link naturals link], ?_⟩
      intro m same
      exact last (Prod.mk.inj (Option.some.inj same)).1.symm

theorem crowd_held {k : Nat} (below : k < 256) :
    k ∈ heldTasks (feed naturals .new (crowd 256)).links := by
  have short : (crowd 256).length ≤ MAX_TRACKED_LINKS := (length_crowd 256).le
  have tracks : Tracks naturals (feed naturals .new (crowd 256)) (crowd 256) :=
    feed_tracks (withinBound_short short) (renewsLowest_short short) _ (List.prefix_refl _)
  exact (tracks.open_iff k).mp ⟨"m", crowd_links le_rfl below⟩

theorem crowd_full : MAX_TRACKED_LINKS ≤ (feed naturals .new (crowd 256)).links.size := by
  have inside : Finset.range 256 ⊆ heldTasks (feed naturals .new (crowd 256)).links :=
    fun k hk => crowd_held (Finset.mem_range.mp hk)
  have counted := Finset.card_le_card inside
  rwa [Finset.card_range, card_heldTasks] at counted

theorem renewed_within {renewed : Nat} (held : renewed < 256) :
    WithinBound naturals (crowd 256 ++ [linkEntry renewed "again", startEntry 0]) := by
  intro history start ids opened
  have few : ids ⊆ Finset.range 256 := by
    intro k hk
    obtain ⟨m, linked⟩ := opened k hk
    obtain ⟨value, listed, named⟩ := linked.listed
    rw [Finset.mem_range]
    rcases List.mem_append.mp (start.subset listed) with listed | listed
    · obtain ⟨j, below, rfl⟩ := List.mem_map.mp listed
      have small : j < 256 := List.mem_range.mp below
      rw [linkOf_linkEntry (by omega)] at named
      exact (Prod.mk.inj (Option.some.inj named)).1 ▸ small
    · rcases List.mem_pair.mp listed with rfl | rfl
      · rw [linkOf_linkEntry (by omega)] at named
        exact (Prod.mk.inj (Option.some.inj named)).1 ▸ held
      · simp [linkOf, startEntry, Value.variant] at named
  exact (Finset.card_le_card few).trans_eq (Finset.card_range 256)

theorem renews_lowest_first :
    RenewsLowest naturals (crowd 256 ++ [linkEntry 0 "again", startEntry 0]) := by
  intro history value since split k m link _ ids counted listed j _
  have room := open_card_le listed
  rw [counted] at room
  obtain ⟨rest, rfl⟩ : crowd 256 <+: history :=
    List.prefix_of_prefix_length_le ⟨_, rfl⟩ ⟨value :: since, split.symm⟩
      ((length_crowd 256).trans_le room)
  rw [List.append_assoc] at split
  have tail := List.append_cancel_left split
  cases rest with
  | nil =>
    rw [← (List.cons.inj tail).1, linkOf_linkEntry (by decide)] at link
    exact (Prod.mk.inj (Option.some.inj link)).1 ▸ Nat.zero_le j
  | cons first rest =>
    have last := (List.cons.inj tail).2
    cases rest with
    | nil =>
      rw [← (List.cons.inj last).1] at link
      simp [linkOf, startEntry, Value.variant] at link
    | cons second rest => simp at last

/-- With 256 links held the lowest task is linked again, and starts with its second message. -/
theorem renewal_of_lowest :
    messageId (.taskStarted 0
      ((feed naturals .new (crowd 256 ++ [linkEntry 0 "again"])).links.get 0) "go" :
        OperatorEvent Unit) = some "again" := by
  refine (correlation_exact_up_to_bound.2 (crowd 256 ++ [linkEntry 0 "again", startEntry 0])
    (renewed_within (by decide)) renews_lowest_first (crowd 256 ++ [linkEntry 0 "again"])
    (startEntry 0) [] (by simp) _ (translate_startEntry (by decide) _) "again").mpr ?_
  exact ⟨0, taskOf_startEntry (by decide), crowd 256, linkEntry 0 "again", [], rfl,
    linkOf_linkEntry (by decide) "again", by simp⟩

/-- The second link of task 5 drops task 0, with no task more than the bound open. -/
theorem renewal_at_bound_drops_lowest :
    WithinBound naturals (crowd 256 ++ [linkEntry 5 "again", startEntry 0]) ∧
      LinkedTo naturals (crowd 256 ++ [linkEntry 5 "again"]) 0 "m" ∧
      taskOf naturals (startEntry 0) = some 0 ∧
      (translate naturals (feed naturals .new (crowd 256 ++ [linkEntry 5 "again"]))
        (startEntry 0)).2 = some (.taskStarted 0 none "go") := by
  have link : linkOf naturals (linkEntry 5 "again") = some (5, "again") :=
    linkOf_linkEntry (by decide) "again"
  have linked := crowd_links le_rfl (k := 0) (by decide)
  obtain ⟨oldest, -, least, lost⟩ := renewal_loses link crowd_full
  have first : oldest = 0 := Nat.le_zero.mp (least 0 (crowd_held (by decide)))
  have gone := lost (by rw [first]; decide)
  rw [first] at gone
  refine ⟨renewed_within (by decide), linked.past_link naturals link (by decide),
    taskOf_startEntry (by decide), ?_⟩
  rw [feed_snoc, translate_startEntry (by decide), gone]

end MessageCorrelation
