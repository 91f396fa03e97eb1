import AnimaOS.LineFraming
import AnimaOS.MessageCorrelation
import AnimaOS.Utf8Text

/-!
# Following the audit file

`AuditTailer::run` and `drain_from`. The file grows by writes that may be cut
anywhere, and the follower polls it in between. How a line is parsed, the clock and
the spacing of vital signs are parameters.
-/

namespace AuditTail

open LineFraming (newline)
open MessageCorrelation OperatorEvents Utf8Text

universe u v

/-- The clock is read by the number of lines processed before. -/
structure Tailer (N : Type u) (F : Type v) where
  readings : Readings N F
  fromStr : String → Option (Value N)
  clock : Nat → Nat
  minVitalsInterval : Nat

/-- What lines are processed into: the lines given to the metrics and the events published. -/
structure Session (F : Type v) where
  lastVitals : Option Nat
  links : CorrelationTracker
  metrics : List String
  published : List (Nat × OperatorEvent F)

def Session.new {F : Type v} : Session F := ⟨none, .new, [], []⟩

section Source

variable {N : Type u} {F : Type v} (τ : Tailer N F)

def translateLine (links : CorrelationTracker) (line : String) :
    CorrelationTracker × Option (OperatorEvent F) :=
  match τ.fromStr line with
  | none => (links, none)
  | some value => translate τ.readings links value

def isVitals : OperatorEvent F → Bool
  | .vitals .. => true
  | _ => false

def trimEnd (line : String) : String :=
  String.ofList (TextSplit.trimStartWhitespace line.toList.reverse).reverse

/-- The loop body for a complete line that ends at `consumed`. -/
def processLine (s : Session F) (consumed : Nat) (line : String) : Session F :=
  let trimmed := trimEnd line
  let translated := translateLine τ s.links trimmed
  let after := { s with metrics := s.metrics ++ [trimmed], links := translated.1 }
  match translated.2 with
  | none => after
  | some event =>
    let published := s.published ++ [(consumed, event)]
    if isVitals event then
      let now := τ.clock s.metrics.length
      if s.lastVitals.any (now - · < τ.minVitalsInterval) then after
      else { after with lastVitals := some now, published := published }
    else { after with published := published }

/-- The bytes up to the first line break or the end, and the rest. -/
def readUntil : List UInt8 → List UInt8 × List UInt8
  | [] => ([], [])
  | b :: rest =>
    if b = newline then ([b], rest) else (b :: (readUntil rest).1, (readUntil rest).2)

theorem readUntil_join (raw : List UInt8) : (readUntil raw).1 ++ (readUntil raw).2 = raw := by
  induction raw with
  | nil => rfl
  | cons b rest ih =>
    rw [readUntil]
    split
    · rfl
    · rw [List.cons_append, ih]

theorem readUntil_shorter {raw : List UInt8} (read : (readUntil raw).1 ≠ []) :
    (readUntil raw).2.length < raw.length := by
  have joined := congrArg List.length (readUntil_join raw)
  have nonempty := List.length_pos_of_ne_nil read
  rw [List.length_append] at joined
  omega

/-- Reads complete lines; `read_line` fails on bytes that are not UTF-8. -/
def drainFrom (consumed : Nat) (s : Session F) (raw : List UInt8) : Nat × Session F :=
  match decode (readUntil raw).1 with
  | none => (consumed, s)
  | some line =>
    if _read : (readUntil raw).1 = [] then (consumed, s)
    else if line.toList.getLast? = some '\n' then
      let consumed := consumed + (readUntil raw).1.length
      drainFrom consumed (processLine τ s consumed line) (readUntil raw).2
    else (consumed, s)
termination_by raw.length
decreasing_by exact readUntil_shorter _read

structure Follow (F : Type v) where
  offset : Nat
  session : Session F

def Follow.new : Follow F := ⟨0, .new⟩

/-- One round of `run`; `none` is a file that is not there yet. -/
def poll (f : Follow F) : Option (List UInt8) → Follow F
  | none => f
  | some content =>
    let f := if content.length < f.offset then ⟨0, { f.session with links := .new }⟩ else f
    if f.offset < content.length then
      let drained := drainFrom τ f.offset f.session (content.drop f.offset)
      ⟨drained.1, drained.2⟩
    else f

end Source

/-! ## Writes and polls -/

inductive Step where
  | write (chunk : List UInt8)
  | poll
  deriving DecidableEq, Repr

structure World (F : Type v) where
  file : Option (List UInt8)
  follow : Follow F

section Runs

variable {N : Type u} {F : Type v} (τ : Tailer N F)

def step (w : World F) : Step → World F
  | .write chunk => { w with file := some (w.file.getD [] ++ chunk) }
  | .poll => { w with follow := poll τ w.follow w.file }

def run (steps : List Step) : World F := steps.foldl (step τ) ⟨none, .new⟩

theorem run_snoc (steps : List Step) (last : Step) :
    run τ (steps ++ [last]) = step τ (run τ steps) last :=
  List.foldl_append

end Runs

def Step.chunk : Step → List UInt8
  | .write chunk => chunk
  | .poll => []

/-- All that was written. -/
def written (steps : List Step) : List UInt8 := steps.flatMap Step.chunk

/-- The lines of a content that a line break ends, the first of them begun by `current`. -/
def terminatedFrom (current : List UInt8) : List UInt8 → List (List UInt8)
  | [] => []
  | b :: rest =>
    if b = newline then (current ++ [b]) :: terminatedFrom [] rest
    else terminatedFrom (current ++ [b]) rest

def terminatedLines (content : List UInt8) : List (List UInt8) := terminatedFrom [] content

/-- The lines of a file from `start` on with their end offsets. -/
def numbered (start : Nat) : List String → List (Nat × String)
  | [] => []
  | line :: rest =>
    (start + (bytes line).length, line) :: numbered (start + (bytes line).length) rest

/-! ## One drain -/

/-- The complete lines at the start of some bytes and where they end. -/
def scanFrom (start : Nat) (raw : List UInt8) : Nat × List (Nat × String) :=
  match decode (readUntil raw).1 with
  | none => (start, [])
  | some line =>
    if _read : (readUntil raw).1 = [] then (start, [])
    else if line.toList.getLast? = some '\n' then
      let later := scanFrom (start + (readUntil raw).1.length) (readUntil raw).2
      (later.1, (start + (readUntil raw).1.length, line) :: later.2)
    else (start, [])
termination_by raw.length
decreasing_by exact readUntil_shorter _read

/-- The bytes start with a complete line. -/
def Leads (raw : List UInt8) (line : String) : Prop :=
  decode (readUntil raw).1 = some line ∧ line.toList.getLast? = some '\n'

section Scan

variable {raw : List UInt8} {line : String}

theorem Leads.piece (leads : Leads raw line) : (readUntil raw).1 = bytes line :=
  (bytes_of_decode leads.1).symm

theorem Leads.getLast (leads : Leads raw line) : (bytes line).getLast? = some newline :=
  (getLast_bytes (by decide) line).mpr leads.2

theorem Leads.nonempty (leads : Leads raw line) : (readUntil raw).1 ≠ [] := by
  intro bare
  have last := leads.getLast
  rw [← leads.piece, bare] at last
  cases last

/-- Line by line, down to bytes that no complete line starts. -/
theorem leads_induction {motive : List UInt8 → Prop}
    (stops : ∀ raw, (∀ line, ¬ Leads raw line) → motive raw)
    (leads : ∀ raw line, Leads raw line → motive (readUntil raw).2 → motive raw)
    (raw : List UInt8) : motive raw := by
  by_cases first : ∃ line, Leads raw line
  · obtain ⟨line, first⟩ := first
    have shorter := readUntil_shorter first.nonempty
    exact leads raw line first (leads_induction stops leads (readUntil raw).2)
  · exact stops raw (not_exists.mp first)
termination_by raw.length

theorem scanFrom_leads (leads : Leads raw line) (start : Nat) :
    scanFrom start raw =
      ((scanFrom (start + (bytes line).length) (readUntil raw).2).1,
        (start + (bytes line).length, line) ::
          (scanFrom (start + (bytes line).length) (readUntil raw).2).2) := by
  rw [scanFrom, leads.1]
  dsimp only
  rw [dif_neg leads.nonempty, if_pos leads.2, leads.piece]

theorem scanFrom_stops (stops : ∀ line, ¬ Leads raw line) (start : Nat) :
    scanFrom start raw = (start, []) := by
  rw [scanFrom]
  cases read : decode (readUntil raw).1 with
  | none => rfl
  | some line =>
    have unended : line.toList.getLast? ≠ some '\n' := fun ends => stops line ⟨read, ends⟩
    simp [unended]

theorem scanFrom_nil (start : Nat) : scanFrom start [] = (start, []) :=
  scanFrom_stops (fun _ leads => leads.nonempty rfl) start

variable {N : Type u} {F : Type v} (τ : Tailer N F)

theorem drainFrom_leads (leads : Leads raw line) (consumed : Nat) (s : Session F) :
    drainFrom τ consumed s raw =
      drainFrom τ (consumed + (bytes line).length)
        (processLine τ s (consumed + (bytes line).length) line) (readUntil raw).2 := by
  rw [drainFrom, leads.1]
  dsimp only
  rw [dif_neg leads.nonempty, if_pos leads.2, leads.piece]

theorem drainFrom_stops (stops : ∀ line, ¬ Leads raw line) (consumed : Nat) (s : Session F) :
    drainFrom τ consumed s raw = (consumed, s) := by
  rw [drainFrom]
  cases read : decode (readUntil raw).1 with
  | none => rfl
  | some line =>
    have unended : line.toList.getLast? ≠ some '\n' := fun ends => stops line ⟨read, ends⟩
    simp [unended]

/-- The body runs over the lines read. -/
def processAll (s : Session F) (lines : List (Nat × String)) : Session F :=
  lines.foldl (fun s l => processLine τ s l.1 l.2) s

theorem drainFrom_eq (raw : List UInt8) : ∀ consumed s,
    drainFrom τ consumed s raw =
      ((scanFrom consumed raw).1, processAll τ s (scanFrom consumed raw).2) := by
  induction raw using leads_induction with
  | stops raw stops =>
    intro consumed s
    rw [drainFrom_stops τ stops, scanFrom_stops stops]
    rfl
  | leads raw line leads ih =>
    intro consumed s
    rw [drainFrom_leads τ leads, ih, scanFrom_leads leads]
    rfl

end Scan

/-! ## What a longer file adds -/

theorem readUntil_append {raw : List UInt8} (broken : newline ∈ (readUntil raw).1)
    (more : List UInt8) :
    readUntil (raw ++ more) = ((readUntil raw).1, (readUntil raw).2 ++ more) := by
  induction raw with
  | nil => cases broken
  | cons b rest ih =>
    by_cases ends : b = newline
    · simp [readUntil, ends]
    · have later : newline ∈ (readUntil rest).1 := by
        simp only [readUntil, if_neg ends, List.mem_cons] at broken
        exact broken.resolve_left fun same => ends same.symm
      simp [readUntil, ends, ih later]

theorem Leads.append {raw : List UInt8} {line : String} (leads : Leads raw line)
    (more : List UInt8) :
    Leads (raw ++ more) line ∧ (readUntil (raw ++ more)).2 = (readUntil raw).2 ++ more := by
  have broken : newline ∈ (readUntil raw).1 := by
    rw [leads.piece]
    exact List.mem_of_getLast? leads.getLast
  have longer := readUntil_append broken more
  exact ⟨⟨by rw [longer]; exact leads.1, leads.2⟩, by rw [longer]⟩

theorem Leads.split {raw : List UInt8} {line : String} (leads : Leads raw line) :
    raw = bytes line ++ (readUntil raw).2 := by
  rw [← leads.piece, readUntil_join]

/-- Lines end within the bytes that were read. -/
theorem scanFrom_bounds (raw : List UInt8) : ∀ start,
    start ≤ (scanFrom start raw).1 ∧ (scanFrom start raw).1 ≤ start + raw.length := by
  induction raw using leads_induction with
  | stops raw stops =>
    intro start
    rw [scanFrom_stops stops]
    exact ⟨le_rfl, Nat.le_add_right _ _⟩
  | leads raw line leads ih =>
    intro start
    obtain ⟨lower, upper⟩ := ih (start + (bytes line).length)
    have size := congrArg List.length leads.split
    rw [List.length_append] at size
    rw [scanFrom_leads leads]
    dsimp only
    constructor <;> omega

/-- Reading goes on where it stopped when more has been written. -/
theorem scanFrom_append (raw more : List UInt8) : ∀ start,
    scanFrom start (raw ++ more) =
      ((scanFrom (scanFrom start raw).1 ((raw ++ more).drop ((scanFrom start raw).1 - start))).1,
        (scanFrom start raw).2 ++
          (scanFrom (scanFrom start raw).1
            ((raw ++ more).drop ((scanFrom start raw).1 - start))).2) := by
  induction raw using leads_induction with
  | stops raw stops =>
    intro start
    simp [scanFrom_stops stops]
  | leads raw line leads ih =>
    intro start
    obtain ⟨longer, rest⟩ := leads.append more
    obtain ⟨lower, -⟩ := scanFrom_bounds (readUntil raw).2 (start + (bytes line).length)
    have skipped : (raw ++ more).drop
        ((scanFrom (start + (bytes line).length) (readUntil raw).2).1 - start) =
          ((readUntil raw).2 ++ more).drop
            ((scanFrom (start + (bytes line).length) (readUntil raw).2).1 -
              (start + (bytes line).length)) := by
      have joined : raw ++ more = bytes line ++ ((readUntil raw).2 ++ more) := by
        rw [← List.append_assoc, ← leads.split]
      have ahead : (scanFrom (start + (bytes line).length) (readUntil raw).2).1 - start =
          (bytes line).length + ((scanFrom (start + (bytes line).length) (readUntil raw).2).1 -
            (start + (bytes line).length)) := by
        omega
      rw [joined, ahead, ← List.drop_drop, List.drop_left]
    rw [scanFrom_leads longer, rest, ih, scanFrom_leads leads]
    dsimp only
    rw [skipped, List.cons_append]

section Following

variable {N : Type u} {F : Type v} {τ : Tailer N F}

/-- The follower stands where one reading of `seen` from the start would. -/
def Follows (τ : Tailer N F) (f : Follow F) (seen : List UInt8) : Prop :=
  f.offset = (scanFrom 0 seen).1 ∧ f.session = processAll τ .new (scanFrom 0 seen).2

theorem follows_new : Follows τ .new [] := by
  rw [Follows, scanFrom_nil]
  exact ⟨rfl, rfl⟩

theorem Follows.poll {f : Follow F} {seen : List UInt8} (follows : Follows τ f seen)
    (more : List UInt8) : Follows τ (poll τ f (some (seen ++ more))) (seen ++ more) := by
  obtain ⟨stands, done⟩ := follows
  obtain ⟨-, within⟩ := scanFrom_bounds seen 0
  have grown : ¬ (seen ++ more).length < f.offset := by
    rw [List.length_append]
    omega
  have longer := scanFrom_append seen more 0
  rw [Nat.sub_zero, ← stands] at longer
  rw [AuditTail.poll, if_neg grown]
  dsimp only
  by_cases ahead : f.offset < (seen ++ more).length
  · rw [if_pos ahead, drainFrom_eq]
    refine ⟨by rw [longer], ?_⟩
    rw [longer, done, processAll, processAll, processAll, List.foldl_append]
  · have nothing : (seen ++ more).drop f.offset = [] :=
      List.drop_eq_nil_of_le (Nat.not_lt.mp ahead)
    rw [nothing, scanFrom_nil] at longer
    rw [if_neg ahead, Follows, longer]
    exact ⟨rfl, by rw [done, List.append_nil]⟩

theorem written_snoc (steps : List Step) (last : Step) :
    written (steps ++ [last]) = written steps ++ last.chunk := by
  simp [written]

/-- The file is there from the first write on and holds what was written. -/
theorem run_file (steps : List Step) :
    ((run τ steps).file = none ∧ written steps = []) ∨
      (run τ steps).file = some (written steps) := by
  induction steps using List.reverseRecOn with
  | nil => exact Or.inl ⟨rfl, rfl⟩
  | append_singleton steps last ih =>
    rw [run_snoc, written_snoc]
    cases last with
    | write chunk =>
      right
      rcases ih with ⟨absent, bare⟩ | present
      · simp [step, Step.chunk, absent, bare]
      · simp [step, Step.chunk, present]
    | poll => simpa [step, Step.chunk] using ih

/-- A poll brings the follower to the end of what was written. -/
theorem polled {steps : List Step} {seen : List UInt8} (start : seen <+: written steps)
    (follows : Follows τ (run τ steps).follow seen) :
    Follows τ (run τ (steps ++ [.poll])).follow (written steps) := by
  rw [run_snoc]
  obtain ⟨more, split⟩ := start
  rcases run_file steps with ⟨absent, bare⟩ | present
  · have unseen : seen = [] := (List.append_eq_nil_iff.mp (split.trans bare)).1
    rw [bare, ← unseen, step, absent]
    exact follows
  · rw [step, present, ← split]
    exact follows.poll more

theorem run_follows (steps : List Step) :
    ∃ seen, seen <+: written steps ∧ Follows τ (run τ steps).follow seen := by
  induction steps using List.reverseRecOn with
  | nil => exact ⟨[], List.nil_prefix, follows_new⟩
  | append_singleton steps last ih =>
    obtain ⟨seen, start, follows⟩ := ih
    cases last with
    | write chunk =>
      rw [run_snoc, written_snoc]
      exact ⟨seen, start.trans (List.prefix_append _ _), follows⟩
    | poll =>
      refine ⟨written steps, ?_, polled start follows⟩
      rw [written_snoc]
      exact List.prefix_append _ _

end Following

/-! ## The lines of a file -/

theorem readUntil_line {body : List UInt8} (plain : newline ∉ body) (rest : List UInt8) :
    readUntil (body ++ newline :: rest) = (body ++ [newline], rest) := by
  induction body with
  | nil => simp [readUntil]
  | cons b body ih =>
    have apart : b ≠ newline := fun same => plain (same ▸ List.mem_cons_self)
    have later := ih fun listed => plain (List.mem_cons_of_mem b listed)
    simp [readUntil, apart, later]

theorem terminatedFrom_line {body : List UInt8} (plain : newline ∉ body)
    (current rest : List UInt8) :
    terminatedFrom current (body ++ newline :: rest) =
      (current ++ body ++ [newline]) :: terminatedLines rest := by
  induction body generalizing current with
  | nil => simp [terminatedFrom, terminatedLines]
  | cons b body ih =>
    have apart : b ≠ newline := fun same => plain (same ▸ List.mem_cons_self)
    have later := ih (fun listed => plain (List.mem_cons_of_mem b listed)) (current ++ [b])
    simp only [List.cons_append, terminatedFrom, if_neg apart, later]
    simp

theorem terminatedFrom_unbroken {raw : List UInt8} (plain : newline ∉ raw)
    (current : List UInt8) : terminatedFrom current raw = [] := by
  induction raw generalizing current with
  | nil => rfl
  | cons b rest ih =>
    have apart : b ≠ newline := fun same => plain (same ▸ List.mem_cons_self)
    rw [terminatedFrom, if_neg apart]
    exact ih (fun listed => plain (List.mem_cons_of_mem b listed)) _

theorem not_leads_unbroken {raw : List UInt8} (plain : newline ∉ raw) (line : String) :
    ¬ Leads raw line := by
  intro leads
  apply plain
  rw [leads.split]
  exact List.mem_append_left _ (List.mem_of_getLast? leads.getLast)

/-- A reading of a file whose complete lines are UTF-8 finds them all. -/
theorem scanFrom_terminated {texts : List String} : ∀ {content : List UInt8},
    terminatedLines content = texts.map bytes → ∀ start,
      scanFrom start content =
        (start + (texts.flatMap bytes).length, numbered start texts) := by
  induction texts with
  | nil =>
    intro content valid start
    have plain : newline ∉ content := by
      intro broken
      obtain ⟨body, rest, rfl, unbroken⟩ := List.eq_append_cons_of_mem broken
      simp [terminatedLines, terminatedFrom_line unbroken] at valid
    exact scanFrom_stops (not_leads_unbroken plain) start
  | cons text texts ih =>
    intro content valid start
    have broken : newline ∈ content := by
      by_contra plain
      rw [terminatedLines, terminatedFrom_unbroken plain] at valid
      cases valid
    obtain ⟨body, rest, rfl, unbroken⟩ := List.eq_append_cons_of_mem broken
    rw [terminatedLines, terminatedFrom_line unbroken, List.nil_append, List.map_cons] at valid
    obtain ⟨first, later⟩ := List.cons.inj valid
    have read := readUntil_line unbroken rest
    have leads : Leads (body ++ newline :: rest) text := by
      refine ⟨by rw [read, first, decode_bytes], (getLast_bytes (by decide) text).mp ?_⟩
      rw [← first]
      exact List.getLast?_concat
    rw [scanFrom_leads leads, read, ih later, List.flatMap_cons, List.length_append,
      Nat.add_assoc]
    rfl

/-! ## Every line once -/

section Lines

variable {N : Type u} {F : Type v} (τ : Tailer N F)

theorem processLine_metrics (s : Session F) (consumed : Nat) (line : String) :
    (processLine τ s consumed line).metrics = s.metrics ++ [trimEnd line] := by
  unfold processLine
  dsimp only
  repeat' split
  all_goals rfl

/-- What a line publishes is numbered by its end. -/
theorem processLine_published (s : Session F) (consumed : Nat) (line : String) :
    (processLine τ s consumed line).published = s.published ∨
      ∃ event, (processLine τ s consumed line).published =
        s.published ++ [(consumed, event)] := by
  unfold processLine
  dsimp only
  split
  · exact Or.inl rfl
  · rename_i event _
    split
    · split
      · exact Or.inl rfl
      · exact Or.inr ⟨event, rfl⟩
    · exact Or.inr ⟨event, rfl⟩

theorem processAll_metrics (lines : List (Nat × String)) (s : Session F) :
    (processAll τ s lines).metrics = s.metrics ++ lines.map fun l => trimEnd l.2 := by
  induction lines generalizing s with
  | nil => simp [processAll]
  | cons l rest ih =>
    have more := ih (processLine τ s l.1 l.2)
    rw [processLine_metrics, List.append_assoc] at more
    exact more

theorem processAll_published (lines : List (Nat × String)) (s : Session F) :
    ∃ ends, (processAll τ s lines).published.map Prod.fst = s.published.map Prod.fst ++ ends ∧
      ends.Sublist (lines.map Prod.fst) := by
  induction lines generalizing s with
  | nil => exact ⟨[], by simp [processAll], List.Sublist.slnil⟩
  | cons l rest ih =>
    obtain ⟨ends, more, inside⟩ := ih (processLine τ s l.1 l.2)
    rcases processLine_published τ s l.1 l.2 with same | ⟨event, added⟩
    · rw [same] at more
      exact ⟨ends, more, inside.cons _⟩
    · rw [added] at more
      refine ⟨l.1 :: ends, ?_, inside.cons_cons l.1⟩
      rw [processAll, List.foldl_cons]
      simpa [processAll] using more

theorem numbered_trimmed (texts : List String) (start : Nat) :
    (numbered start texts).map (fun l => trimEnd l.2) = texts.map trimEnd := by
  induction texts generalizing start with
  | nil => rfl
  | cons text rest ih => simp [numbered, ih]

/-- However the writes are cut and the polls fall between them, the follower has processed
the complete lines of the file once and in order, each under its end offset. -/
theorem every_line_once (steps : List Step) (texts : List String)
    (valid : terminatedLines (written steps) = texts.map bytes) :
    (run τ (steps ++ [.poll])).follow.session = processAll τ .new (numbered 0 texts) ∧
      (run τ (steps ++ [.poll])).follow.session.metrics = texts.map trimEnd ∧
      ((run τ (steps ++ [.poll])).follow.session.published.map Prod.fst).Sublist
        ((numbered 0 texts).map Prod.fst) := by
  obtain ⟨seen, start, follows⟩ := run_follows (τ := τ) steps
  have done := (polled start follows).2
  rw [scanFrom_terminated valid 0] at done
  dsimp only at done
  obtain ⟨ends, published, inside⟩ := processAll_published τ (numbered 0 texts) .new
  rw [done]
  refine ⟨rfl, ?_, ?_⟩
  · rw [processAll_metrics, Session.new, List.nil_append, numbered_trimmed]
  · rw [published, Session.new, List.map_nil, List.nil_append]
    exact inside

end Lines

/-- A line cut inside a two-byte character, with a poll at the cut. -/
def cutWrites : List Step := [.write [0x78, 0xc3], .poll, .write [0xa9, 0x0a, 0x79]]

/-- Nothing that is written parses. -/
def unparsed : Tailer Nat Unit := ⟨naturals, fun _ => none, id, 1000⟩

theorem cut_line_processed :
    (run unparsed (cutWrites ++ [.poll])).follow.session.metrics =
      [trimEnd (String.ofList ['x', 'é', '\n'])] := by
  have valid : terminatedLines (written cutWrites) =
      [String.ofList ['x', 'é', '\n']].map bytes := by
    rw [List.map_singleton, bytes_ofList]
    decide
  exact (every_line_once unparsed cutWrites _ valid).2.1

end AuditTail
