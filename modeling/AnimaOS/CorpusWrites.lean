import AnimaOS.TraceCompilation

/-!
# Errors of the corpus files

The compilation of a cycle with every operation of the file system failing on
its own, and the errors it collects. None is collected exactly when each format
gets through, and then the files are those of the model without errors.
-/

namespace TraceCompilation

inductive IoError where
  | createDirAll
  | read (fmt : TrainingFormat)
  | write (fmt : TrainingFormat)
  | rename (fmt : TrainingFormat)
  deriving DecidableEq, Repr

/-- Which operations succeed; the formats are counted in the order they are written. A file that
cannot be looked at does not exist for the writer. -/
structure Faults where
  directory : Bool
  looks : Nat → Bool
  reads : Nat → Bool
  writes : Nat → Bool
  renames : Nat → Bool

/-- The file is replaced by a rename, so an error leaves it as it was. -/
def writeFormatChecked (corpus : Corpus) (faults : Faults) (fmt : TrainingFormat)
    (pairs : List TrainingPair) (append : Bool) (i : Nat) : Corpus × Except IoError Unit :=
  let appending := append && faults.looks i
  if appending && (corpus fmt).isSome && !faults.reads i then (corpus, .error (.read fmt))
  else if !faults.writes i then (corpus, .error (.write fmt))
  else if !faults.renames i then (corpus, .error (.rename fmt))
  else (writeFormat corpus fmt pairs appending, .ok ())

structure Written where
  corpus : Corpus
  filesWritten : Nat
  errors : List IoError

/-- The formats from the `i`-th on. -/
def writeFormatsChecked (corpus : Corpus) (faults : Faults) (pairs : List TrainingPair)
    (append : Bool) (i : Nat) : List TrainingFormat → Written
  | [] => ⟨corpus, 0, []⟩
  | fmt :: rest =>
    match writeFormatChecked corpus faults fmt pairs append i with
    | (corpus, .ok ()) =>
      let later := writeFormatsChecked corpus faults pairs append (i + 1) rest
      { later with filesWritten := later.filesWritten + 1 }
    | (corpus, .error e) =>
      let later := writeFormatsChecked corpus faults pairs append (i + 1) rest
      { later with errors := e :: later.errors }

structure Compiled where
  corpus : Corpus
  report : CompilationReport
  pairs : List TrainingPair
  errors : List IoError

def compileChecked (corpus : Corpus) (faults : Faults) (entries : List AuditTraceEntry)
    (config : CompilationConfig) : Compiled :=
  let pairs := extractPairs (fun _ => none) entries
  let written : Written :=
    if config.formats ≠ [] ∧ pairs ≠ [] then
      if faults.directory then
        writeFormatsChecked corpus faults pairs config.append 0 config.formats
      else ⟨corpus, 0, [.createDirAll]⟩
    else ⟨corpus, 0, []⟩
  ⟨written.corpus, ⟨entries.length, pairs.length, written.filesWritten, false⟩, pairs,
    written.errors⟩

/-! ## Formats that get through -/

/-- The file of a format can be read where it is appended to, written and renamed. -/
def GetsThrough (faults : Faults) (append present : Bool) (i : Nat) : Prop :=
  (append = true → faults.looks i = true → present = true → faults.reads i = true) ∧
    faults.writes i = true ∧ faults.renames i = true

theorem writeFormatChecked_ok {corpus : Corpus} {faults : Faults} {fmt : TrainingFormat}
    {append : Bool} {i : Nat} (through : GetsThrough faults append (corpus fmt).isSome i)
    (pairs : List TrainingPair) :
    writeFormatChecked corpus faults fmt pairs append i =
      (writeFormat corpus fmt pairs (append && faults.looks i), .ok ()) := by
  obtain ⟨readable, written, renamed⟩ := through
  have unhindered : ¬((append && faults.looks i) && (corpus fmt).isSome && !faults.reads i) =
      true := by
    simp only [Bool.and_eq_true, Bool.not_eq_true', not_and, Bool.not_eq_false, and_imp]
    exact readable
  simp only [writeFormatChecked, if_neg unhindered, written, renamed]
  rfl

theorem writeFormatChecked_error {corpus : Corpus} {faults : Faults} {fmt : TrainingFormat}
    {append : Bool} {i : Nat} (stuck : ¬GetsThrough faults append (corpus fmt).isSome i)
    (pairs : List TrainingPair) :
    ∃ e, writeFormatChecked corpus faults fmt pairs append i = (corpus, .error e) := by
  simp only [writeFormatChecked]
  split
  · exact ⟨_, rfl⟩
  · rename_i unhindered
    split
    · exact ⟨_, rfl⟩
    · rename_i written
      split
      · exact ⟨_, rfl⟩
      · rename_i renamed
        simp only [Bool.and_eq_true, Bool.not_eq_true', not_and, Bool.not_eq_false, and_imp]
          at unhindered written renamed
        exact absurd ⟨unhindered, written, renamed⟩ stuck

theorem writeFormat_isSome (corpus : Corpus) (fmt : TrainingFormat) (pairs : List TrainingPair)
    (append : Bool) (other : TrainingFormat) :
    (writeFormat corpus fmt pairs append other).isSome =
      ((corpus other).isSome || decide (other = fmt)) := by
  by_cases same : other = fmt
  · subst same
    cases present : corpus other <;> simp [writeFormat, present]
  · cases present : corpus fmt <;> simp [writeFormat, present, same]

/-- Every format gets through, with its file there from before or from earlier in the list. -/
def AllThrough (corpus : Corpus) (faults : Faults) (append : Bool) (i : Nat)
    (formats : List TrainingFormat) : Prop :=
  ∀ k fmt, formats[k]? = some fmt →
    GetsThrough faults append ((corpus fmt).isSome || decide (fmt ∈ formats.take k)) (i + k)

theorem allThrough_cons (corpus : Corpus) (faults : Faults) (append : Bool) (i : Nat)
    (fmt : TrainingFormat) (rest : List TrainingFormat) (pairs : List TrainingPair)
    (appending : Bool) :
    AllThrough corpus faults append i (fmt :: rest) ↔
      GetsThrough faults append (corpus fmt).isSome i ∧
        AllThrough (writeFormat corpus fmt pairs appending) faults append (i + 1) rest := by
  have later : ∀ k other, ((writeFormat corpus fmt pairs appending other).isSome ||
      decide (other ∈ rest.take k)) =
      ((corpus other).isSome || decide (other ∈ (fmt :: rest).take (k + 1))) := by
    intro k other
    rw [writeFormat_isSome, List.take_succ_cons, Bool.or_assoc]
    simp only [List.mem_cons, Bool.decide_or]
  simp only [AllThrough, later]
  constructor
  · intro all
    refine ⟨by simpa using all 0 fmt rfl, fun k other listed => ?_⟩
    rw [Nat.add_assoc, Nat.add_comm 1 k]
    exact all (k + 1) other listed
  · rintro ⟨first, others⟩ k other listed
    cases k with
    | zero =>
      obtain rfl : fmt = other := Option.some.inj listed
      simpa using first
    | succ k =>
      have through := others k other listed
      rwa [Nat.add_assoc, Nat.add_comm 1 k] at through

theorem writeFormatsChecked_errors (faults : Faults) (pairs : List TrainingPair) (append : Bool)
    (formats : List TrainingFormat) (corpus : Corpus) (i : Nat) :
    (writeFormatsChecked corpus faults pairs append i formats).errors = [] ↔
      AllThrough corpus faults append i formats := by
  induction formats generalizing corpus i with
  | nil => simp [writeFormatsChecked, AllThrough]
  | cons fmt rest ih =>
    rw [allThrough_cons corpus faults append i fmt rest pairs (append && faults.looks i)]
    by_cases through : GetsThrough faults append (corpus fmt).isSome i
    · rw [writeFormatsChecked, writeFormatChecked_ok through]
      simp only [ih, through, true_and]
    · obtain ⟨e, failed⟩ := writeFormatChecked_error through pairs
      rw [writeFormatsChecked, failed]
      simp only [through, false_and, reduceCtorEq]

/-- Nothing is to be written, or the directory and every format get through. -/
def Persists (corpus : Corpus) (faults : Faults) (entries : List AuditTraceEntry)
    (config : CompilationConfig) : Prop :=
  config.formats ≠ [] → extractPairs (fun _ => none) entries ≠ [] →
    faults.directory = true ∧ AllThrough corpus faults config.append 0 config.formats

theorem compileChecked_errors (corpus : Corpus) (faults : Faults)
    (entries : List AuditTraceEntry) (config : CompilationConfig) :
    (compileChecked corpus faults entries config).errors = [] ↔
      Persists corpus faults entries config := by
  simp only [compileChecked, Persists]
  by_cases output : config.formats ≠ [] ∧ extractPairs (fun _ => none) entries ≠ []
  · rw [if_pos output]
    cases made : faults.directory with
    | true => simp [output, writeFormatsChecked_errors]
    | false => simp [output]
  · rw [if_neg output]
    simp only [true_iff]
    intro formats pairs
    exact absurd ⟨formats, pairs⟩ output

/-! ## The model without errors -/

/-- Reads succeed, and the write of a format fails as a whole or not at all. -/
structure Simple (faults : Faults) (files : Files) (i : Nat) (formats : List TrainingFormat) :
    Prop where
  looks : ∀ k, faults.looks k = true
  reads : ∀ k, faults.reads k = true
  writes : ∀ k fmt, formats[k]? = some fmt →
    (faults.writes (i + k) && faults.renames (i + k)) = files.writes fmt

theorem Simple.tail {faults : Faults} {files : Files} {i : Nat} {fmt : TrainingFormat}
    {rest : List TrainingFormat} (simple : Simple faults files i (fmt :: rest)) :
    Simple faults files (i + 1) rest := by
  refine ⟨simple.looks, simple.reads, fun k other listed => ?_⟩
  rw [Nat.add_assoc, Nat.add_comm 1 k]
  exact simple.writes (k + 1) other listed

theorem writeFormatsChecked_eq {faults : Faults} {files : Files} (pairs : List TrainingPair)
    (append : Bool) (formats : List TrainingFormat) (corpus : Corpus) (i : Nat)
    (simple : Simple faults files i formats) :
    ((writeFormatsChecked corpus faults pairs append i formats).corpus,
        (writeFormatsChecked corpus faults pairs append i formats).filesWritten) =
      writeFormats corpus files.writes pairs append formats := by
  induction formats generalizing corpus i with
  | nil => rfl
  | cons fmt rest ih =>
    have outcome := simple.writes 0 fmt rfl
    rw [Nat.add_zero] at outcome
    by_cases through : GetsThrough faults append (corpus fmt).isSome i
    · have written : files.writes fmt = true := by
        rw [← outcome, through.2.1, through.2.2]
        rfl
      have later := ih (writeFormat corpus fmt pairs append) (i + 1) simple.tail
      rw [writeFormatsChecked, writeFormatChecked_ok through, simple.looks, Bool.and_true,
        writeFormats, if_pos written, ← later]
    · have failed : ¬files.writes fmt = true := by
        intro written
        rw [← outcome, Bool.and_eq_true] at written
        exact through ⟨fun _ _ _ => simple.reads i, written⟩
      obtain ⟨e, stuck⟩ := writeFormatChecked_error through pairs
      rw [writeFormatsChecked, stuck, writeFormats, if_neg failed, ← ih corpus (i + 1) simple.tail]

/-- Without errors of their own the files, the report and the pairs are those compiled before. -/
theorem compileChecked_eq {faults : Faults} {files : Files} (corpus : Corpus)
    (entries : List AuditTraceEntry) (config : CompilationConfig)
    (directory : faults.directory = files.directory)
    (simple : Simple faults files 0 config.formats) :
    ((compileChecked corpus faults entries config).corpus,
        (compileChecked corpus faults entries config).report,
        (compileChecked corpus faults entries config).pairs) =
      compileTracesToPairs corpus files entries config := by
  have written := writeFormatsChecked_eq (extractPairs (fun _ => none) entries) config.append
    config.formats corpus 0 simple
  simp only [compileChecked, compileTracesToPairs, ← written, directory, ← and_assoc]
  by_cases output : config.formats ≠ [] ∧ extractPairs (fun _ => none) entries ≠ []
  · cases files.directory <;> simp [output]
  · simp [output]

end TraceCompilation
