import AnimaOS.KeyedList
import Mathlib

/-!
# The L3 archive

A file-backed index of archived items. The file is the JSON text of the snapshot
the last successful flush wrote; a write or rename that fails leaves it as it was.
Floats are their 32-bit patterns. Their product is a parameter, and so is what is
read where one was written: all else in a snapshot is read as it was written.
-/

namespace L3Archive

open KeyedList

abbrev F32 := BitVec 32

def toLeBytes (x : F32) : List (BitVec 8) :=
  [x.extractLsb' 0 8, x.extractLsb' 8 8, x.extractLsb' 16 8, x.extractLsb' 24 8]

structure EmotionalContext where
  arousal : F32
  surprise : F32
  deriving DecidableEq, Repr

structure MemoryNode where
  initialActivation : F32
  lambda : F32
  emotion : EmotionalContext
  alpha : F32
  sigma : F32
  deriving DecidableEq, Repr

structure ArchivedItem where
  id : Nat
  embedding : List F32
  payload : List (BitVec 8)
  deriving DecidableEq, Repr

inductive SourceTier where
  | l1
  | l2
  | episode
  | knowledge
  deriving DecidableEq, Repr

structure Provenance where
  sourceTier : SourceTier
  sourceKey : String
  demotedAtNs : Nat
  deriving DecidableEq, Repr

structure ArchivalEntry where
  item : ArchivedItem
  provenance : Provenance
  deriving DecidableEq, Repr

def entryId (e : ArchivalEntry) : Nat := e.item.id

inductive DemotionOutcome where
  | inserted
  | alreadyPresent
  deriving DecidableEq, Repr

inductive L3ArchiveError where
  | dimensionMismatch (expected got : Nat)
  | atCapacity
  | io
  | corrupt
  deriving DecidableEq, Repr

structure ArchiveSnapshot where
  expectedDim : Nat
  capacity : Nat
  entries : List ArchivalEntry
  deriving DecidableEq, Repr

/-- The index holds each entry under its own id. -/
structure Archive where
  expectedDim : Nat
  capacity : Nat
  index : List ArchivalEntry
  distinct : (index.map entryId).Nodup
  deriving DecidableEq, Repr

def contains (a : Archive) (id : Nat) : Bool := a.index.any fun e => entryId e = id

def lookup (a : Archive) (id : Nat) : Option ArchivalEntry := findKey entryId a.index id

/-- Collecting into a map: the last entry of an id stays. -/
def collectFrom (index : List ArchivalEntry) : List ArchivalEntry → List ArchivalEntry
  | [] => index
  | e :: rest => collectFrom (upsert entryId index e) rest

theorem collectFrom_distinct {index : List ArchivalEntry} (distinct : (index.map entryId).Nodup)
    (entries : List ArchivalEntry) : ((collectFrom index entries).map entryId).Nodup := by
  induction entries generalizing index with
  | nil => exact distinct
  | cons e rest ih => exact ih (upsert_distinct entryId distinct e)

/-- What is read where a float was written: nothing where the text is `null`, as it is for a float
that is not finite. -/
abbrev ReadFloat := F32 → Option F32

def readEntry (read : ReadFloat) (e : ArchivalEntry) : Option ArchivalEntry :=
  (e.item.embedding.mapM read).map fun embedding => { e with item := { e.item with embedding } }

def readSnapshot (read : ReadFloat) (written : ArchiveSnapshot) : Option ArchiveSnapshot :=
  (written.entries.mapM (readEntry read)).map fun entries => { written with entries }

def openArchive (read : ReadFloat) (disk : Option ArchiveSnapshot) (expectedDim capacity : Nat) :
    Except L3ArchiveError Archive :=
  match disk with
  | none => .ok ⟨expectedDim, capacity, [], List.nodup_nil⟩
  | some written =>
    match readSnapshot read written with
    | none => .error .corrupt
    | some snapshot =>
      if snapshot.expectedDim ≠ expectedDim then
        .error (.dimensionMismatch expectedDim snapshot.expectedDim)
      else
        .ok ⟨expectedDim, capacity, collectFrom [] snapshot.entries,
          @collectFrom_distinct [] List.nodup_nil _⟩

def snapshotOf (a : Archive) : ArchiveSnapshot := ⟨a.expectedDim, a.capacity, a.index⟩

/-- `writes` says whether both the write of the temporary file and the rename succeed. -/
def flush (a : Archive) (disk : Option ArchiveSnapshot) (writes : Bool) :
    Option ArchiveSnapshot × Except L3ArchiveError Unit :=
  if writes then (some (snapshotOf a), .ok ()) else (disk, .error .io)

structure Demoted where
  archive : Archive
  disk : Option ArchiveSnapshot
  result : Except L3ArchiveError DemotionOutcome

/-- The entry goes into the index before the flush and stays there when it fails. -/
def demote (a : Archive) (disk : Option ArchiveSnapshot) (item : ArchivedItem)
    (provenance : Provenance) (writes : Bool) : Demoted :=
  if item.embedding.length ≠ a.expectedDim then
    ⟨a, disk, .error (.dimensionMismatch a.expectedDim item.embedding.length)⟩
  else if contains a item.id then ⟨a, disk, .ok .alreadyPresent⟩
  else if a.index.length ≥ a.capacity then ⟨a, disk, .error .atCapacity⟩
  else
    let grown : Archive := { a with
      index := upsert entryId a.index ⟨item, provenance⟩
      distinct := upsert_distinct entryId a.distinct _ }
    match flush grown disk writes with
    | (disk, .ok ()) => ⟨grown, disk, .ok .inserted⟩
    | (disk, .error e) => ⟨grown, disk, .error e⟩

def embedMemoryNode (mul : F32 → F32 → F32) (node : MemoryNode) : List F32 :=
  [node.initialActivation, node.lambda, mul node.alpha node.emotion.arousal,
    mul node.sigma node.emotion.surprise]

/-- The key travels in the provenance; the item does not hold it. -/
def archiveMemoryNode (mul : F32 → F32 → F32) (id : Nat) (_key : String) (node : MemoryNode) :
    ArchivedItem where
  id := id
  embedding := embedMemoryNode mul node
  payload := [node.initialActivation, node.lambda, node.alpha, node.emotion.arousal,
    node.emotion.surprise].flatMap toLeBytes

/-! ## The index -/

theorem lookup_iff (a : Archive) (id : Nat) (e : ArchivalEntry) :
    lookup a id = some e ↔ e ∈ a.index ∧ entryId e = id :=
  findKey_iff entryId a.distinct

theorem contains_iff (a : Archive) (id : Nat) :
    contains a id = true ↔ id ∈ a.index.map entryId := by
  simp [contains]

/-- Entries of distinct ids are collected as they stand. -/
theorem collectFrom_append {index entries : List ArchivalEntry}
    (distinct : ((index ++ entries).map entryId).Nodup) :
    collectFrom index entries = index ++ entries := by
  induction entries generalizing index with
  | nil => exact (List.append_nil index).symm
  | cons e rest ih =>
    have fresh : entryId e ∉ index.map entryId := by
      intro taken
      rw [List.map_append] at distinct
      exact (List.nodup_append.mp distinct).2.2 _ taken _
        (List.mem_map_of_mem List.mem_cons_self) rfl
    rw [collectFrom, upsert_fresh entryId fresh, ih (by simpa using distinct), List.append_assoc]
    rfl

/-! ## Reading the file -/

section Readings

variable {α β γ : Type} {f : α → Option β}

theorem mapM_cons_some {a : α} {l : List α} {l' : List β} :
    (a :: l).mapM f = some l' ↔ ∃ b rest, f a = some b ∧ l.mapM f = some rest ∧ l' = b :: rest := by
  simp only [List.mapM_cons, Option.bind_eq_bind, Option.bind_eq_some_iff, Option.pure_def,
    Option.some.injEq]
  grind

theorem mem_mapM {l : List α} {l' : List β} (reads : l.mapM f = some l') {b : β} :
    b ∈ l' ↔ ∃ a ∈ l, f a = some b := by
  induction l generalizing l' with
  | nil =>
    cases reads
    simp
  | cons a l ih =>
    obtain ⟨c, rest, first, others, rfl⟩ := mapM_cons_some.mp reads
    simp [ih others, first, eq_comm]

/-- What every reading keeps is kept by the readings together. -/
theorem map_mapM {key : α → γ} {key' : β → γ} (keeps : ∀ a b, f a = some b → key' b = key a)
    {l : List α} {l' : List β} (reads : l.mapM f = some l') : l'.map key' = l.map key := by
  induction l generalizing l' with
  | nil =>
    cases reads
    rfl
  | cons a l ih =>
    obtain ⟨c, rest, first, others, rfl⟩ := mapM_cons_some.mp reads
    rw [List.map_cons, List.map_cons, keeps a c first, ih others]

theorem exists_mapM {l : List α} (each : ∀ a ∈ l, ∃ b, f a = some b) :
    ∃ l', l.mapM f = some l' := by
  induction l with
  | nil => exact ⟨[], rfl⟩
  | cons a l ih =>
    obtain ⟨b, first⟩ := each a List.mem_cons_self
    obtain ⟨rest, others⟩ := ih fun c member => each c (List.mem_cons_of_mem a member)
    exact ⟨b :: rest, mapM_cons_some.mpr ⟨b, rest, first, others, rfl⟩⟩

theorem mapM_self {f : α → Option α} {l : List α} :
    l.mapM f = some l ↔ ∀ a ∈ l, f a = some a := by
  induction l with
  | nil => simp
  | cons a l ih =>
    rw [mapM_cons_some, List.forall_mem_cons, ← ih]
    grind

end Readings

theorem readEntry_self {read : ReadFloat} {e : ArchivalEntry} :
    readEntry read e = some e ↔ ∀ x ∈ e.item.embedding, read x = some x := by
  rw [← mapM_self, readEntry, Option.map_eq_some_iff]
  constructor
  · rintro ⟨embedding, reads, same⟩
    rw [reads, ← same]
  · exact fun reads => ⟨_, reads, rfl⟩

theorem readSnapshot_some (written : ArchiveSnapshot) :
    readSnapshot some written = some written := by
  have entries : written.entries.mapM (readEntry some) = some written.entries :=
    mapM_self.mpr fun e _ => readEntry_self.mpr fun x _ => rfl
  rw [readSnapshot, entries]
  rfl

/-- Where floats are read as they were written, an archive opened on what a flush wrote holds the
entries that were flushed. -/
theorem open_snapshot {snapshot : ArchiveSnapshot} {expectedDim : Nat}
    (dims : snapshot.expectedDim = expectedDim) (distinct : (snapshot.entries.map entryId).Nodup)
    (capacity : Nat) :
    ∃ a, openArchive some (some snapshot) expectedDim capacity = .ok a ∧
      a.expectedDim = expectedDim ∧ a.index = snapshot.entries := by
  have opened : openArchive some (some snapshot) expectedDim capacity =
      .ok ⟨expectedDim, capacity, collectFrom [] snapshot.entries,
        @collectFrom_distinct [] List.nodup_nil _⟩ := by
    simp [openArchive, readSnapshot_some, dims]
  exact ⟨_, opened, rfl, @collectFrom_append [] snapshot.entries (by simpa using distinct)⟩

/-! ## Demotion -/

/-- The outcomes of a demotion: nothing changes, or the entry joins the index. -/
theorem demote_cases (a : Archive) (disk : Option ArchiveSnapshot) (item : ArchivedItem)
    (provenance : Provenance) (writes : Bool) :
    let d := demote a disk item provenance writes
    (d.archive = a ∧ d.disk = disk ∧
      ((∃ e, d.result = .error e) ∨
        (d.result = .ok .alreadyPresent ∧ item.embedding.length = a.expectedDim ∧
          item.id ∈ a.index.map entryId))) ∨
    (d.archive.expectedDim = a.expectedDim ∧ item.id ∉ a.index.map entryId ∧
      d.archive.index = a.index ++ [⟨item, provenance⟩] ∧
      ((d.disk = disk ∧ d.result = .error .io) ∨
        (d.disk = some (snapshotOf d.archive) ∧ d.result = .ok .inserted))) := by
  intro d
  by_cases dims : item.embedding.length ≠ a.expectedDim
  · refine .inl ⟨?_, ?_, .inl ⟨.dimensionMismatch a.expectedDim item.embedding.length, ?_⟩⟩ <;>
      simp [d, demote, dims]
  rw [not_ne_iff] at dims
  by_cases taken : contains a item.id = true
  · refine .inl ⟨?_, ?_, .inr ⟨?_, dims, (contains_iff a item.id).mp taken⟩⟩ <;>
      simp [d, demote, dims, taken]
  have fresh : item.id ∉ a.index.map entryId := fun h => taken ((contains_iff a item.id).mpr h)
  by_cases full : a.index.length ≥ a.capacity
  · refine .inl ⟨?_, ?_, .inl ⟨.atCapacity, ?_⟩⟩ <;> simp [d, demote, dims, taken, full]
  have joined := @upsert_fresh _ _ _ entryId a.index ⟨item, provenance⟩ fresh
  cases writes with
  | false =>
    refine .inr ⟨?_, fresh, ?_, .inl ⟨?_, ?_⟩⟩ <;>
      simp [d, demote, dims, taken, full, flush, joined]
  | true =>
    refine .inr ⟨?_, fresh, ?_, .inr ⟨?_, ?_⟩⟩ <;>
      simp [d, demote, dims, taken, full, flush, joined]

end L3Archive
