import AnimaOS.ArcCoherence
import AnimaOS.Machine
import AnimaOS.ReaderProvenance

/-!
# Faults and losses of the L3 archive

An archive over a run of demotions, flushes and reopenings in which any write may
fail and a float may not be read as it was written, and what a node keeps on its way
into the archive and back.
-/

namespace L3Archive

open KeyedList

/-! ## Runs with failing writes -/

structure Stored where
  archive : Archive
  disk : Option ArchiveSnapshot
  deriving DecidableEq, Repr

structure DemoteCall where
  item : ArchivedItem
  provenance : Provenance
  writes : Bool
  deriving DecidableEq, Repr

inductive ArchiveOp where
  | demote (call : DemoteCall)
  | flush (writes : Bool)
  | reopen
  deriving DecidableEq, Repr

abbrev Answer := Except L3ArchiveError DemotionOutcome

def demoteStored (s : Stored) (call : DemoteCall) : Stored × Answer :=
  let d := demote s.archive s.disk call.item call.provenance call.writes
  (⟨d.archive, d.disk⟩, d.result)

section Readings

variable (read : ReadFloat)

/-- Only a demotion has an outcome; a refused reopening leaves the process without a new archive. -/
def archiveStep (s : Stored) : ArchiveOp → Stored × Option Answer
  | .demote call => ((demoteStored s call).1, some (demoteStored s call).2)
  | .flush writes => (⟨s.archive, (flush s.archive s.disk writes).1⟩, none)
  | .reopen =>
    match openArchive read s.disk s.archive.expectedDim s.archive.capacity with
    | .ok a => (⟨a, s.disk⟩, none)
    | .error _ => (s, none)

def onDisk (disk : Option ArchiveSnapshot) : List ArchivalEntry :=
  disk.elim [] ArchiveSnapshot.entries

def isFinite (x : F32) : Bool := x.extractLsb' 23 8 ≠ 255#8

/-- What holds of floats in JSON: `null` stands for what is not finite and is read as no float, a
number is read as a finite one, if not always the one it was written for. -/
structure JsonFloats : Prop where
  null : ∀ x, isFinite x = false → read x = none
  number : ∀ x, isFinite x = true → ∃ y, read x = some y ∧ isFinite y = true

/-- The file opens, and what it opens to holds the entry. -/
def Held (s : Stored) (e : ArchivalEntry) : Prop :=
  ∃ a, openArchive read s.disk s.archive.expectedDim s.archive.capacity = .ok a ∧ e ∈ a.index

abbrev ArchiveCall := Machine.Call Stored ArchiveOp (Option Answer)

/-- A demotion of the entry that was answered with `Inserted`. -/
def Reported (calls : List ArchiveCall) (id : Nat) : Prop :=
  ∃ c ∈ calls, ∃ call, c.request = .demote call ∧ call.item.id = id ∧
    c.response = some (.ok .inserted)

/-- The demotion gets past its checks and writes the file. -/
def reachesFlush (a : Archive) (item : ArchivedItem) : Bool :=
  item.embedding.length = a.expectedDim ∧ contains a item.id = false ∧ a.index.length < a.capacity

/-- What is asked of one demotion met after the calls so far. -/
structure AtomicDemotion (opened : Archive) (sofar : List ArchiveCall) (s : Stored)
    (call : DemoteCall) : Prop where
  unchanged : ∀ e, (demoteStored s call).2 = .error e → (demoteStored s call).1 = s
  retried : (demoteStored s call).2 = .error .io →
    let again := demoteStored (demoteStored s call).1 { call with writes := true }
    again.2 = .ok .inserted ∧ Held read again.1 ⟨call.item, call.provenance⟩
  durable : (demoteStored s call).2 = .ok .inserted →
    Held read (demoteStored s call).1 ⟨call.item, call.provenance⟩
  present : (demoteStored s call).2 = .ok .alreadyPresent →
    (∃ e, Held read (demoteStored s call).1 e ∧ entryId e = call.item.id) ∧
      (call.item.id ∈ opened.index.map entryId ∨ Reported sofar call.item.id)

end Readings

theorem Reported.append {calls : List ArchiveCall} {id : Nat} (reported : Reported calls id)
    (c : ArchiveCall) : Reported (calls ++ [c]) id := by
  obtain ⟨d, member, rest⟩ := reported
  exact ⟨d, List.mem_append_left _ member, rest⟩

theorem collectFrom_mem {index entries : List ArchivalEntry} {e : ArchivalEntry}
    (h : e ∈ collectFrom index entries) : e ∈ index ∨ e ∈ entries := by
  induction entries generalizing index with
  | nil => exact .inl h
  | cons d rest ih =>
    rcases ih h with joined | later
    · rcases List.mem_append.mp joined with kept | new
      · exact .inl (List.mem_filter.mp kept).1
      · exact .inr (List.mem_singleton.mp new ▸ List.mem_cons_self)
    · exact .inr (List.mem_cons_of_mem _ later)

theorem collectFrom_keys {index entries : List ArchivalEntry} {id : Nat} :
    id ∈ (collectFrom index entries).map entryId ↔
      id ∈ index.map entryId ∨ id ∈ entries.map entryId := by
  induction entries generalizing index with
  | nil => simp [collectFrom]
  | cons d rest ih =>
    rw [collectFrom, ih, mem_upsert_keys, List.map_cons, List.mem_cons, or_assoc]

variable {read : ReadFloat}

theorem readEntry_kept {e d : ArchivalEntry} (h : readEntry read e = some d) :
    entryId d = entryId e ∧ e.item.embedding.mapM read = some d.item.embedding := by
  obtain ⟨embedding, reads, rfl⟩ := Option.map_eq_some_iff.mp h
  exact ⟨rfl, reads⟩

theorem readings_keys {written entries : List ArchivalEntry}
    (readings : written.mapM (readEntry read) = some entries) :
    entries.map entryId = written.map entryId :=
  map_mapM (fun _ _ reads => (readEntry_kept reads).1) readings

/-- What an archive opened on a file holds are the readings of the entries in it. -/
theorem open_readings {written : ArchiveSnapshot} {expectedDim capacity : Nat} {a : Archive}
    (opened : openArchive read (some written) expectedDim capacity = .ok a) :
    a.expectedDim = expectedDim ∧ a.capacity = capacity ∧ ∃ entries,
      written.entries.mapM (readEntry read) = some entries ∧ a.index = collectFrom [] entries := by
  simp only [openArchive] at opened
  split at opened
  · cases opened
  · rename_i snapshot reads
    obtain ⟨entries, each, rfl⟩ := Option.map_eq_some_iff.mp reads
    split at opened
    · cases opened
    · cases opened
      exact ⟨rfl, rfl, entries, each, rfl⟩

theorem open_settings {disk : Option ArchiveSnapshot} {expectedDim capacity : Nat} {a : Archive}
    (opened : openArchive read disk expectedDim capacity = .ok a) :
    a.expectedDim = expectedDim ∧ a.capacity = capacity := by
  cases disk with
  | none =>
    cases opened
    exact ⟨rfl, rfl⟩
  | some written =>
    obtain ⟨dims, room, -⟩ := open_readings opened
    exact ⟨dims, room⟩

theorem open_keys {disk : Option ArchiveSnapshot} {expectedDim capacity : Nat} {a : Archive}
    (opened : openArchive read disk expectedDim capacity = .ok a) {id : Nat} :
    id ∈ a.index.map entryId ↔ id ∈ (onDisk disk).map entryId := by
  cases disk with
  | none =>
    cases opened
    rfl
  | some written =>
    obtain ⟨-, -, entries, readings, index⟩ := open_readings opened
    rw [index, collectFrom_keys, readings_keys readings]
    simp [onDisk]

/-- What is read is finite, whatever it was written for. -/
theorem JsonFloats.finite (json : JsonFloats read) {x y : F32} (h : read x = some y) :
    isFinite y = true := by
  cases kind : isFinite x with
  | false =>
    rw [json.null x kind] at h
    cases h
  | true =>
    obtain ⟨z, reads, finite⟩ := json.number x kind
    rw [reads] at h
    cases h
    exact finite

def FiniteEntry (e : ArchivalEntry) : Prop := ∀ x ∈ e.item.embedding, isFinite x = true

theorem open_finite (json : JsonFloats read) {disk : Option ArchiveSnapshot}
    {expectedDim capacity : Nat} {a : Archive}
    (opened : openArchive read disk expectedDim capacity = .ok a) :
    ∀ e ∈ a.index, FiniteEntry e := by
  intro d member y listed
  cases disk with
  | none =>
    cases opened
    cases member
  | some written =>
    obtain ⟨-, -, entries, readings, index⟩ := open_readings opened
    rw [index] at member
    rcases collectFrom_mem member with none | stored
    · cases none
    obtain ⟨e, -, reads⟩ := (mem_mapM readings).mp stored
    obtain ⟨x, -, number⟩ := (mem_mapM (readEntry_kept reads).2).mp listed
    exact json.finite number

/-- A file that a flush wrote opens to the readings of all entries. -/
theorem open_flushed {a b : Archive} {capacity : Nat}
    (opened : openArchive read (some (snapshotOf a)) a.expectedDim capacity = .ok b) :
    a.index.mapM (readEntry read) = some b.index := by
  obtain ⟨-, -, entries, readings, index⟩ := open_readings opened
  have distinct : (entries.map entryId).Nodup := readings_keys readings ▸ a.distinct
  rw [index, @collectFrom_append [] entries (by simpa using distinct)]
  exact readings

/-- Such a file opens when every float in it is finite. -/
theorem flushed_opens (json : JsonFloats read) {a : Archive}
    (finite : ∀ e ∈ a.index, FiniteEntry e) (capacity : Nat) :
    ∃ b, openArchive read (some (snapshotOf a)) a.expectedDim capacity = .ok b := by
  have each : ∀ e ∈ a.index, ∃ d, readEntry read e = some d := by
    intro e member
    obtain ⟨embedding, reads⟩ := exists_mapM fun x listed =>
      (json.number x (finite e member x listed)).imp fun _ number => number.1
    exact ⟨_, Option.map_eq_some_iff.mpr ⟨embedding, reads, rfl⟩⟩
  obtain ⟨entries, readings⟩ := exists_mapM each
  have opens : openArchive read (some (snapshotOf a)) a.expectedDim capacity =
      .ok ⟨a.expectedDim, capacity, collectFrom [] entries,
        @collectFrom_distinct [] List.nodup_nil _⟩ := by
    simp [openArchive, readSnapshot, snapshotOf, readings]
  exact ⟨_, opens⟩

/-- A demotion that does not reach its flush changes nothing, and one that does keeps the entry. -/
theorem demote_reaching (s : Stored) (call : DemoteCall) :
    (reachesFlush s.archive call.item = false ∧ (demoteStored s call).1 = s ∧
      ((∃ e, e ≠ .io ∧ (demoteStored s call).2 = .error e) ∨
        ((demoteStored s call).2 = .ok .alreadyPresent ∧
          call.item.id ∈ s.archive.index.map entryId))) ∨
    (reachesFlush s.archive call.item = true ∧
      (demoteStored s call).1.archive.index =
        s.archive.index ++ [⟨call.item, call.provenance⟩] ∧
      ((call.writes = false ∧ (demoteStored s call).2 = .error .io) ∨
        (call.writes = true ∧ (demoteStored s call).2 = .ok .inserted ∧
          (demoteStored s call).1.disk = some (snapshotOf (demoteStored s call).1.archive)))) := by
  by_cases dims : call.item.embedding.length = s.archive.expectedDim
  case neg =>
    refine .inl ⟨?_, ?_, .inl ⟨.dimensionMismatch s.archive.expectedDim
      call.item.embedding.length, ?_, ?_⟩⟩ <;>
      simp [reachesFlush, demoteStored, demote, dims]
  by_cases taken : contains s.archive call.item.id = true
  · refine .inl ⟨?_, ?_, .inr ⟨?_, (contains_iff _ _).mp taken⟩⟩ <;>
      simp [reachesFlush, demoteStored, demote, dims, taken]
  have fresh : call.item.id ∉ s.archive.index.map entryId :=
    fun h => taken ((contains_iff _ _).mpr h)
  by_cases full : s.archive.index.length < s.archive.capacity
  case neg =>
    have atCapacity : s.archive.capacity ≤ s.archive.index.length := Nat.le_of_not_lt full
    refine .inl ⟨?_, ?_, .inl ⟨.atCapacity, ?_, ?_⟩⟩ <;>
      simp [reachesFlush, demoteStored, demote, dims, taken, atCapacity]
  have room : ¬ s.archive.capacity ≤ s.archive.index.length := Nat.not_le_of_lt full
  have joined := @upsert_fresh _ _ _ entryId s.archive.index ⟨call.item, call.provenance⟩ fresh
  refine .inr ⟨by simp [reachesFlush, dims, taken, full], ?_, ?_⟩
  · cases writes : call.writes <;>
      simp [demoteStored, demote, dims, taken, room, flush, joined, writes]
  · cases writes : call.writes with
    | false => exact .inl ⟨rfl, by simp [demoteStored, demote, dims, taken, room, flush, writes]⟩
    | true =>
      refine .inr ⟨rfl, ?_, ?_⟩ <;>
        simp [demoteStored, demote, dims, taken, room, flush, writes]

/-- The file opens, has all that the archive holds, and has nothing that was neither there at the
opening nor reported. -/
structure Faithful (read : ReadFloat) (opened : Archive) (sofar : List ArchiveCall) (s : Stored) :
    Prop where
  opens : ∃ a, openArchive read s.disk s.archive.expectedDim s.archive.capacity = .ok a
  stored : ∀ id ∈ s.archive.index.map entryId, id ∈ (onDisk s.disk).map entryId
  known : ∀ id ∈ (onDisk s.disk).map entryId,
    id ∈ opened.index.map entryId ∨ Reported sofar id
  finite : ∀ e ∈ s.archive.index, FiniteEntry e

section Steps

variable {opened : Archive} {sofar : List ArchiveCall} {s : Stored}

theorem Faithful.later (faithful : Faithful read opened sofar s) (c : ArchiveCall) :
    Faithful read opened (sofar ++ [c]) s where
  opens := faithful.opens
  stored := faithful.stored
  known id listed := (faithful.known id listed).imp_right fun reported => reported.append c
  finite := faithful.finite

/-- An entry of the id is read from the file. -/
theorem Faithful.held (faithful : Faithful read opened sofar s) {id : Nat}
    (member : id ∈ s.archive.index.map entryId) : ∃ e, Held read s e ∧ entryId e = id := by
  obtain ⟨a, opens⟩ := faithful.opens
  obtain ⟨e, listed, named⟩ := List.mem_map.mp ((open_keys opens).mpr (faithful.stored id member))
  exact ⟨e, ⟨a, opens, listed⟩, named⟩

theorem exact_finite (json : JsonFloats read) {item : ArchivedItem}
    (exact : ∀ x ∈ item.embedding, read x = some x) (provenance : Provenance) :
    FiniteEntry ⟨item, provenance⟩ :=
  fun x listed => json.finite (exact x listed)

theorem Faithful.demote (json : JsonFloats read) (faithful : Faithful read opened sofar s)
    {call : DemoteCall}
    (sound : reachesFlush s.archive call.item = true →
      call.writes = true ∧ ∀ x ∈ call.item.embedding, read x = some x) :
    Faithful read opened (sofar ++ [⟨s, .demote call, some (demoteStored s call).2⟩])
      (demoteStored s call).1 := by
  rcases demote_reaching s call with ⟨-, same, -⟩ | ⟨reaches, grown, failed | ⟨-, answer, written⟩⟩
  · rw [same]
    exact faithful.later _
  · rw [(sound reaches).1] at failed
    cases failed.1
  · have reported : Reported (sofar ++ [⟨s, .demote call, some (demoteStored s call).2⟩])
        call.item.id :=
      ⟨_, List.mem_append_right _ List.mem_cons_self, call, rfl, rfl, by rw [answer]⟩
    have finite : ∀ e ∈ (demoteStored s call).1.archive.index, FiniteEntry e := by
      intro e member
      rw [grown] at member
      rcases List.mem_append.mp member with before | new
      · exact faithful.finite e before
      · exact List.mem_singleton.mp new ▸ exact_finite json (sound reaches).2 _
    have flushed : onDisk (demoteStored s call).1.disk =
        (demoteStored s call).1.archive.index := by
      rw [written]
      rfl
    refine ⟨?_, ?_, ?_, finite⟩
    · rw [written]
      exact flushed_opens json finite _
    · rw [flushed]
      exact fun _ member => member
    · intro id listed
      rw [flushed, grown, List.map_append, List.mem_append] at listed
      rcases listed with before | new
      · exact (faithful.known _ (faithful.stored id before)).imp_right
          fun reported => reported.append _
      · cases List.mem_singleton.mp new
        exact .inr reported

theorem Faithful.flush (json : JsonFloats read) (faithful : Faithful read opened sofar s)
    (writes : Bool) :
    Faithful read opened sofar ⟨s.archive, (flush s.archive s.disk writes).1⟩ := by
  cases writes with
  | false => exact faithful
  | true =>
    exact ⟨flushed_opens json faithful.finite _, fun _ member => member,
      fun id listed => faithful.known _ (faithful.stored id listed), faithful.finite⟩

theorem Faithful.reopen (json : JsonFloats read) (faithful : Faithful read opened sofar s)
    {a : Archive}
    (again : openArchive read s.disk s.archive.expectedDim s.archive.capacity = .ok a) :
    Faithful read opened sofar ⟨a, s.disk⟩ := by
  obtain ⟨dims, room⟩ := open_settings again
  refine ⟨?_, fun _ => (open_keys again).mp, faithful.known, open_finite json again⟩
  rw [dims, room]
  exact ⟨a, again⟩

end Steps

/-- No demotion that reaches its flush has its write fail, and none has a float in its embedding
that is not read as it was written. -/
def SoundDemotions (read : ReadFloat) (start : Stored) (ops : List ArchiveOp) : Prop :=
  ∀ pre call post, ops = pre ++ .demote call :: post →
    reachesFlush (Machine.final (archiveStep read) start pre).archive call.item = true →
      call.writes = true ∧ ∀ x ∈ call.item.embedding, read x = some x

theorem SoundDemotions.initial {start : Stored} {pre post : List ArchiveOp}
    (sound : SoundDemotions read start (pre ++ post)) : SoundDemotions read start pre := by
  rintro before call after rfl
  exact sound before call (after ++ post) (by simp)

section Runs

variable {disk : Option ArchiveSnapshot} {expectedDim capacity : Nat} {a : Archive}

theorem faithful_run (json : JsonFloats read)
    (opened : openArchive read disk expectedDim capacity = .ok a) {ops : List ArchiveOp}
    (sound : SoundDemotions read ⟨a, disk⟩ ops) :
    Faithful read a (Machine.trace (archiveStep read) ⟨a, disk⟩ ops)
      (Machine.final (archiveStep read) ⟨a, disk⟩ ops) := by
  induction ops using List.reverseRecOn with
  | nil =>
    obtain ⟨dims, room⟩ := open_settings opened
    refine ⟨⟨a, ?_⟩, fun _ => (open_keys opened).mp, fun _ listed =>
      .inl ((open_keys opened).mpr listed), open_finite json opened⟩
    simpa [Machine.final, dims, room] using opened
  | append_singleton pre op ih =>
    have faithful := ih sound.initial
    rw [Machine.trace_append, Machine.final_snoc]
    cases op with
    | demote call => exact faithful.demote json (sound pre call [] rfl)
    | flush flushed => exact (faithful.flush json flushed).later _
    | reopen =>
      simp only [archiveStep]
      split
      · rename_i again
        exact (faithful.reopen json again).later _
      · exact faithful.later _

/-- An entry that is read back as it was demoted has no float that is not. -/
theorem held_exact {s : Stored} (written : s.disk = some (snapshotOf s.archive))
    {e : ArchivalEntry} (member : e ∈ s.archive.index) (held : Held read s e) :
    ∀ x ∈ e.item.embedding, read x = some x := by
  obtain ⟨b, opens, listed⟩ := held
  rw [written] at opens
  obtain ⟨d, source, reads⟩ := (mem_mapM (open_flushed opens)).mp listed
  have same : d = e :=
    List.inj_on_of_nodup_map s.archive.distinct source member (readEntry_kept reads).1.symm
  rw [same] at reads
  exact readEntry_self.mp reads

/-- In a run on an opened archive every demotion is atomic exactly when none that reaches its flush
has its write fail or a float that is not read as it was written. -/
theorem demotions_atomic_iff (json : JsonFloats read)
    (opened : openArchive read disk expectedDim capacity = .ok a) (ops : List ArchiveOp) :
    (∀ pre call post, ops = pre ++ .demote call :: post →
      AtomicDemotion read a (Machine.trace (archiveStep read) ⟨a, disk⟩ pre)
        (Machine.final (archiveStep read) ⟨a, disk⟩ pre) call) ↔
    SoundDemotions read ⟨a, disk⟩ ops := by
  constructor
  · rintro atomic pre call post rfl reaches
    have atomic := atomic pre call post rfl
    rcases demote_reaching (Machine.final (archiveStep read) ⟨a, disk⟩ pre) call with
      ⟨stopped, -⟩ | ⟨-, grown, ⟨-, failed⟩ | ⟨written, answer, flushed⟩⟩
    · rw [reaches] at stopped
      cases stopped
    · rw [atomic.unchanged _ failed] at grown
      simpa using congrArg List.length grown
    · refine ⟨written, held_exact flushed ?_ (atomic.durable answer)⟩
      rw [grown]
      exact List.mem_append_right _ List.mem_cons_self
  · rintro sound pre call post rfl
    have faithful := faithful_run json opened sound.initial
    rcases demote_reaching (Machine.final (archiveStep read) ⟨a, disk⟩ pre) call with
      ⟨-, same, ⟨e, other, failed⟩ | ⟨answer, held⟩⟩ |
      ⟨reaches, grown, failed | ⟨-, answer, flushed⟩⟩
    · constructor
      · intro _ _
        exact same
      · intro io
        rw [failed] at io
        exact absurd (Except.error.inj io) other
      · simp [failed]
      · simp [failed]
    · constructor
      · intro e failed
        exact same
      · simp [answer]
      · simp [answer]
      · intro _
        rw [same]
        exact ⟨faithful.held held, faithful.known _ (faithful.stored _ held)⟩
    · rw [(sound pre call post rfl reaches).1] at failed
      cases failed.1
    · have after := faithful.demote json (sound pre call post rfl)
      obtain ⟨b, opens⟩ := after.opens
      have back := opens
      rw [flushed] at back
      constructor
      · simp [answer]
      · simp [answer]
      · intro _
        refine ⟨b, opens, (mem_mapM (open_flushed back)).mpr ⟨_, ?_,
          readEntry_self.mpr (sound pre call post rfl reaches).2⟩⟩
        rw [grown]
        exact List.mem_append_right _ List.mem_cons_self
      · simp [answer]

end Runs

/-! ## Sample runs -/

/-- Whether a demotion in a state is sound; the other operations always are. -/
def soundNow (read : ReadFloat) (s : Stored) : ArchiveOp → Bool
  | .demote call => !reachesFlush s.archive call.item ||
      call.writes && call.item.embedding.all fun x => read x = some x
  | _ => true

theorem soundDemotions_of_now {start : Stored} {ops : List ArchiveOp}
    (each : ∀ k (bound : k < ops.length),
      soundNow read (Machine.final (archiveStep read) start (ops.take k)) ops[k] = true) :
    SoundDemotions read start ops := by
  rintro pre call post rfl reaches
  have now := each pre.length (by simp)
  simpa [soundNow, reaches] using now

/-- Floats that are finite are read as they were written. -/
def exactFloats : ReadFloat := fun x => if isFinite x then some x else none

theorem exactFloats_json : JsonFloats exactFloats where
  null x infinite := by simp [exactFloats, infinite]
  number x finite := ⟨x, by simp [exactFloats, finite], finite⟩

def sampleDemotion (id : Nat) (weight : F32) (writes : Bool) : DemoteCall :=
  ⟨⟨id, [weight], []⟩, ⟨.l1, "k", 5⟩, writes⟩

def emptyStored : Stored := ⟨⟨1, 2, [], List.nodup_nil⟩, none⟩

/-- Writes fail where they may: in a public flush, for an id that is there and in a full archive. -/
def sampleRun : List ArchiveOp :=
  [.demote (sampleDemotion 7 0x3f800000#32 true), .flush false, .reopen,
    .demote (sampleDemotion 7 0x40000000#32 false), .demote (sampleDemotion 8 0x40000000#32 true),
    .demote (sampleDemotion 9 0x3f800000#32 false)]

theorem demotions_atomic_when_written :
    (Machine.trace (archiveStep exactFloats) emptyStored sampleRun).map Machine.Call.response =
      [some (.ok .inserted), none, none, some (.ok .alreadyPresent), some (.ok .inserted),
        some (.error .atCapacity)] ∧
    ∀ pre call post, sampleRun = pre ++ .demote call :: post →
      AtomicDemotion exactFloats emptyStored.archive
        (Machine.trace (archiveStep exactFloats) emptyStored pre)
        (Machine.final (archiveStep exactFloats) emptyStored pre) call := by
  refine ⟨by decide, (demotions_atomic_iff exactFloats_json rfl sampleRun).mpr ?_⟩
  apply soundDemotions_of_now
  decide

/-- After a write that failed the entry is said to be present with no file there, and an entry
with a float that is not a number makes a file that is not read again. -/
theorem failed_demotion_answered_present :
    ((demoteStored emptyStored (sampleDemotion 7 0x3f800000#32 false)).2 = .error .io ∧
      (demoteStored emptyStored (sampleDemotion 7 0x3f800000#32 false)).1 ≠ emptyStored ∧
      (demoteStored (demoteStored emptyStored (sampleDemotion 7 0x3f800000#32 false)).1
        (sampleDemotion 7 0x3f800000#32 true)).2 = .ok .alreadyPresent ∧
      (demoteStored (demoteStored emptyStored (sampleDemotion 7 0x3f800000#32 false)).1
        (sampleDemotion 7 0x3f800000#32 true)).1.disk = none) ∧
    (demoteStored emptyStored (sampleDemotion 7 0x7fc00000#32 true)).2 = .ok .inserted ∧
      openArchive exactFloats
        (demoteStored emptyStored (sampleDemotion 7 0x7fc00000#32 true)).1.disk 1 2 =
          .error .corrupt := by
  decide

end L3Archive

namespace ArchiveReaders

open ArcCache L3Archive

/-! ## A node archived and retrieved -/

variable {fl : FloatOps}

theorem restore_archived {e : ArchivalEntry} {mul : F32 → F32 → F32} {id : Nat} {key : String}
    {node : MemoryNode} (archived : e.item = archiveMemoryNode mul id key node) :
    restore e = some ⟨e, e.provenance.sourceKey, { node with sigma := 0x40000000#32 }⟩ := by
  rw [restore, archived, decode_archived]
  rfl

theorem reinsert_last (results : List ArchivalEntry) (retrieval : Retrieval) {e : ArchivalEntry}
    {r : Restored} (restored : restore e = some r) :
    Live ((results ++ [e]).foldl reinsert retrieval).l2 r.key r.node := by
  rw [List.foldl_append, List.foldl_cons, List.foldl_nil, reinsert, restored]
  exact insert_live_self _ r.key r.node

/-- A node that the search finds again comes back once, under the key it was demoted with and equal
to what was archived but for `sigma`, so equal to it exactly when its `sigma` was the default. -/
theorem retrieved_node_iff {archive : Archive} {query : List F32} {k : Nat}
    (l2 : ArcCacheInner String MemoryNode) {e : ArchivalEntry}
    (found : e ∈ search fl archive query k) {id : Nat} {key : String} {node : MemoryNode}
    (archived : e.item = archiveMemoryNode fl.mul id key node) :
    ∃ r ∈ (retrieveTopKFromL3ForL2 fl archive query k l2).inserted,
      r.entry = e ∧ r.key = e.provenance.sourceKey ∧
      (∀ s ∈ (retrieveTopKFromL3ForL2 fl archive query k l2).inserted, s.entry = e → s = r) ∧
      ((search fl archive query k).getLast? = some e →
        Live (retrieveTopKFromL3ForL2 fl archive query k l2).l2 r.key r.node) ∧
      { r.node with sigma := node.sigma } = node ∧
      (r.node = node ↔ node.sigma = 0x40000000#32) := by
  have restored := restore_archived archived
  refine ⟨⟨e, e.provenance.sourceKey, { node with sigma := 0x40000000#32 }⟩, ?_, rfl, rfl, ?_, ?_,
    rfl, ?_⟩
  · rw [inserted_eq]
    exact List.mem_filterMap.mpr ⟨e, found, restored⟩
  · intro s listed from_
    rw [inserted_eq] at listed
    obtain ⟨d, -, again⟩ := List.mem_filterMap.mp listed
    rw [← restore_entry again, from_, restored] at again
    exact (Option.some.inj again).symm
  · intro last
    obtain ⟨results, split⟩ := List.getLast?_eq_some_iff.mp last
    rw [retrieveTopKFromL3ForL2, split]
    exact reinsert_last results _ restored
  · constructor
    · intro same
      exact (congrArg MemoryNode.sigma same).symm
    · intro default
      rw [← default]

/-- The node that `sampleNode` archives; its `sigma` is one. -/
def sampleMemory : MemoryNode := ⟨one, one, ⟨one, zero⟩, one, one⟩

theorem sample_found :
    sampleNode ∈ search sampleOps sampleArchive.archive [one, one, one, zero] 1 := by
  rw [sample_search rfl 0]
  exact List.mem_cons_self

theorem sample_node_restored_iff :
    ∃ r ∈ (retrieveTopKFromL3ForL2 sampleOps sampleArchive.archive [one, one, one, zero] 1
        (ArcCache.new 4)).inserted,
      r.entry = sampleNode ∧ (r.node = sampleMemory ↔ sampleMemory.sigma = 0x40000000#32) := by
  obtain ⟨r, listed, entry, -, -, -, -, same⟩ := @retrieved_node_iff sampleOps sampleArchive.archive
    _ 1 (ArcCache.new 4) sampleNode sample_found 7 "k" sampleMemory rfl
  exact ⟨r, listed, entry, same⟩

theorem retrieved_node_reset :
    sampleNode.item = archiveMemoryNode sampleOps.mul 7 "k" sampleMemory ∧
      search sampleOps sampleArchive.archive [one, one, one, zero] 1 = [sampleNode] ∧
      (retrieveTopKFromL3ForL2 sampleOps sampleArchive.archive [one, one, one, zero] 1
        (ArcCache.new 4)).inserted.map Restored.node =
          [{ sampleMemory with sigma := 0x40000000#32 }] ∧
      { sampleMemory with sigma := 0x40000000#32 } ≠ sampleMemory := by
  refine ⟨rfl, sample_search rfl 0, ?_, by decide⟩
  rw [inserted_eq, sample_search rfl 0]
  decide

end ArchiveReaders
