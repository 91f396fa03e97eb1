import AnimaOS.ArcCache
import AnimaOS.L3Archive

/-!
# Readers of the L3 archive

Replay validation and retrieval into L2, and the episodes that share the
archive with the somatic nodes. Float arithmetic is a parameter.
-/

namespace ArchiveReaders

open ArcCache L3Archive

structure FloatOps where
  mul : F32 → F32 → F32
  /-- `partial_cmp`. -/
  compare : F32 → F32 → Option Ordering
  cosineSimilarity : List F32 → List F32 → F32
  /-- `a as f32 / b as f32`. -/
  ratio : Nat → Nat → F32
  /-- `1 / (1 + seconds)` for a number of nanoseconds. -/
  decay : Nat → F32
  /-- `(len / 256).min(1)`. -/
  lengthShare : Nat → F32

def zero : F32 := 0x00000000#32

def one : F32 := 0x3f800000#32

/-! ## Episodes -/

structure EpisodeRecord where
  invocationId : String
  eventClass : String
  routeId : String
  startedAtNs : BitVec 64
  endedAtNs : BitVec 64
  outcome : String
  summary : String
  deriving DecidableEq, Repr

def toLeBytes64 (x : BitVec 64) : List (BitVec 8) :=
  [x.extractLsb' 0 8, x.extractLsb' 8 8, x.extractLsb' 16 8, x.extractLsb' 24 8,
    x.extractLsb' 32 8, x.extractLsb' 40 8, x.extractLsb' 48 8, x.extractLsb' 56 8]

def embedEpisode (fl : FloatOps) (nowNs : Nat) (record : EpisodeRecord) : List F32 :=
  [if record.outcome = "success" then one else zero,
    fl.decay (record.endedAtNs.toNat - record.startedAtNs.toNat),
    fl.decay (nowNs - record.endedAtNs.toNat), fl.lengthShare record.summary.utf8ByteSize]

def packEpisodePayload (record : EpisodeRecord) : List (BitVec 8) :=
  toLeBytes64 record.startedAtNs ++ toLeBytes64 record.endedAtNs ++
    toLeBytes (BitVec.ofNat 32 record.summary.utf8ByteSize)

def makeEpisodeArchivedItem (fl : FloatOps) (nowNs id : Nat) (record : EpisodeRecord) :
    ArchivedItem :=
  ⟨id, embedEpisode fl nowNs record, packEpisodePayload record⟩

def makeEpisodeProvenance (nowNs : Nat) (record : EpisodeRecord) : Provenance where
  sourceTier := .episode
  sourceKey := record.invocationId ++ "|" ++ record.eventClass ++ "|" ++ record.routeId ++ "|" ++
    record.outcome ++ "|" ++ record.summary
  demotedAtNs := nowNs

/-! ## Reading the archive -/

def entries (archive : Archive) : List ArchivalEntry :=
  archive.index.mergeSort fun a b => entryId a ≤ entryId b

/-- Descending similarity, then ascending id; incomparable similarities count as equal. -/
def ranksBefore (fl : FloatOps) (a b : F32 × ArchivalEntry) : Bool :=
  (((fl.compare b.1 a.1).getD .eq).then (compare (entryId a.2) (entryId b.2))).isLE

def search (fl : FloatOps) (archive : Archive) (query : List F32) (k : Nat) :
    List ArchivalEntry :=
  if query.length ≠ archive.expectedDim ∨ k = 0 then []
  else
    let scored := archive.index.map fun e => (fl.cosineSimilarity query e.item.embedding, e)
    ((scored.mergeSort (ranksBefore fl)).take k).map Prod.snd

def ofLeBytes (b0 b1 b2 b3 : BitVec 8) : F32 := (b3 ++ b2 ++ b1 ++ b0 : BitVec (8 + 8 + 8 + 8))

/-- `MemoryNode::new` with the decoded values; the payload does not hold `sigma`. -/
def decodeNodeFromPayload : List (BitVec 8) → Option MemoryNode
  | a0 :: a1 :: a2 :: a3 :: b0 :: b1 :: b2 :: b3 :: c0 :: c1 :: c2 :: c3 :: d0 :: d1 :: d2 :: d3 ::
      e0 :: e1 :: e2 :: e3 :: _ =>
    some
      { initialActivation := ofLeBytes a0 a1 a2 a3
        lambda := ofLeBytes b0 b1 b2 b3
        emotion := ⟨ofLeBytes d0 d1 d2 d3, ofLeBytes e0 e1 e2 e3⟩
        alpha := ofLeBytes c0 c1 c2 c3
        sigma := 0x40000000#32 }
  | _ => none

/-- A node that a reader hands on, with the entry it was decoded from. -/
structure Restored where
  entry : ArchivalEntry
  key : String
  node : MemoryNode
  deriving DecidableEq, Repr

def restore (entry : ArchivalEntry) : Option Restored :=
  (decodeNodeFromPayload entry.item.payload).map fun node =>
    ⟨entry, entry.provenance.sourceKey, node⟩

/-! ## Replay validation -/

structure ReplayConfig where
  accuracyThreshold : F32
  maxSampleSize : Nat
  rollbackEnabled : Bool
  deriving DecidableEq, Repr

structure ReplayReport where
  queriesRun : Nat
  queriesValidated : Nat
  accuracy : F32
  rolledBack : Nat
  threshold : F32
  triggeredRollback : Bool
  deriving DecidableEq, Repr

def sampled (archive : Archive) (config : ReplayConfig) : List ArchivalEntry :=
  (entries archive).take config.maxSampleSize

/-- The top result for the entry's own embedding has the entry's id. -/
def matched (fl : FloatOps) (archive : Archive) (entry : ArchivalEntry) : Bool :=
  (search fl archive entry.item.embedding 1).head?.any fun r => entryId r = entryId entry

def accuracy (fl : FloatOps) (archive : Archive) (config : ReplayConfig) : F32 :=
  fl.ratio ((sampled archive config).countP (matched fl archive)) (sampled archive config).length

/-- Rollback is enabled and the accuracy is strictly below the threshold. -/
def triggersRollback (fl : FloatOps) (archive : Archive) (config : ReplayConfig) : Bool :=
  config.rollbackEnabled &&
    fl.compare (accuracy fl archive config) config.accuracyThreshold = some .lt

def failedEntries (fl : FloatOps) (archive : Archive) (config : ReplayConfig) : List Restored :=
  (sampled archive config).filterMap fun entry =>
    if matched fl archive entry then none
    else if config.rollbackEnabled then restore entry
    else none

def runReplayValidation (fl : FloatOps) (archive : Archive) (config : ReplayConfig) :
    ReplayReport × List Restored :=
  let queriesRun := (sampled archive config).length
  if queriesRun = 0 then (⟨0, 0, one, 0, config.accuracyThreshold, false⟩, [])
  else
    let rollbackNodes :=
      if triggersRollback fl archive config then failedEntries fl archive config else []
    (⟨queriesRun, (sampled archive config).countP (matched fl archive), accuracy fl archive config,
        rollbackNodes.length, config.accuracyThreshold, triggersRollback fl archive config⟩,
      rollbackNodes)

/-! ## Retrieval into L2 -/

/-- The cache after the retrieval and the nodes it was given, whose number is returned. -/
structure Retrieval where
  l2 : ArcCacheInner String MemoryNode
  inserted : List Restored
  deriving DecidableEq, Repr

def reinsert (retrieval : Retrieval) (entry : ArchivalEntry) : Retrieval :=
  match restore entry with
  | none => retrieval
  | some r => ⟨insert retrieval.l2 r.key r.node, retrieval.inserted ++ [r]⟩

def retrieveTopKFromL3ForL2 (fl : FloatOps) (archive : Archive) (query : List F32) (k : Nat)
    (l2 : ArcCacheInner String MemoryNode) : Retrieval :=
  (search fl archive query k).foldl reinsert ⟨l2, []⟩

theorem foldl_reinsert (results : List ArchivalEntry) (retrieval : Retrieval) :
    (results.foldl reinsert retrieval).inserted =
      retrieval.inserted ++ results.filterMap restore := by
  induction results generalizing retrieval with
  | nil => exact (List.append_nil _).symm
  | cons entry rest ih =>
    rw [List.foldl_cons, ih, List.filterMap_cons, reinsert]
    cases restore entry with
    | none => rfl
    | some r => exact List.append_assoc _ _ _

theorem inserted_eq (fl : FloatOps) (archive : Archive) (query : List F32) (k : Nat)
    (l2 : ArcCacheInner String MemoryNode) :
    (retrieveTopKFromL3ForL2 fl archive query k l2).inserted =
      (search fl archive query k).filterMap restore := by
  rw [retrieveTopKFromL3ForL2, foldl_reinsert]
  rfl

/-! ## Decoding -/

theorem ofLeBytes_toLeBytes (x : F32) :
    ofLeBytes (x.extractLsb' 0 8) (x.extractLsb' 8 8) (x.extractLsb' 16 8) (x.extractLsb' 24 8) =
      x := by
  rw [ofLeBytes]
  ext i bound
  simp only [BitVec.getElem_append, BitVec.getElem_extractLsb']
  grind

/-- A node comes back from its payload, with the default `sigma`. -/
theorem decode_archived (mul : F32 → F32 → F32) (id : Nat) (key : String) (node : MemoryNode) :
    decodeNodeFromPayload (archiveMemoryNode mul id key node).payload =
      some { node with sigma := 0x40000000#32 } := by
  have decoded : decodeNodeFromPayload (archiveMemoryNode mul id key node).payload =
      some
        { initialActivation := ofLeBytes _ _ _ _
          lambda := ofLeBytes _ _ _ _
          emotion := ⟨ofLeBytes _ _ _ _, ofLeBytes _ _ _ _⟩
          alpha := ofLeBytes _ _ _ _
          sigma := 0x40000000#32 } := rfl
  rw [decoded]
  simp only [ofLeBytes_toLeBytes]

/-- The payload of an episode has the length of a node's payload, so it decodes too. -/
theorem decode_episode (record : EpisodeRecord) :
    ∃ node, decodeNodeFromPayload (packEpisodePayload record) = some node := ⟨_, rfl⟩

/-! ## Searching -/

theorem mem_entries {archive : Archive} {e : ArchivalEntry} :
    e ∈ entries archive ↔ e ∈ archive.index := List.mem_mergeSort

theorem mem_search {fl : FloatOps} {archive : Archive} {query : List F32} {k : Nat}
    {e : ArchivalEntry} (found : e ∈ search fl archive query k) : e ∈ archive.index := by
  rw [search] at found
  split at found
  · cases found
  · obtain ⟨scored, listed, rfl⟩ := List.mem_map.mp found
    obtain ⟨e, member, rfl⟩ := List.mem_map.mp (List.mem_mergeSort.mp (List.mem_of_mem_take listed))
    exact member

/-- An index that is already ranked for the query is cut as it stands. -/
theorem search_ranked {fl : FloatOps} {archive : Archive} {query : List F32} {k : Nat}
    (dims : query.length = archive.expectedDim) (some : k ≠ 0)
    (ranked : (archive.index.map fun e => (fl.cosineSimilarity query e.item.embedding, e)).Pairwise
      (fun a b => ranksBefore fl a b = true)) :
    search fl archive query k = archive.index.take k := by
  have asked : ¬ (query.length ≠ archive.expectedDim ∨ k = 0) := by
    rintro (other | none)
    · exact other dims
    · exact some none
  rw [search, if_neg asked]
  dsimp only
  rw [List.mergeSort_of_pairwise ranked, List.map_take, List.map_map]
  simp [Function.comp_def]

theorem sampled_ordered {archive : Archive} {config : ReplayConfig}
    (ordered : archive.index.Pairwise fun a b => decide (entryId a ≤ entryId b) = true) :
    sampled archive config = archive.index.take config.maxSampleSize := by
  rw [sampled, entries, List.mergeSort_of_pairwise ordered]

/-- A query of the right dimension finds every entry when `k` is large enough. -/
theorem search_all {fl : FloatOps} {archive : Archive} {query : List F32} {k : Nat}
    (dims : query.length = archive.expectedDim) (wide : archive.index.length < k)
    {e : ArchivalEntry} (member : e ∈ archive.index) : e ∈ search fl archive query k := by
  have asked : ¬ (query.length ≠ archive.expectedDim ∨ k = 0) := by
    rintro (other | rfl)
    · exact other dims
    · exact absurd wide (Nat.not_lt_zero _)
  rw [search, if_neg asked]
  dsimp only
  rw [List.take_of_length_le]
  · refine List.mem_map.mpr ⟨(fl.cosineSimilarity query e.item.embedding, e), ?_, rfl⟩
    exact List.mem_mergeSort.mpr (List.mem_map.mpr ⟨e, member, rfl⟩)
  · rw [List.length_mergeSort, List.length_map]
    exact Nat.le_of_lt wide

end ArchiveReaders
