import AnimaOS.ArchiveReaders

/-!
# The provenance of what the archive readers return

Somatic nodes and episodes lie in one archive with embeddings and payloads of
one shape. Neither reader asks for the source tier, so an episode comes out as a
node wherever the search leads to it.
-/

namespace ArchiveReaders

open ArcCache L3Archive

/-- Demoted from L1 or L2 by `archive_memory_node`. -/
def SomaticEntry (fl : FloatOps) (e : ArchivalEntry) : Prop :=
  (e.provenance.sourceTier = .l1 ∨ e.provenance.sourceTier = .l2) ∧
    ∃ id node, e.item = archiveMemoryNode fl.mul id e.provenance.sourceKey node

/-- Archived by `EpisodeStore::archive`. -/
def EpisodeEntry (fl : FloatOps) (e : ArchivalEntry) : Prop :=
  ∃ nowNs at_ id record, e.item = makeEpisodeArchivedItem fl nowNs id record ∧
    e.provenance = makeEpisodeProvenance at_ record

/-- An archive of somatic nodes and episodes. -/
structure MixedArchive (fl : FloatOps) where
  archive : Archive
  mixed : ∀ e ∈ archive.index, SomaticEntry fl e ∨ EpisodeEntry fl e

variable {fl : FloatOps}

theorem SomaticEntry.tier {e : ArchivalEntry} (somatic : SomaticEntry fl e) :
    e.provenance.sourceTier ≠ .episode := by
  intro episode
  rcases somatic.1 with l1 | l2
  · cases l1.symm.trans episode
  · cases l2.symm.trans episode

theorem EpisodeEntry.tier {e : ArchivalEntry} (episode : EpisodeEntry fl e) :
    e.provenance.sourceTier = .episode := by
  obtain ⟨nowNs, at_, id, record, -, provenance⟩ := episode
  rw [provenance]
  rfl

theorem MixedArchive.somatic_iff (mixed : MixedArchive fl) {e : ArchivalEntry}
    (member : e ∈ mixed.archive.index) :
    SomaticEntry fl e ↔ e.provenance.sourceTier ≠ .episode := by
  constructor
  · exact SomaticEntry.tier
  · intro tier
    exact (mixed.mixed e member).resolve_right fun episode => tier episode.tier

/-- Every entry decodes as a node, whatever it was archived as. -/
theorem MixedArchive.restores (mixed : MixedArchive fl) {e : ArchivalEntry}
    (member : e ∈ mixed.archive.index) : ∃ r, restore e = some r ∧ r.entry = e := by
  have decodes : ∃ node, decodeNodeFromPayload e.item.payload = some node := by
    rcases mixed.mixed e member with ⟨-, id, node, item⟩ | ⟨nowNs, at_, id, record, item, -⟩
    · rw [item]
      exact ⟨_, decode_archived fl.mul id _ node⟩
    · rw [item]
      exact decode_episode record
  obtain ⟨node, decoded⟩ := decodes
  exact ⟨⟨e, e.provenance.sourceKey, node⟩, by rw [restore, decoded]; rfl, rfl⟩

theorem restore_entry {e : ArchivalEntry} {r : Restored} (restored : restore e = some r) :
    r.entry = e := by
  obtain ⟨node, -, rfl⟩ := Option.map_eq_some_iff.mp restored
  rfl

/-- Every node of the list was archived as one. -/
def AllSomatic (fl : FloatOps) (nodes : List Restored) : Prop :=
  ∀ r ∈ nodes, SomaticEntry fl r.entry

/-! ## Retrieval -/

theorem retrieved_somatic_iff (mixed : MixedArchive fl) (query : List F32) (k : Nat)
    (l2 : ArcCacheInner String MemoryNode) :
    AllSomatic fl (retrieveTopKFromL3ForL2 fl mixed.archive query k l2).inserted ↔
      ∀ e ∈ search fl mixed.archive query k, e.provenance.sourceTier ≠ .episode := by
  rw [inserted_eq]
  constructor
  · intro somatic e found
    obtain ⟨r, restored, rfl⟩ := mixed.restores (mem_search found)
    exact (somatic r (List.mem_filterMap.mpr ⟨r.entry, found, restored⟩)).tier
  · intro none r listed
    obtain ⟨e, found, restored⟩ := List.mem_filterMap.mp listed
    cases restore_entry restored
    exact (mixed.somatic_iff (mem_search found)).mpr (none _ found)

/-! ## Replay -/

theorem mem_sampled {archive : Archive} {config : ReplayConfig} {e : ArchivalEntry}
    (listed : e ∈ sampled archive config) : e ∈ archive.index :=
  mem_entries.mp (List.mem_of_mem_take listed)

theorem rollback_nodes (archive : Archive) (config : ReplayConfig) :
    (runReplayValidation fl archive config).2 =
      if triggersRollback fl archive config then failedEntries fl archive config else [] := by
  rw [runReplayValidation]
  split
  · rename_i empty
    have failed : failedEntries fl archive config = [] := by
      rw [failedEntries, List.length_eq_zero_iff.mp empty]
      rfl
    rw [failed, ite_self]
  · rfl

theorem mem_rollback {archive : Archive} {config : ReplayConfig} {r : Restored} :
    r ∈ (runReplayValidation fl archive config).2 ↔
      triggersRollback fl archive config = true ∧ ∃ e ∈ sampled archive config,
        matched fl archive e = false ∧ restore e = some r := by
  rw [rollback_nodes]
  split
  · rename_i triggers
    have enabled : config.rollbackEnabled = true := by
      rw [triggersRollback, Bool.and_eq_true] at triggers
      exact triggers.1
    simp only [failedEntries, List.mem_filterMap, enabled, if_true, triggers, true_and]
    constructor
    · rintro ⟨e, listed, restored⟩
      split at restored
      · cases restored
      · rename_i missed
        exact ⟨e, listed, Bool.not_eq_true _ ▸ missed, restored⟩
    · rintro ⟨e, listed, missed, restored⟩
      refine ⟨e, listed, ?_⟩
      rw [missed]
      exact restored
  · rename_i quiet
    constructor
    · intro listed
      cases listed
    · rintro ⟨triggers, -⟩
      exact absurd triggers quiet

theorem rollback_somatic_iff (mixed : MixedArchive fl) (config : ReplayConfig) :
    AllSomatic fl (runReplayValidation fl mixed.archive config).2 ↔
      (triggersRollback fl mixed.archive config = true →
        ∀ e ∈ sampled mixed.archive config, e.provenance.sourceTier = .episode →
          matched fl mixed.archive e = true) := by
  constructor
  · intro somatic triggers e listed episode
    obtain ⟨r, restored, rfl⟩ := mixed.restores (mem_sampled listed)
    by_contra missed
    have returned := mem_rollback.mpr ⟨triggers, r.entry, listed, by simpa using missed, restored⟩
    exact (somatic r returned).tier episode
  · intro validated r returned
    obtain ⟨triggers, e, listed, missed, restored⟩ := mem_rollback.mp returned
    cases restore_entry restored
    refine (mixed.somatic_iff (mem_sampled listed)).mpr fun episode => ?_
    rw [validated triggers _ listed episode] at missed
    cases missed

/-- Every node that replay rolls back and every node that retrieval inserts was archived as a node,
exactly when no sampled episode fails its replay query in a cycle that rolls back and no episode is
among the search results. -/
theorem readers_respect_provenance_iff (mixed : MixedArchive fl) (config : ReplayConfig)
    (query : List F32) (k : Nat) (l2 : ArcCacheInner String MemoryNode) :
    AllSomatic fl (runReplayValidation fl mixed.archive config).2 ∧
        AllSomatic fl (retrieveTopKFromL3ForL2 fl mixed.archive query k l2).inserted ↔
      (triggersRollback fl mixed.archive config = true →
        ∀ e ∈ sampled mixed.archive config, e.provenance.sourceTier = .episode →
          matched fl mixed.archive e = true) ∧
      ∀ e ∈ search fl mixed.archive query k, e.provenance.sourceTier ≠ .episode := by
  rw [rollback_somatic_iff, retrieved_somatic_iff]

/-- Over all queries, retrieval keeps to nodes exactly when the archive holds no episode. -/
theorem retrieval_respects_provenance_iff (mixed : MixedArchive fl)
    (l2 : ArcCacheInner String MemoryNode) :
    (∀ query k, AllSomatic fl (retrieveTopKFromL3ForL2 fl mixed.archive query k l2).inserted) ↔
      ∀ e ∈ mixed.archive.index, e.provenance.sourceTier ≠ .episode := by
  constructor
  · intro somatic e member
    have dims : (List.replicate mixed.archive.expectedDim zero).length =
        mixed.archive.expectedDim := List.length_replicate
    exact (retrieved_somatic_iff mixed _ _ l2).mp (somatic _ _) e
      (search_all dims (Nat.lt_succ_self _) member)
  · intro none query k
    exact (retrieved_somatic_iff mixed query k l2).mpr fun e found => none e (mem_search found)

/-! ## One archive, read both ways -/

/-- Float arithmetic on the values that come up: products with one, parallel vectors, halves, and
nonnegative floats, which compare as their bit patterns do. -/
def sampleOps : FloatOps where
  mul a b := if a = one then b else if b = one then a else zero
  compare a b := some (Ord.compare a.toNat b.toNat)
  cosineSimilarity _ _ := one
  ratio a b := if a = b then one else if a = 1 ∧ b = 2 then 0x3f000000#32 else zero
  decay ns := if ns = 0 then one else zero
  lengthShare _ := zero

def sampleRecord : EpisodeRecord :=
  ⟨"t1", "task", "mid-tier", 5#64, 5#64, "success", ""⟩

def sampleEpisode : ArchivalEntry :=
  ⟨makeEpisodeArchivedItem sampleOps 5 9 sampleRecord, makeEpisodeProvenance 5 sampleRecord⟩

def sampleNode : ArchivalEntry :=
  ⟨archiveMemoryNode sampleOps.mul 7 "k" ⟨one, one, ⟨one, zero⟩, one, one⟩, ⟨.l1, "k", 5⟩⟩

/-- A node and an episode with the same embedding; the node has the smaller id. -/
def sampleArchive : MixedArchive sampleOps where
  archive := ⟨4, 8, [sampleNode, sampleEpisode], by decide⟩
  mixed := by
    intro e member
    rcases List.mem_cons.mp member with rfl | member
    · exact .inl ⟨.inl rfl, 7, _, rfl⟩
    · cases List.mem_singleton.mp member
      exact .inr ⟨5, 5, 9, sampleRecord, rfl, rfl⟩

/-- `ReplayConfig::default`. -/
def defaultReplay : ReplayConfig := ⟨0x3f4ccccd#32, 16, true⟩

theorem sample_search {query : List F32} (dims : query.length = 4) (k : Nat) :
    search sampleOps sampleArchive.archive query (k + 1) =
      [sampleNode, sampleEpisode].take (k + 1) := by
  have ranked : [(one, sampleNode), (one, sampleEpisode)].Pairwise
      (fun a b => ranksBefore sampleOps a b = true) := by decide
  exact search_ranked dims (Nat.succ_ne_zero k) ranked

theorem sample_sampled : sampled sampleArchive.archive defaultReplay =
    [sampleNode, sampleEpisode] := by
  have ordered : [sampleNode, sampleEpisode].Pairwise
      (fun a b => decide (entryId a ≤ entryId b) = true) := by decide
  exact sampled_ordered ordered

theorem sample_matched (e : ArchivalEntry) (dims : e.item.embedding.length = 4) :
    matched sampleOps sampleArchive.archive e = decide (entryId sampleNode = entryId e) := by
  rw [matched, sample_search dims]
  rfl

theorem sample_node_found : matched sampleOps sampleArchive.archive sampleNode = true := by
  rw [sample_matched _ rfl]
  rfl

theorem sample_episode_missed :
    matched sampleOps sampleArchive.archive sampleEpisode = false := by
  rw [sample_matched _ rfl]
  rfl

theorem sample_triggers :
    triggersRollback sampleOps sampleArchive.archive defaultReplay = true := by
  rw [triggersRollback, accuracy, sample_sampled]
  simp only [List.countP_cons, sample_node_found, sample_episode_missed]
  decide

theorem episode_read_as_node :
    ¬ AllSomatic sampleOps (runReplayValidation sampleOps sampleArchive.archive defaultReplay).2 ∧
      ¬ AllSomatic sampleOps
        (retrieveTopKFromL3ForL2 sampleOps sampleArchive.archive [one, one, one, zero] 2
          (ArcCache.new 4)).inserted := by
  constructor
  · rw [rollback_somatic_iff]
    intro validated
    have found := validated sample_triggers sampleEpisode (by rw [sample_sampled]; simp) rfl
    rw [sample_episode_missed] at found
    cases found
  · rw [retrieved_somatic_iff, sample_search rfl]
    intro none
    exact none sampleEpisode (by simp) rfl

end ArchiveReaders
