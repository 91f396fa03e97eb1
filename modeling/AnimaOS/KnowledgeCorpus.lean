import AnimaOS.L3Archive
import AnimaOS.Machine
import AnimaOS.Utf8Text

/-!
# The knowledge corpus

Documents ingested into the L3 archive. The ingester looks for the source key,
the archive for the id, and the ids are shared with every other tier. The
embedding of a text is a parameter: its four components are floats.
-/

namespace KnowledgeCorpus

open L3Archive

/-- The archive with its file, and the caller's counter of ids. -/
structure Corpus where
  archive : Archive
  disk : Option ArchiveSnapshot
  nextId : Nat
  deriving DecidableEq, Repr

abbrev Answer := Except L3ArchiveError DemotionOutcome

def isKnowledgeOf (sourceKey : String) (e : ArchivalEntry) : Bool :=
  e.provenance.sourceTier = .knowledge && e.provenance.sourceKey = sourceKey

/-- Twenty bytes: the start of the payload, padded with zeros. -/
def packed (payload : List (BitVec 8)) : List (BitVec 8) :=
  payload.take 20 ++ List.replicate (20 - min payload.length 20) 0

/-- The counter is a 64-bit word that wraps around. -/
def advance (nextId : Nat) : Nat := (nextId + 1) % 2 ^ 64

def knowledgeItem (s : Corpus) (embedding : List F32) (payload : List (BitVec 8)) :
    ArchivedItem := ⟨s.nextId, embedding, packed payload⟩

def ingestDocumentEmbedded (s : Corpus) (sourceKey : String) (embedding : List F32)
    (payload : List (BitVec 8)) (now : Nat) (writes : Bool) : Corpus × Answer :=
  if s.archive.index.any (isKnowledgeOf sourceKey) then (s, .ok .alreadyPresent)
  else
    let prov : Provenance := ⟨.knowledge, sourceKey, now⟩
    let d := demote s.archive s.disk (knowledgeItem s embedding payload) prov writes
    match d.result with
    | .ok .inserted => (⟨d.archive, d.disk, advance s.nextId⟩, d.result)
    | _ => (⟨d.archive, d.disk, s.nextId⟩, d.result)

section Texts

variable (embedTextKnowledge : String → Vector F32 4)

def ingestDocument (s : Corpus) (sourceKey text : String) (now : Nat) (writes : Bool) :
    Corpus × Answer :=
  ingestDocumentEmbedded s sourceKey (embedTextKnowledge text).toList
    ((Utf8Text.bytes text).map UInt8.toBitVec) now writes

/-! ## Calls -/

/-- What one of the two calls is given besides the key. -/
inductive Document where
  | text (contents : String)
  | embedded (embedding : List F32) (payload : List (BitVec 8))
  deriving DecidableEq, Repr

structure IngestCall where
  sourceKey : String
  document : Document
  now : Nat
  writes : Bool
  deriving DecidableEq, Repr

def ingest (s : Corpus) (call : IngestCall) : Corpus × Answer :=
  match call.document with
  | .text contents =>
    ingestDocument embedTextKnowledge s call.sourceKey contents call.now call.writes
  | .embedded embedding payload =>
    ingestDocumentEmbedded s call.sourceKey embedding payload call.now call.writes

def Document.embedding : Document → List F32
  | .text contents => (embedTextKnowledge contents).toList
  | .embedded embedding _ => embedding

/-- How many Knowledge entries have the key. -/
def copies (sourceKey : String) (s : Corpus) : Nat :=
  s.archive.index.countP (isKnowledgeOf sourceKey)

/-- The document fits the archive, but its id is that of another entry. -/
def Collides (s : Corpus) (call : IngestCall) : Prop :=
  (call.document.embedding embedTextKnowledge).length = s.archive.expectedDim ∧
    s.nextId ∈ s.archive.index.map entryId

instance (s : Corpus) (call : IngestCall) : Decidable (Collides embedTextKnowledge s call) :=
  inferInstanceAs (Decidable (_ ∧ _))

/-! ## What a call does -/

/-- What an ingestion can come to. -/
inductive Ingestion (s : Corpus) (call : IngestCall) : Corpus × Answer → Prop where
  | known (listed : copies call.sourceKey s ≠ 0) : Ingestion s call (s, .ok .alreadyPresent)
  | collided (new : copies call.sourceKey s = 0) (collides : Collides embedTextKnowledge s call) :
    Ingestion s call (s, .ok .alreadyPresent)
  | refused (after : Corpus) (error : L3ArchiveError) (new : copies call.sourceKey s = 0)
      (apart : ¬Collides embedTextKnowledge s call)
      (others : ∀ other ≠ call.sourceKey, copies other after = copies other s) :
    Ingestion s call (after, .error error)
  | inserted (after : Corpus) (new : copies call.sourceKey s = 0)
      (apart : ¬Collides embedTextKnowledge s call) (kept : copies call.sourceKey after = 1)
      (others : ∀ other ≠ call.sourceKey, copies other after = copies other s) :
    Ingestion s call (after, .ok .inserted)

end Texts

theorem copies_pos {sourceKey : String} {s : Corpus} :
    s.archive.index.any (isKnowledgeOf sourceKey) = true ↔ copies sourceKey s ≠ 0 := by
  rw [copies, ← Nat.pos_iff_ne_zero, List.countP_pos_iff, List.any_eq_true]

theorem copies_snoc {s after : Corpus} {e : ArchivalEntry}
    (grown : after.archive.index = s.archive.index ++ [e]) (sourceKey : String) :
    copies sourceKey after = copies sourceKey s + if isKnowledgeOf sourceKey e then 1 else 0 := by
  rw [copies, grown, List.countP_append, List.countP_singleton, copies]

theorem demote_collides (a : Archive) (disk : Option ArchiveSnapshot) {item : ArchivedItem}
    (dims : item.embedding.length = a.expectedDim) (taken : item.id ∈ a.index.map entryId)
    (provenance : Provenance) (writes : Bool) :
    demote a disk item provenance writes = ⟨a, disk, .ok .alreadyPresent⟩ := by
  have present : contains a item.id = true := (contains_iff a item.id).mpr taken
  simp [demote, dims, present]

section Ingesting

variable {embedTextKnowledge : String → Vector F32 4}

/-- Both calls are the embedded one, at the embedding of the document. -/
theorem ingest_embedded (s : Corpus) (call : IngestCall) :
    ∃ payload, ingest embedTextKnowledge s call = ingestDocumentEmbedded s call.sourceKey
      (call.document.embedding embedTextKnowledge) payload call.now call.writes := by
  simp only [ingest]
  cases call.document with
  | text contents => exact ⟨_, rfl⟩
  | embedded embedding payload => exact ⟨payload, rfl⟩

theorem ingest_cases (s : Corpus) (call : IngestCall) :
    Ingestion embedTextKnowledge s call (ingest embedTextKnowledge s call) := by
  obtain ⟨payload, same⟩ := @ingest_embedded embedTextKnowledge s call
  rw [same, ingestDocumentEmbedded]
  split
  · rename_i listed
    exact .known (copies_pos.mp listed)
  · rename_i absent
    have new : copies call.sourceKey s = 0 := by
      by_contra listed
      exact absent (copies_pos.mpr listed)
    dsimp only
    generalize made : knowledgeItem s (call.document.embedding embedTextKnowledge) payload = item
    have dims : item.embedding = call.document.embedding embedTextKnowledge := made ▸ rfl
    have id : item.id = s.nextId := made ▸ rfl
    by_cases collides : Collides embedTextKnowledge s call
    · obtain ⟨fits, taken⟩ := collides
      rw [demote_collides s.archive s.disk (dims ▸ fits) (id ▸ taken)]
      exact .collided new ⟨fits, taken⟩
    · have outcomes := demote_cases s.archive s.disk item
        ⟨.knowledge, call.sourceKey, call.now⟩ call.writes
      generalize demote s.archive s.disk item ⟨.knowledge, call.sourceKey, call.now⟩
        call.writes = d at outcomes ⊢
      have own : isKnowledgeOf call.sourceKey
          ⟨item, ⟨.knowledge, call.sourceKey, call.now⟩⟩ = true := by simp [isKnowledgeOf]
      have foreign : ∀ other ≠ call.sourceKey, isKnowledgeOf other
          ⟨item, ⟨.knowledge, call.sourceKey, call.now⟩⟩ = false := by
        intro other apart
        simp [isKnowledgeOf, apart.symm]
      rcases outcomes with ⟨unchanged, -, ⟨e, failed⟩ | ⟨-, fits, taken⟩⟩ |
          ⟨-, -, grown, ⟨-, failed⟩ | ⟨-, answered⟩⟩
      · rw [failed]
        refine .refused _ e new collides fun other _ => ?_
        rw [copies, copies, unchanged]
      · exact absurd ⟨dims ▸ fits, id ▸ taken⟩ collides
      · rw [failed]
        refine .refused _ .io new collides fun other apart => ?_
        rw [@copies_snoc s _ _ grown, if_neg (by simp [foreign other apart]), Nat.add_zero]
      · rw [answered]
        refine .inserted _ new collides ?_ fun other apart => ?_
        · rw [@copies_snoc s _ _ grown, if_pos own, new]
        · rw [@copies_snoc s _ _ grown, if_neg (by simp [foreign other apart]), Nat.add_zero]

theorem copies_other (s : Corpus) (call : IngestCall) {other : String}
    (apart : other ≠ call.sourceKey) :
    copies other (ingest embedTextKnowledge s call).1 = copies other s := by
  have outcome := @ingest_cases embedTextKnowledge s call
  generalize ingest embedTextKnowledge s call = r at outcome ⊢
  cases outcome with
  | known => rfl
  | collided => rfl
  | refused after error new collides others => exact others other apart
  | inserted after new collides kept others => exact others other apart

/-! ## Kept documents -/

variable (embedTextKnowledge) in
/-- The answers of one call are true of the corpus before and after it. -/
structure Kept (s : Corpus) (call : IngestCall) : Prop where
  stored : ∀ outcome, (ingest embedTextKnowledge s call).2 = .ok outcome →
    copies call.sourceKey (ingest embedTextKnowledge s call).1 = 1
  present : (ingest embedTextKnowledge s call).2 = .ok .alreadyPresent ↔
    copies call.sourceKey s ≠ 0

variable (embedTextKnowledge) in
/-- No key is there twice, and a new document does not meet the id of another entry. -/
structure Accepts (s : Corpus) (call : IngestCall) : Prop where
  single : copies call.sourceKey s ≤ 1
  free : copies call.sourceKey s = 0 → ¬Collides embedTextKnowledge s call

theorem kept_iff (s : Corpus) (call : IngestCall) :
    Kept embedTextKnowledge s call ↔ Accepts embedTextKnowledge s call := by
  have outcome := @ingest_cases embedTextKnowledge s call
  constructor
  · rintro ⟨stored, present⟩
    generalize ingest embedTextKnowledge s call = r at outcome stored present
    cases outcome with
    | known listed => exact ⟨(stored _ rfl).le, fun new => absurd new listed⟩
    | collided new => exact absurd new (present.mp rfl)
    | refused after error new apart => exact ⟨new.trans_le zero_le_one, fun _ => apart⟩
    | inserted after new apart => exact ⟨new.trans_le zero_le_one, fun _ => apart⟩
  · rintro ⟨single, free⟩
    have answers : (∀ outcome, (ingest embedTextKnowledge s call).2 = .ok outcome →
        copies call.sourceKey (ingest embedTextKnowledge s call).1 = 1) ∧
        ((ingest embedTextKnowledge s call).2 = .ok .alreadyPresent ↔
          copies call.sourceKey s ≠ 0) := by
      generalize ingest embedTextKnowledge s call = r at outcome ⊢
      cases outcome with
      | known listed => simpa [listed] using Nat.le_antisymm single (Nat.pos_of_ne_zero listed)
      | collided new collides => exact absurd collides (free new)
      | refused after error new => simp [new]
      | inserted after new apart kept => simp [new, kept]
    exact ⟨answers.1, answers.2⟩

/-- For a new key the collision is all that matters. -/
theorem new_stored_iff {s : Corpus} {call : IngestCall} (new : copies call.sourceKey s = 0) :
    (∀ outcome, (ingest embedTextKnowledge s call).2 = .ok outcome →
        copies call.sourceKey (ingest embedTextKnowledge s call).1 = 1) ↔
      ¬Collides embedTextKnowledge s call := by
  have outcome := @ingest_cases embedTextKnowledge s call
  generalize ingest embedTextKnowledge s call = r at outcome ⊢
  cases outcome with
  | known listed => exact absurd new listed
  | collided _ collides => simp [new, collides]
  | refused after error _ apart => simp [apart]
  | inserted after _ apart kept => simp [apart, kept]

/-! ## Runs -/

abbrev IngestRun := Machine.Call Corpus IngestCall Answer

theorem final_copies {sourceKey : String} {calls : List IngestCall} (s : Corpus)
    (others : ∀ call ∈ calls, call.sourceKey ≠ sourceKey) :
    copies sourceKey (Machine.final (ingest embedTextKnowledge) s calls) = copies sourceKey s := by
  induction calls generalizing s with
  | nil => rfl
  | cons call rest ih =>
    rw [Machine.final, ih _ fun later listed => others later (List.mem_cons_of_mem _ listed)]
    exact copies_other s call (others call List.mem_cons_self).symm

/-- Every call of a run over new and pairwise different keys meets its key new, and what it leaves
of the key stays. -/
theorem run_copies {s : Corpus} {calls : List IngestCall}
    (distinct : (calls.map IngestCall.sourceKey).Nodup)
    (new : ∀ call ∈ calls, copies call.sourceKey s = 0) {c : IngestRun}
    (met : c ∈ Machine.trace (ingest embedTextKnowledge) s calls) :
    copies c.request.sourceKey c.before = 0 ∧
      c.response = (ingest embedTextKnowledge c.before c.request).2 ∧
      copies c.request.sourceKey (Machine.final (ingest embedTextKnowledge) s calls) =
        copies c.request.sourceKey (ingest embedTextKnowledge c.before c.request).1 := by
  obtain ⟨pre, post, split, before, response⟩ := Machine.mem_trace met
  rw [split, List.map_append, List.map_cons] at distinct
  obtain ⟨-, later, apart⟩ := List.nodup_append.mp distinct
  have earlier : ∀ call ∈ pre, call.sourceKey ≠ c.request.sourceKey := fun call listed =>
    apart _ (List.mem_map_of_mem listed) _ List.mem_cons_self
  have following : ∀ call ∈ post, call.sourceKey ≠ c.request.sourceKey := by
    intro call listed same
    exact (List.nodup_cons.mp later).1 (same ▸ List.mem_map_of_mem listed)
  have listed : c.request ∈ calls := split ▸ List.mem_append_right pre List.mem_cons_self
  refine ⟨?_, response, ?_⟩
  · rw [before, final_copies s earlier, new c.request listed]
  · rw [split, Machine.final_append, Machine.final, ← before, final_copies _ following]

/-- A call is answered truthfully unless a key is doubled or ids collide, and a run over new keys
stores every accepted document unless ids collide at one of its calls. -/
theorem documents_kept_iff (embedTextKnowledge : String → Vector F32 4) :
    (∀ s call, Kept embedTextKnowledge s call ↔ Accepts embedTextKnowledge s call) ∧
    ∀ (s : Corpus) (calls : List IngestCall), (calls.map IngestCall.sourceKey).Nodup →
      (∀ call ∈ calls, copies call.sourceKey s = 0) →
      ((∀ c ∈ Machine.trace (ingest embedTextKnowledge) s calls, ∀ outcome,
          c.response = .ok outcome →
            copies c.request.sourceKey (Machine.final (ingest embedTextKnowledge) s calls) = 1) ↔
        ∀ c ∈ Machine.trace (ingest embedTextKnowledge) s calls,
          ¬Collides embedTextKnowledge c.before c.request) := by
  refine ⟨kept_iff, fun s calls distinct new => ?_⟩
  refine forall₂_congr fun c met => ?_
  obtain ⟨fresh, response, stays⟩ := run_copies distinct new met
  rw [response, stays]
  exact new_stored_iff fresh

end Ingesting

/-- An archive for embeddings of four components, with an episode under the first id or empty. -/
def episodeCorpus : Corpus where
  archive := ⟨4, 100, [⟨⟨0, [0, 0, 0, 0], []⟩, ⟨.episode, "episode:t", 0⟩⟩], by decide⟩
  disk := none
  nextId := 0

def emptyCorpus : Corpus := ⟨⟨4, 100, [], List.nodup_nil⟩, none, 0⟩

def note (sourceKey : String) : IngestCall := ⟨sourceKey, .text "note", 0, true⟩

theorem documents_kept_two :
    ∀ c ∈ Machine.trace (ingest fun _ => Vector.replicate 4 0) emptyCorpus [note "a", note "b"],
      ∀ outcome, c.response = .ok outcome →
        copies c.request.sourceKey (Machine.final (ingest fun _ => Vector.replicate 4 0)
          emptyCorpus [note "a", note "b"]) = 1 :=
  ((documents_kept_iff fun _ => Vector.replicate 4 0).2 emptyCorpus [note "a", note "b"]
    (by decide) (by decide +kernel)).mpr (by decide +kernel)

/-- Behind an episode with their id, documents with new keys are answered as already present and
never stored; the counter stays where it is. -/
theorem colliding_documents_lost :
    (ingest (fun _ => Vector.replicate 4 0) episodeCorpus (note "a")).2 = .ok .alreadyPresent ∧
      (ingest (fun _ => Vector.replicate 4 0) episodeCorpus (note "a")).1 = episodeCorpus ∧
      copies "a" episodeCorpus = 0 ∧
      ¬Kept (fun _ => Vector.replicate 4 0) episodeCorpus (note "a") := by
  have answered : (ingest (fun _ => Vector.replicate 4 0) episodeCorpus (note "a")).2 =
      .ok .alreadyPresent := by decide +kernel
  have absent : copies "a" episodeCorpus = 0 := by decide +kernel
  exact ⟨answered, by decide +kernel, absent, fun kept => kept.present.mp answered absent⟩

end KnowledgeCorpus
