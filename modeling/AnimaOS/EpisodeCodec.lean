import AnimaOS.ReaderProvenance
import AnimaOS.TextSplit

/-!
# Episodes in the archive and back

The timestamps of an episode go into the payload, its five texts into one key
that is cut at the first four bars when the episode is read.
-/

namespace ArchiveReaders

open L3Archive TextSplit

/-- `u64::from_le_bytes` of a slice, which must have eight bytes. -/
def fromLeBytes64 : List (BitVec 8) → Option (BitVec 64)
  | [b0, b1, b2, b3, b4, b5, b6, b7] =>
    some (b7 ++ b6 ++ b5 ++ b4 ++ b3 ++ b2 ++ b1 ++ b0 : BitVec (8 + 8 + 8 + 8 + 8 + 8 + 8 + 8))
  | _ => none

def unpackEpisode (entry : ArchivalEntry) : Option EpisodeRecord :=
  if entry.item.payload.length < 20 then none
  else do
    let startedAtNs ← fromLeBytes64 (entry.item.payload.take 8)
    let endedAtNs ← fromLeBytes64 ((entry.item.payload.drop 8).take 8)
    match (splitn '|' 5 entry.provenance.sourceKey.toList).map String.ofList with
    | invocationId :: eventClass :: routeId :: outcome :: summary :: _ =>
      some ⟨invocationId, eventClass, routeId, startedAtNs, endedAtNs, outcome, summary⟩
    | _ => none

theorem fromLeBytes64_toLeBytes64 (x : BitVec 64) : fromLeBytes64 (toLeBytes64 x) = some x := by
  apply congrArg some
  ext i bound
  simp only [BitVec.getElem_append, BitVec.getElem_extractLsb']
  grind

/-- The slices of the key of an episode. -/
def keyPieces (record : EpisodeRecord) : List (List Char) :=
  splitn '|' 5 (record.invocationId.toList ++ '|' :: (record.eventClass.toList ++ '|' ::
    (record.routeId.toList ++ '|' :: (record.outcome.toList ++ '|' :: record.summary.toList))))

/-- The bar is in none of the texts before the summary. -/
def Barless (record : EpisodeRecord) : Prop :=
  '|' ∉ record.invocationId.toList ∧ '|' ∉ record.eventClass.toList ∧
    '|' ∉ record.routeId.toList ∧ '|' ∉ record.outcome.toList

theorem keyPieces_barless {record : EpisodeRecord} (barless : Barless record) :
    keyPieces record = [record.invocationId.toList, record.eventClass.toList,
      record.routeId.toList, record.outcome.toList, record.summary.toList] := by
  obtain ⟨invocation, event, route, outcome⟩ := barless
  rw [keyPieces, splitn_first invocation, splitn_first event, splitn_first route,
    splitn_first outcome]
  rfl

theorem keyPieces_fresh {record : EpisodeRecord} {piece : String}
    (listed : piece ∈ ((keyPieces record).map String.ofList).dropLast) : '|' ∉ piece.toList := by
  rw [← List.map_dropLast] at listed
  obtain ⟨text, cut, rfl⟩ := List.mem_map.mp listed
  rw [String.toList_ofList]
  exact splitn_fresh cut

section Unpack

variable (fl : FloatOps) (nowNs archivedAtNs id : Nat)

def archivedEpisode (record : EpisodeRecord) : ArchivalEntry :=
  ⟨makeEpisodeArchivedItem fl nowNs id record, makeEpisodeProvenance archivedAtNs record⟩

theorem unpack_archived (record : EpisodeRecord) :
    unpackEpisode (archivedEpisode fl nowNs archivedAtNs id record) =
      match (keyPieces record).map String.ofList with
      | invocationId :: eventClass :: routeId :: outcome :: summary :: _ =>
        some ⟨invocationId, eventClass, routeId, record.startedAtNs, record.endedAtNs, outcome,
          summary⟩
      | _ => none := by
  have started : (archivedEpisode fl nowNs archivedAtNs id record).item.payload.take 8 =
      toLeBytes64 record.startedAtNs := rfl
  have ended : ((archivedEpisode fl nowNs archivedAtNs id record).item.payload.drop 8).take 8 =
      toLeBytes64 record.endedAtNs := rfl
  have long : ¬ (archivedEpisode fl nowNs archivedAtNs id record).item.payload.length < 20 := by
    have twenty : (archivedEpisode fl nowNs archivedAtNs id record).item.payload.length = 20 := rfl
    omega
  have pieces : splitn '|' 5
      (archivedEpisode fl nowNs archivedAtNs id record).provenance.sourceKey.toList =
      keyPieces record := by
    simp [archivedEpisode, makeEpisodeProvenance, keyPieces]
  rw [unpackEpisode, if_neg long, started, ended, fromLeBytes64_toLeBytes64,
    fromLeBytes64_toLeBytes64, pieces]
  rfl

/-- An episode comes back from the archive exactly when only its summary may hold a bar. -/
theorem unpack_episode_iff (record : EpisodeRecord) :
    unpackEpisode (archivedEpisode fl nowNs archivedAtNs id record) = some record ↔
      Barless record := by
  rw [unpack_archived]
  constructor
  · intro unpacked
    split at unpacked
    · rename_i invocationId eventClass routeId outcome summary rest pieces
      have same := Option.some.inj unpacked
      have fresh : ∀ piece ∈ (invocationId :: eventClass :: routeId :: outcome :: summary ::
          rest).dropLast, '|' ∉ piece.toList := fun piece listed =>
        keyPieces_fresh (pieces ▸ listed)
      rw [← same]
      exact ⟨fresh invocationId (by simp), fresh eventClass (by simp), fresh routeId (by simp),
        fresh outcome (by simp)⟩
    · cases unpacked
  · intro barless
    rw [keyPieces_barless barless]
    simp

end Unpack

/-- A bar in the event class moves the texts after it by one field. -/
theorem bar_shifts_fields :
    unpackEpisode (archivedEpisode sampleOps 0 0 1
      ⟨"inv-1", "chat|voice", "cheap-local", 1#64, 2#64, "success", "done"⟩) ≠
        some ⟨"inv-1", "chat|voice", "cheap-local", 1#64, 2#64, "success", "done"⟩ := by
  decide +kernel

end ArchiveReaders
