import DucklakeCatalog.Run.DeleteFileRemoval

namespace DucklakeCatalog

open KeyedStore

/-- The staged part of the inline maps, with the snapshot rows that flushes look up. -/
def KvBatch.inlineMaps (batch : KvBatch) :=
  (batch.latestSnapshotRow, batch.rawSnapshotRow, batch.inlineFileDeletion, batch.inlineTable,
    batch.inlineFlushWatermark, batch.inlineTableEnd, batch.tableInlineRowChange)

/-- The same with both snapshot indexes, which expiry changes and a commit adds to. -/
def KvBatch.commitMaps (batch : KvBatch) :=
  ((batch.snapshot, batch.snapshotTimestamp), batch.inlineMaps)

section

variable {kv : CatalogKv} {batch : KvBatch}
variable {operation : CatalogOperation} {before after : KvBatch}

/-- Maintenance touches none of these maps, except that expiry removes snapshots from the timestamp index. -/
theorem CatalogOperation.Maintains.commitMaps (maintains : operation.Maintains kv batch) :
    (∃ rawSequences expired, operation = .expireSnapshots rawSequences ∧
        stageExpiredSnapshots kv rawSequences = .ok (expired, batch)) ∨
      batch.commitMaps = ({} : KvBatch).commitMaps := by
  cases maintains with
  | expireSnapshots staged => exact Or.inl ⟨_, _, rfl, staged⟩
  | removeOldDataFiles staged =>
    obtain ⟨_, ⟨_, _, _, _, _, _, _, _, _, _, _, rfl⟩, _, _, _, rfl⟩ := stageRemoveOldDataFiles_changes staged
    exact Or.inr rfl
  | removeOldDeleteFiles staged =>
    obtain ⟨_, ⟨_, _, _, _, _, _, rfl⟩, _, _, _, rfl⟩ := stageRemoveOldDeleteFiles_changes staged
    exact Or.inr rfl

/-- Maintenance touches neither inline data nor the snapshot rows behind flushes. -/
theorem CatalogOperation.Maintains.inlineMaps (maintains : operation.Maintains kv batch) :
    batch.inlineMaps = ({} : KvBatch).inlineMaps := by
  rcases maintains.commitMaps with ⟨_, _, _, staged⟩ | same
  · obtain ⟨_, rfl⟩ := stageExpiredSnapshots_changes staged
    rfl
  · exact congrArg Prod.snd same

def KvBatch.snapshotRows (batch : KvBatch) : Staged Unit SnapshotRow × Staged RawSnapshotSequence SnapshotRow :=
  (batch.latestSnapshotRow, batch.rawSnapshotRow)

theorem snapshotRows_congr (same : after.inlineMaps = before.inlineMaps) :
    after.snapshotRows = before.snapshotRows := by
  simp only [KvBatch.inlineMaps, Prod.mk.injEq] at same
  exact Prod.ext same.1 same.2.1

def KvBatch.snapshotMaps (batch : KvBatch) :=
  ((batch.snapshot, batch.snapshotTimestamp), batch.snapshotRows)

theorem snapshotMaps_congr (same : after.commitMaps = before.commitMaps) :
    after.snapshotMaps = before.snapshotMaps := by
  have indexes : (after.snapshot, after.snapshotTimestamp) = (before.snapshot, before.snapshotTimestamp) :=
    congrArg Prod.fst same
  exact Prod.ext indexes (snapshotRows_congr (congrArg Prod.snd same))

theorem snapshotMaps_besideFiles (same : after.besideFiles = before.besideFiles) :
    after.snapshotMaps = before.snapshotMaps := by
  have sameMaps := congrArg KvBatch.snapshotMaps same
  exact sameMaps

/-- The sequence a commit gives its snapshot: the next one, or once more that of the latest snapshot. -/
def ContinuesSequence (latest : Option SnapshotRow) (rawSequence : RawSnapshotSequence) : Prop :=
  rawSequence = latest.elim 0 (fun snapshot => snapshot.sequence + 1) ∨
    ∃ snapshot, latest = some snapshot ∧ rawSequence = snapshot.sequence

theorem inlineTableVersionToReplace_sequence {table previousTable : TableRow} {payload : List UInt8}
    {commitSnapshot : Option RawSnapshotSequence} {rawSequence : RawSnapshotSequence}
    (valid : inlineTableVersionToReplace kv table payload commitSnapshot = .ok (previousTable, rawSequence)) :
    ContinuesSequence (latestSnapshot kv) rawSequence := by
  unfold inlineTableVersionToReplace at valid
  simp only [bind_eq_ok, pure_eq_ok, Prod.mk.injEq] at valid
  obtain ⟨_, _, latest, isLatest, _, _, chosen, isChosen, _, rfl⟩ := valid
  cases stored : latestSnapshot kv with
  | none => simp [stored] at isLatest
  | some snapshot =>
    obtain rfl : snapshot = latest := by simpa [stored] using isLatest
    unfold inlineCommitSequence at isChosen
    cases commitSnapshot with
    | none =>
      simp only [Except.ok.injEq] at isChosen
      exact Or.inl isChosen.symm
    | some asked =>
      dsimp only at isChosen
      split at isChosen
      · simp at isChosen
      · rename_i continues
        simp only [Except.ok.injEq] at isChosen
        subst isChosen
        by_cases reused : asked = snapshot.sequence
        · exact Or.inr ⟨snapshot, rfl, reused⟩
        · left
          by_contra other
          exact continues ⟨reused, other⟩

/-- A commit stages its own snapshot in every snapshot index. -/
theorem CatalogOperation.Commits.snapshotMaps (commits : operation.Commits kv batch) :
    ∃ snapshot : SnapshotRow, snapshot.order = kv.generatedOrderId ∧
      ContinuesSequence (latestSnapshot kv) snapshot.sequence ∧
      batch.snapshotMaps = (stageSnapshot {} snapshot).snapshotMaps := by
  cases commits with
  | createTable _ staged =>
    obtain ⟨_, rfl⟩ := stageCreateTableRow_ok staged
    exact ⟨_, rfl, Or.inl rfl, rfl⟩
  | @appendDataFiles now _ _ _ _ staged =>
    obtain ⟨appended, opening, flushes⟩ := stageAppendDataFiles_besideFiles staged
    obtain ⟨_, _, _, _, same⟩ := foldlM_stageFlushInlineTablePayloads_changes flushes
    refine ⟨snapshotRowForNextSequence (latestSnapshot kv) kv.generatedOrderId now, rfl, Or.inl rfl, ?_⟩
    have opened := snapshotMaps_besideFiles opening
    rw [same]
    exact opened
  | @dataMutation input now _ _ _ staged =>
    obtain ⟨registered, closed, flushed, _, _, opening, closes, flushes, same⟩ := stageDataMutation_besideFiles staged
    obtain ⟨_, _, _, _, sameFlushed⟩ := foldlM_stageFlushInlineTablePayloads_changes flushes
    obtain ⟨_, sameClosed⟩ := stageCloseMaterializedInlineFileDeletions_changes closes
    obtain ⟨_, added⟩ := stageNewInlineFileDeletions_changes flushed input.inlineFileDeletions kv.generatedOrderId
    refine ⟨snapshotRowForNextSequence (latestSnapshot kv) kv.generatedOrderId now, rfl, Or.inl rfl, ?_⟩
    have opened := snapshotMaps_besideFiles opening
    have final := snapshotMaps_besideFiles same
    rw [added, sameFlushed, sameClosed] at final
    exact final.trans opened
  | mergeAdjacent _ staged =>
    exact ⟨_, rfl, Or.inl rfl, snapshotMaps_besideFiles (stageMergeAdjacent_besideFiles staged)⟩
  | rewriteDelete _ staged =>
    exact ⟨_, rfl, Or.inl rfl, snapshotMaps_besideFiles (stageRewriteDelete_besideFiles staged)⟩
  | registerDeleteFiles staged =>
    exact ⟨_, rfl, Or.inl rfl, snapshotMaps_besideFiles (stageRegisterDeleteFiles_changes staged).besideFiles⟩
  | inlineFileDeletions staged =>
    obtain ⟨_, _, _, _, rfl⟩ := stageInlineFileDeletions_changes staged
    exact ⟨_, rfl, Or.inl rfl, rfl⟩
  | registerInlinePayload _ staged =>
    obtain ⟨_, _, _, _, _, _, _, _, _, rfl⟩ := stageInlineTablePayload_changes staged
    exact ⟨_, rfl, Or.inl rfl, rfl⟩
  | registerInlinePayloadWithTable valid staged =>
    obtain ⟨_, _, _, _, _, _, _, _, _, rfl⟩ := stageInlineTablePayloadWithTable_changes staged
    exact ⟨_, rfl, inlineTableVersionToReplace_sequence valid, rfl⟩

/-- A commit stages its own snapshot as the latest one and under its sequence. -/
theorem CatalogOperation.Commits.snapshotRows (commits : operation.Commits kv batch) :
    ∃ snapshot : SnapshotRow, snapshot.order = kv.generatedOrderId ∧
      batch.snapshotRows = (stageSnapshot {} snapshot).snapshotRows := by
  obtain ⟨snapshot, order, _, same⟩ := commits.snapshotMaps
  exact ⟨snapshot, order, congrArg Prod.snd same⟩

end

end DucklakeCatalog
