import DucklakeCatalog.File.Conflicts
import DucklakeCatalog.Run.ChangeIndexes
import DucklakeCatalog.Run.TableListings

namespace DucklakeCatalog

open KeyedStore

/-! ## Two copies of one index -/

/-- The staged part of the two change indexes. -/
def KvBatch.fileChanges (batch : KvBatch) :
    Staged TableDataFileChangeKey Unit × Staged SnapshotDataFileChangeKey Unit :=
  (batch.tableDataFileChange, batch.snapshotDataFileChange)

/-- After the batch both indexes hold the same changes. -/
def MirrorsChanges (kv : CatalogKv) (batch : KvBatch) : Prop :=
  ∀ change : DataFileChange,
    (kv.commit batch).tableDataFileChange.get? ⟨change.tableId, change.order, change.kind, change.dataFileId⟩ = some () ↔
      (kv.commit batch).snapshotDataFileChange.get? ⟨change.order, change.tableId, change.kind, change.dataFileId⟩ =
        some ()

section

variable {kv : CatalogKv} {before after batch : KvBatch} {order : CatalogOrderId} {now : Int}

theorem mirrorsChanges_of_same (same : after.fileChanges = before.fileChanges) (mirrors : MirrorsChanges kv before) :
    MirrorsChanges kv after := by
  simp only [KvBatch.fileChanges, Prod.mk.injEq] at same
  intro change
  simp only [CatalogKv.commit, same.1, same.2]
  exact mirrors change

namespace MirrorsChanges

variable (mirrors : MirrorsChanges kv before)

include mirrors

theorem congr (same : after.fileChanges = before.fileChanges) : MirrorsChanges kv after :=
  mirrorsChanges_of_same same mirrors

theorem writeDataFileChange (tableId : TableId) (kind : DataFileChangeKind) (dataFileId : DataFileId) :
    MirrorsChanges kv (writeDataFileChange before tableId order kind dataFileId) := by
  intro change
  simp only [CatalogKv.commit, DucklakeCatalog.writeDataFileChange, OrderedMap.commit_put, OrderedMap.get?_insert,
    TableDataFileChangeKey.mk.injEq, SnapshotDataFileChangeKey.mk.injEq]
  by_cases written : change.tableId = tableId ∧ change.order = order ∧ change.kind = kind ∧ change.dataFileId = dataFileId
  · obtain ⟨sameTable, sameOrder, sameKind, sameFile⟩ := written
    simp only [sameTable, sameOrder, sameKind, sameFile, and_self, if_true]
  · rw [if_neg written, if_neg fun other => written ⟨other.2.1, other.1, other.2.2⟩]
    exact mirrors change

theorem stageAppendDataFile (row : DataFileRow) : MirrorsChanges kv (stageAppendDataFile kv before row) := by
  obtain ⟨_, _, _, _, same⟩ := stageAppendDataFileWithoutChange_eq kv before row
  refine MirrorsChanges.writeDataFileChange (mirrors.congr ?_) _ _ _
  rw [same]
  rfl

theorem stageMergeReplacementDataFile (row : DataFileRow) :
    MirrorsChanges kv (stageMergeReplacementDataFile kv before row order) := by
  obtain ⟨_, _, _, _, same⟩ := stageAppendDataFileWithoutChange_eq kv before row
  refine MirrorsChanges.writeDataFileChange (mirrors.congr ?_) _ _ _
  rw [same]
  rfl

theorem stageMutationDataFile (row : DataFileRow) :
    MirrorsChanges kv (stageMutationDataFile kv order before row) := by
  unfold DucklakeCatalog.stageMutationDataFile
  split
  · exact mirrors.stageMergeReplacementDataFile row
  · exact mirrors.stageAppendDataFile row

theorem stageExpireCurrentDataFile {dataFileId : DataFileId} {expired : DataFileRow}
    (success : stageExpireCurrentDataFile kv before dataFileId order = .ok (expired, after)) :
    MirrorsChanges kv after := by
  obtain ⟨_, _, _, _, _, _, _, rfl⟩ := stageExpireCurrentDataFile_ok success
  have opened : MirrorsChanges kv (putExpiredDataFile before expired order) := mirrors.congr rfl
  exact MirrorsChanges.congr (opened.writeDataFileChange _ _ _) rfl

theorem stageDropDataFile (row : DataFileRow) :
    MirrorsChanges kv (stageDropDataFile kv now order before row) := by
  obtain ⟨_, _, same⟩ := stageExpireDataFile_eq kv before (row.withEndOrder (some order)) order
  have opened : MirrorsChanges kv (putExpiredDataFile before (row.withEndOrder (some order)) order) := mirrors.congr rfl
  have closed := @MirrorsChanges.writeDataFileChange kv _ order opened row.tableId .removed row.dataFileId
  refine closed.congr ?_
  simp only [DucklakeCatalog.stageDropDataFile, same]
  rfl

theorem expireCompactedSourceFile {dataFileId : DataFileId} {policy : DeleteFilePolicy} {source : ExpiredSourceFile}
    (success : expireCompactedSourceFile kv now before dataFileId order policy = .ok (source, after)) :
    MirrorsChanges kv after := by
  obtain ⟨_, _, expired, expires, rfl⟩ := expireCompactedSourceFile_ok success
  exact MirrorsChanges.congr (mirrors.stageExpireCurrentDataFile expires) rfl

theorem foldl {α : Type} {step : KvBatch → α → KvBatch}
    (kept : ∀ batch item, MirrorsChanges kv batch → MirrorsChanges kv (step batch item)) (items : List α) :
    MirrorsChanges kv (items.foldl step before) := by
  induction items generalizing before with
  | nil => exact mirrors
  | cons item rest ih => exact ih (kept before item mirrors)

end MirrorsChanges

theorem KvBatch.ChangesPartitions.fileChanges (changes : before.ChangesPartitions after) :
    after.fileChanges = before.fileChanges := by
  obtain ⟨_, _, rfl⟩ := changes
  rfl

theorem KvBatch.ChangesStats.fileChanges (changes : before.ChangesStats after) :
    after.fileChanges = before.fileChanges := by
  obtain ⟨_, _, _, _, rfl⟩ := changes
  rfl

theorem KvBatch.ChangesDeleteFiles.fileChanges (changes : before.ChangesDeleteFiles after) :
    after.fileChanges = before.fileChanges := by
  obtain ⟨_, _, _, _, _, _, _, rfl⟩ := changes
  rfl

theorem KvBatch.ChangesInlineEnds.fileChanges (changes : before.ChangesInlineEnds after) :
    after.fileChanges = before.fileChanges := by
  obtain ⟨_, _, _, _, rfl⟩ := changes
  rfl

theorem KvBatch.ChangesInlineDeletions.fileChanges (changes : before.ChangesInlineDeletions after) :
    after.fileChanges = before.fileChanges := by
  obtain ⟨_, rfl⟩ := changes
  rfl

/-! ## Whole commits -/

theorem stageDataMutation_mirrors {input : DataMutationInput} {result : DataMutationCommit}
    (mirrors : MirrorsChanges kv {}) (staged : stageDataMutation kv now input order = .ok (result, batch)) :
    MirrorsChanges kv batch := by
  obtain ⟨valued, values, registered, withDeletes, registers, closed, closes, flushed, flushes, dropped, drops, rfl,
    rfl⟩ := stageDataMutation_ok staged
  have opened : MirrorsChanges kv (stageSnapshot {} (snapshotRowForNextSequence (latestSnapshot kv) order now)) :=
    mirrors.congr rfl
  have flushedAll : MirrorsChanges kv flushed := by
    refine mirrorsChanges_of_same ((foldlM_stageFlushInlineTablePayloads_changes flushes).fileChanges.trans
      ((stageCloseMaterializedInlineFileDeletions_changes closes).fileChanges.trans
        ((stageMutationDeleteFiles_changes registers).fileChanges.trans
          ((stageCompactionStats_changes valued input.fileColumnStats order).fileChanges.trans
            (stageNewFilePartitionValues_changes values).fileChanges)))) ?_
    exact opened.foldl (fun _ row soFar => soFar.stageMutationDataFile row) _
  refine MirrorsChanges.foldl ?_ (fun _ row soFar => soFar.stageDropDataFile row) dropped
  have deleted : MirrorsChanges kv (stageNewInlineFileDeletions flushed input.inlineFileDeletions order) :=
    flushedAll.congr (stageNewInlineFileDeletions_changes flushed input.inlineFileDeletions order).fileChanges
  split
  · exact deleted
  · exact deleted.congr rfl

theorem stageMergeAdjacent_mirrors {compaction result : DataFileCompaction} (mirrors : MirrorsChanges kv {})
    (staged : stageMergeAdjacent kv now compaction order = .ok (result, batch)) : MirrorsChanges kv batch := by
  obtain ⟨sources, expired, expires, newFiles, derives, valued, values, rfl, rfl⟩ := stageMergeAdjacent_ok staged
  have closed : MirrorsChanges kv expired :=
    expireMergeSources_invariant (MirrorsChanges kv) expires (mirrors.congr rfl) fun soFar expiresSource =>
      soFar.expireCompactedSourceFile expiresSource
  refine mirrorsChanges_of_same ((stageCompactionStats_changes valued _ order).fileChanges.trans
    (stageNewFilePartitionValues_changes values).fileChanges) ?_
  exact closed.foldl (fun _ row soFar => soFar.stageMergeReplacementDataFile row) _

theorem stageRewriteDelete_mirrors {compaction result : DataFileCompaction} {tableId : TableId}
    (mirrors : MirrorsChanges kv {}) (staged : stageRewriteDelete kv now compaction tableId order = .ok (result, batch)) :
    MirrorsChanges kv batch := by
  obtain ⟨expired, expires, valued, values, rfl, rfl⟩ := stageRewriteDelete_ok staged
  have closed : MirrorsChanges kv expired :=
    expireRewriteSources_invariant (MirrorsChanges kv) expires (mirrors.congr rfl)
      (fun soFar expiresSource => soFar.expireCompactedSourceFile expiresSource) fun soFar => soFar.congr rfl
  refine mirrorsChanges_of_same ((stageNewFilePartitionValues_changes values).fileChanges.trans
    (stageCompactionStats_changes _ _ order).fileChanges) ?_
  exact closed.foldl (fun _ row soFar => soFar.stageAppendDataFile row) _

end

variable {operation : CatalogOperation}

theorem CatalogOperation.Commits.mirrorsChanges {kv : CatalogKv} {batch : KvBatch}
    (commits : operation.Commits kv batch) (mirrors : MirrorsChanges kv {}) : MirrorsChanges kv batch := by
  cases commits with
  | createTable _ staged =>
    obtain ⟨_, rfl⟩ := stageCreateTableRow_ok staged
    exact mirrors.congr rfl
  | appendDataFiles staged =>
    obtain ⟨_, flushes, rfl⟩ := stageAppendDataFiles_ok staged
    refine mirrorsChanges_of_same (foldlM_stageFlushInlineTablePayloads_changes flushes).fileChanges ?_
    refine MirrorsChanges.foldl ?_ (fun _ row soFar => soFar.stageAppendDataFile row) _
    exact mirrors.congr rfl
  | dataMutation _ staged => exact stageDataMutation_mirrors mirrors staged
  | mergeAdjacent _ staged => exact stageMergeAdjacent_mirrors mirrors staged
  | rewriteDelete _ staged => exact stageRewriteDelete_mirrors mirrors staged
  | registerDeleteFiles staged =>
    exact mirrorsChanges_of_same (stageRegisterDeleteFiles_changes staged).fileChanges (mirrors.congr rfl)
  | inlineFileDeletions staged =>
    exact mirrorsChanges_of_same (stageInlineFileDeletions_changes staged).fileChanges (mirrors.congr rfl)
  | registerInlinePayload _ staged =>
    obtain ⟨_, _, _, _, _, _, _, _, _, rfl⟩ := stageInlineTablePayload_changes staged
    exact mirrors.congr rfl
  | registerInlinePayloadWithTable _ staged =>
    obtain ⟨_, _, _, _, _, _, _, _, _, rfl⟩ := stageInlineTablePayloadWithTable_changes staged
    exact mirrors.congr rfl

theorem CatalogOperation.Maintains.fileChanges {kv : CatalogKv} {batch : KvBatch}
    (maintains : operation.Maintains kv batch) : batch.fileChanges = ({} : KvBatch).fileChanges := by
  cases maintains with
  | expireSnapshots staged =>
    obtain ⟨_, rfl⟩ := stageExpiredSnapshots_changes staged
    rfl
  | removeOldDataFiles staged =>
    obtain ⟨_, ⟨_, _, _, _, _, _, _, _, _, _, _, rfl⟩, _, _, _, rfl⟩ := stageRemoveOldDataFiles_changes staged
    rfl
  | removeOldDeleteFiles staged =>
    obtain ⟨_, ⟨_, _, _, _, _, _, rfl⟩, _, _, _, rfl⟩ := stageRemoveOldDeleteFiles_changes staged
    rfl

/-! ## The changes each commit makes -/

def addedChange (order : CatalogOrderId) (row : DataFileRow) : DataFileChange :=
  ⟨row.tableId, order, .added, row.dataFileId⟩

def removedChange (order : CatalogOrderId) (row : DataFileRow) : DataFileChange :=
  ⟨row.tableId, order, .removed, row.dataFileId⟩

/-- Appended files, then expired ones. -/
def changesOf (kv : CatalogKv) (order : CatalogOrderId) (appended : List DataFileRow) (expired : List DataFileId) :
    List DataFileChange :=
  appended.map (addedChange order) ++ (expired.filterMap kv.dataFile.get?).map (removedChange order)

/-- An accepted operation appends its new files and expires the ones it closes. -/
def CatalogOperation.fileChanges (kv : CatalogKv) (operation : CatalogOperation) : List DataFileChange :=
  match (operation.apply kv).1 with
  | .error _ => []
  | .ok _ => changesOf kv kv.generatedOrderId operation.newDataFiles operation.closedDataFileIds

/-- The current data files of the tables. -/
def currentDataFileIds (kv : CatalogKv) (tableIds : List TableId) : List DataFileId :=
  tableIds.flatMap fun tableId => (scanCurrentDataFiles kv tableId).map DataFileRow.dataFileId

/-- An accepted drop expires the current files of its tables; the other table commits touch no file. -/
def TableOperation.fileChanges (kv : CatalogKv) : TableOperation → List DataFileChange
  | dropTables now tableIds commitRawSnapshot =>
    match (commitDropTablesAt kv now tableIds commitRawSnapshot).1 with
    | .error _ => []
    | .ok _ => changesOf kv kv.generatedOrderId [] (currentDataFileIds kv tableIds)
  | _ => []

section

variable {kv : CatalogKv} {changes : List DataFileChange} {order : CatalogOrderId} {batch : KvBatch} {now : Int}

theorem mem_changesOf {appended : List DataFileRow} {expired : List DataFileId} {change : DataFileChange} :
    change ∈ changesOf kv order appended expired ↔ (∃ row ∈ appended, addedChange order row = change) ∨
      ∃ dataFileId ∈ expired, ∃ row, kv.dataFile.get? dataFileId = some row ∧ removedChange order row = change := by
  rw [changesOf, List.mem_append, List.mem_map, List.mem_map]
  refine or_congr_right ?_
  constructor
  · rintro ⟨row, member, rfl⟩
    obtain ⟨dataFileId, named, stored⟩ := List.mem_filterMap.mp member
    exact ⟨dataFileId, named, row, stored, rfl⟩
  · rintro ⟨dataFileId, named, row, stored, rfl⟩
    exact ⟨row, List.mem_filterMap.mpr ⟨dataFileId, named, stored⟩, rfl⟩

theorem SnapshotDataFileChangeKey.change_eq {key : SnapshotDataFileChangeKey} {change : DataFileChange} :
    change = key.change ↔ ChangeKey.file ⟨change.order, change.tableId, change.kind, change.dataFileId⟩ = .file key := by
  cases change
  cases key
  simp only [change, DataFileChange.mk.injEq, ChangeKey.file.injEq, SnapshotDataFileChangeKey.mk.injEq]
  tauto

/-- Both indexes stay copies of each other, so it is enough to look at one. -/
theorem CatalogKv.IndexesChanges.commit (indexes : kv.IndexesChanges changes)
    (mirrors : MirrorsChanges kv {} → MirrorsChanges kv batch) {made : List DataFileChange}
    (filed : ∀ key, (kv.commit batch).HasChange (.file key) ↔ kv.HasChange (.file key) ∨ key.change ∈ made) :
    (kv.commit batch).IndexesChanges (changes ++ made) := by
  have bySnapshot (key : SnapshotDataFileChangeKey) :
      (kv.commit batch).snapshotDataFileChange.get? key = some () ↔ key.change ∈ changes ++ made := by
    rw [List.mem_append, ← indexes.bySnapshot key]
    exact filed key
  refine ⟨?_, bySnapshot⟩
  intro key
  refine (mirrors ?_ key.change).trans (bySnapshot _)
  intro change
  exact (indexes.byTable _).trans
    (indexes.bySnapshot ⟨change.order, change.tableId, change.kind, change.dataFileId⟩).symm

theorem CatalogKv.IndexesChanges.untouched (indexes : kv.IndexesChanges changes)
    (same : batch.fileChanges = ({} : KvBatch).fileChanges) : (kv.commit batch).IndexesChanges changes := by
  simp only [KvBatch.fileChanges, Prod.mk.injEq] at same
  refine ⟨?_, ?_⟩
  · intro key
    simp only [CatalogKv.commit, same.1]
    exact indexes.byTable key
  · intro key
    simp only [CatalogKv.commit, same.2]
    exact indexes.bySnapshot key

theorem filesChange_file {key : SnapshotDataFileChangeKey} :
    operation.FilesChange kv (.file key) ↔
      key.change ∈ changesOf kv kv.generatedOrderId operation.newDataFiles operation.closedDataFileIds := by
  rw [mem_changesOf, CatalogOperation.FilesChange]
  simp only [FilesDeletes, FilesDelete, MarksFlush, reduceCtorEq, and_false, exists_false, or_false]
  refine or_congr ?_ ?_
  · refine exists_congr fun row => and_congr_right fun _ => ?_
    exact (@SnapshotDataFileChangeKey.change_eq key (addedChange _ row)).symm
  · refine exists_congr fun dataFileId => and_congr_right fun _ => exists_congr fun row => and_congr_right fun _ => ?_
    exact (@SnapshotDataFileChangeKey.change_eq key (removedChange _ row)).symm

theorem CatalogOperation.Commits.indexesChanges (commits : operation.Commits kv batch)
    (indexes : kv.IndexesChanges changes) : (kv.commit batch).IndexesChanges
      (changes ++ changesOf kv kv.generatedOrderId operation.newDataFiles operation.closedDataFileIds) := by
  refine indexes.commit commits.mirrorsChanges ?_
  intro key
  exact (commits.stagesChanges (.file key)).trans (or_congr_right filesChange_file)

theorem dropResult_commitWith_ne {α : Type} (stage : CatalogOrderId → CatalogResult (α × KvBatch)) :
    dropResult (commitWith kv stage) ≠ (.ok (), kv) := by
  rcases commitWith_cases kv stage with ⟨failure, same⟩ | ⟨result, batch, _, same⟩
  · rw [same]
    exact fun accepted => by cases (Prod.mk.inj accepted).1
  · rw [same]
    intro unchanged
    have orders : kv.nextOrder + 1 = kv.nextOrder := congrArg CatalogKv.nextOrder (Prod.mk.inj unchanged).2
    omega

/-- An accepted operation that neither commits nor maintains names no files. -/
theorem CatalogOperation.apply_accepted (accepted : (operation.apply kv).1 = .ok ()) :
    (changesOf kv kv.generatedOrderId operation.newDataFiles operation.closedDataFileIds = [] ∧
        ((operation.apply kv).2 = kv ∨ ∃ batch, operation.Maintains kv batch ∧ (operation.apply kv).2 = kv.commit batch)) ∨
      ∃ batch, operation.Commits kv batch ∧ (operation.apply kv).2 = kv.withGeneratedOrder.commit batch := by
  have outcome := operation.apply_outcome kv
  generalize same : operation.apply kv = result at outcome accepted
  cases outcome with
  | rejected failure => cases accepted
  | rejectedWithOrder failure => cases accepted
  | committed commits => exact Or.inr ⟨_, commits, rfl⟩
  | maintained maintains =>
    refine Or.inl ⟨?_, Or.inr ⟨_, maintains, rfl⟩⟩
    cases maintains with
    | expireSnapshots => rfl
    | removeOldDataFiles => rfl
    | removeOldDeleteFiles => rfl
  | nothingToDo noDataFiles =>
    refine Or.inl ⟨?_, Or.inl rfl⟩
    cases operation with
    | appendDataFiles now rows inlineFlushes =>
      have noRows : rows = [] := List.map_eq_nil_iff.mp noDataFiles
      subst noRows
      rfl
    | dataMutation now input =>
      by_cases empty : input = {}
      · subst empty
        rfl
      · rw [apply, commitDataMutationWithDetails, if_neg empty] at same
        split at same
        · cases (Prod.mk.inj same).1
        · exact absurd same (dropResult_commitWith_ne _)
    | mergeAdjacent now compaction =>
      rw [apply, commitMergeAdjacentDataFiles] at same
      split at same
      · cases (Prod.mk.inj same).1
      · exact absurd same (dropResult_commitWith_ne _)
    | rewriteDelete now compaction =>
      rw [apply, commitRewriteDeleteDataFiles] at same
      split at same
      · cases (Prod.mk.inj same).1
      · exact absurd same (dropResult_commitWith_ne _)
    | _ => rfl

/-- Whatever becomes of the operation, the indexes hold what it did. -/
theorem CatalogOperation.apply_indexesChanges (operation : CatalogOperation) (indexes : kv.IndexesChanges changes) :
    (operation.apply kv).2.IndexesChanges (changes ++ operation.fileChanges kv) := by
  unfold fileChanges
  cases accepted : (operation.apply kv).1 with
  | error failure =>
    rw [List.append_nil]
    have outcome := operation.apply_outcome kv
    generalize operation.apply kv = result at outcome accepted
    cases outcome with
    | rejected => exact indexes
    | rejectedWithOrder => exact ⟨indexes.byTable, indexes.bySnapshot⟩
    | nothingToDo => exact indexes
    | committed => cases accepted
    | maintained => cases accepted
  | ok =>
    dsimp only
    rcases apply_accepted accepted with ⟨noFiles, untouched⟩ | ⟨batch, commits, same⟩
    · rw [noFiles, List.append_nil]
      rcases untouched with same | ⟨batch, maintains, same⟩
      · rw [same]
        exact indexes
      · rw [same]
        exact indexes.untouched maintains.fileChanges
    · rw [same]
      have made := commits.indexesChanges indexes
      exact ⟨made.byTable, made.bySnapshot⟩

/-! ## Table commits -/

theorem commitPrepared_indexesChanges {α : Type} (indexes : kv.IndexesChanges changes)
    (prepared : CatalogResult (PreparedReplacements α)) :
    (commitPrepared kv now prepared).2.IndexesChanges changes := by
  cases prepared with
  | error failure => exact indexes
  | ok accepted =>
    unfold commitPrepared commitTableReplacements
    dsimp only
    split_ifs with nothing
    · exact indexes
    · have made := @CatalogKv.IndexesChanges.untouched kv changes _ indexes
        (foldl_view KvBatch.fileChanges (fun batch replacement => rfl : ∀ batch replacement,
          (stageTableReplacement kv kv.generatedOrderId batch replacement).fileChanges = batch.fileChanges)
          accepted.replacements (stageSnapshot {} (SnapshotRow.new kv.generatedOrderId (accepted.previousSequence + 1) now)))
      exact ⟨made.byTable, made.bySnapshot⟩

/-- Expiring one file of a dropped table adds its change to both indexes. -/
theorem expireDroppedTableFile_changes {state next : DroppedTable × KvBatch} {attached : AttachedDataFile}
    (taken : expireDroppedTableFile kv now order state attached = .ok next) :
    (MirrorsChanges kv state.2 → MirrorsChanges kv next.2) ∧
      ∀ key, (kv.commit next.2).HasChange (.file key) ↔ (kv.commit state.2).HasChange (.file key) ∨
        ∃ row, kv.dataFile.get? attached.dataFile.dataFileId = some row ∧ removedChange order row = key.change := by
  obtain ⟨_, _, expires, _, _, _, _, deletes, staged⟩ := expireDroppedTableFile_ok taken
  have same := (congrArg KvBatch.fileChanges staged).trans deletes.fileChanges
  refine ⟨fun mirrors => mirrorsChanges_of_same same (mirrors.stageExpireCurrentDataFile expires), ?_⟩
  intro key
  simp only [KvBatch.fileChanges, Prod.mk.injEq] at same
  obtain ⟨row, stored, _, _, rfl, _, _, rfl⟩ := stageExpireCurrentDataFile_ok expires
  have filed := @hasChange_writeDataFileChange kv (putExpiredDataFile state.2 (row.withEndOrder (some order)) order)
    (.file key) row.tableId order .removed row.dataFileId
  have only : (∃ other, kv.dataFile.get? attached.dataFile.dataFileId = some other ∧
      removedChange order other = key.change) ↔ removedChange order row = key.change := by
    simp [stored]
  rw [only, SnapshotDataFileChangeKey.change_eq]
  refine Iff.trans ?_ (filed.trans (or_congr_left ?_))
  · simp only [CatalogKv.HasChange, CatalogKv.commit, same.2]
    rfl
  · exact Iff.rfl

theorem listCurrentDataFilesWithDeletes_files (kv : CatalogKv) (tableId : TableId) :
    (listCurrentDataFilesWithDeletes kv tableId).map AttachedDataFile.dataFile = scanCurrentDataFiles kv tableId := by
  unfold listCurrentDataFilesWithDeletes attachCurrentDeleteFiles
  split
  · rw [List.map_map]
    exact List.map_id' _
  · rw [List.map_map]
    exact List.map_id' _

/-- Dropping one table adds the changes of its current files. -/
theorem stageDropTable_changes {state next : List DroppedTable × KvBatch} {tableId : TableId}
    (taken : stageDropTable kv now order state tableId = .ok next) :
    (MirrorsChanges kv state.2 → MirrorsChanges kv next.2) ∧
      ∀ key, (kv.commit next.2).HasChange (.file key) ↔ (kv.commit state.2).HasChange (.file key) ∨
        ∃ dataFileId ∈ (scanCurrentDataFiles kv tableId).map DataFileRow.dataFileId, ∃ row,
          kv.dataFile.get? dataFileId = some row ∧ removedChange order row = key.change := by
  unfold stageDropTable at taken
  simp only [bind_eq_ok, pure_eq_ok] at taken
  obtain ⟨table, _, ⟨dropped, expired⟩, expires, rfl⟩ := taken
  constructor
  · intro mirrors
    have kept := foldlM_invariant (fun reached : DroppedTable × KvBatch => MirrorsChanges kv reached.2) expires mirrors
      (fun reached attached following _ soFar step => (expireDroppedTableFile_changes step).1 soFar)
    exact kept.congr rfl
  · intro key
    have filed := foldlM_collects (fun (reached : DroppedTable × KvBatch) key => (kv.commit reached.2).HasChange (.file key))
      (fun (attached : AttachedDataFile) key => ∃ row, kv.dataFile.get? attached.dataFile.dataFileId = some row ∧
        removedChange order row = SnapshotDataFileChangeKey.change key) expires
      (fun reached attached following step key => (expireDroppedTableFile_changes step).2 key) key
    refine Iff.trans (hasChange_congr rfl) (filed.trans (or_congr_right ?_))
    rw [← listCurrentDataFilesWithDeletes_files, List.map_map]
    simp only [List.mem_map, Function.comp_apply, exists_exists_and_eq_and]

theorem commitDropTablesAt_indexesChanges (indexes : kv.IndexesChanges changes) (tableIds : List TableId)
    (commitRawSnapshot : Option RawSnapshotSequence) :
    (commitDropTablesAt kv now tableIds commitRawSnapshot).2.IndexesChanges
      (changes ++ (TableOperation.dropTables now tableIds commitRawSnapshot).fileChanges kv) := by
  simp only [TableOperation.fileChanges]
  unfold commitDropTablesAt
  split_ifs with nothing
  · subst nothing
    rw [show changesOf kv kv.generatedOrderId [] (currentDataFileIds kv []) = [] from rfl, List.append_nil]
    exact indexes
  · cases prepares : prepareDropTables kv tableIds commitRawSnapshot with
    | error failure =>
      rw [List.append_nil]
      exact indexes
    | ok sequence =>
      dsimp only
      rcases commitWith_cases kv (stageDropTables kv now tableIds sequence) with ⟨_, same⟩ | ⟨dropped, batch, staged, same⟩
      · rw [same, List.append_nil]
        exact ⟨indexes.byTable, indexes.bySnapshot⟩
      · rw [same]
        unfold stageDropTables at staged
        have made : (kv.commit batch).IndexesChanges
            (changes ++ changesOf kv kv.generatedOrderId [] (currentDataFileIds kv tableIds)) := by
          refine indexes.commit ?_ ?_
          · intro mirrors
            exact foldlM_invariant (fun reached : List DroppedTable × KvBatch => MirrorsChanges kv reached.2) staged
              (mirrors.congr rfl) (fun reached tableId following _ soFar step => (stageDropTable_changes step).1 soFar)
          · intro key
            have filed := foldlM_collects
              (fun (reached : List DroppedTable × KvBatch) key => (kv.commit reached.2).HasChange (.file key))
              (fun tableId key => ∃ dataFileId ∈ (scanCurrentDataFiles kv tableId).map DataFileRow.dataFileId, ∃ row,
                kv.dataFile.get? dataFileId = some row ∧
                  removedChange kv.generatedOrderId row = SnapshotDataFileChangeKey.change key) staged
              (fun reached tableId following step key => (stageDropTable_changes step).2 key) key
            refine filed.trans (or_congr (hasChange_untouched rfl) ?_)
            rw [mem_changesOf]
            simp only [List.not_mem_nil, false_and, exists_false, false_or, currentDataFileIds, List.mem_flatMap]
            constructor
            · rintro ⟨tableId, named, dataFileId, current, found⟩
              exact ⟨dataFileId, ⟨tableId, named, current⟩, found⟩
            · rintro ⟨dataFileId, ⟨tableId, named, current⟩, found⟩
              exact ⟨tableId, named, dataFileId, current, found⟩
        exact ⟨made.byTable, made.bySnapshot⟩

theorem TableOperation.apply_indexesChanges (operation : TableOperation) (indexes : kv.IndexesChanges changes) :
    (operation.apply kv).IndexesChanges (changes ++ operation.fileChanges kv) := by
  cases operation with
  | appendColumns now tableId columns =>
    simp only [fileChanges, List.append_nil]
    simp only [TableOperation.apply, commitAppendTableColumns]
    split
    · exact indexes
    · have committed := @commitPrepared_indexesChanges kv changes now _ indexes (prepareAppendTableColumns kv tableId columns)
      split
      · rename_i failed
        rw [failed] at committed
        exact committed
      · rename_i succeeded
        rw [succeeded] at committed
        exact committed
  | renameTables now renames =>
    simp only [fileChanges, List.append_nil]
    simp only [TableOperation.apply, commitRenameTables]
    split
    · exact indexes
    · exact commitPrepared_indexesChanges indexes _
  | renameColumns now renames =>
    simp only [fileChanges, List.append_nil]
    simp only [TableOperation.apply, commitRenameTableColumns]
    split
    · exact indexes
    · exact commitPrepared_indexesChanges indexes _
  | dropColumns now drops =>
    simp only [fileChanges, List.append_nil]
    simp only [TableOperation.apply, commitDropTableColumns]
    split
    · exact indexes
    · exact commitPrepared_indexesChanges indexes _
  | changeColumnTypes now columnChanges =>
    simp only [fileChanges, List.append_nil]
    simp only [TableOperation.apply, commitChangeTableColumnTypes]
    split
    · exact indexes
    · exact commitPrepared_indexesChanges indexes _
  | dropTables now tableIds commitRawSnapshot =>
    exact commitDropTablesAt_indexesChanges indexes tableIds commitRawSnapshot

end

/-! ## Runs -/

/-- A catalog together with the changes its commits have made to data files. -/
structure FileChangeHistory where
  history : CatalogHistory
  changes : List DataFileChange := []

namespace FileChangeHistory

def after (run : FileChangeHistory) (operation : CatalogOperation) : FileChangeHistory :=
  ⟨run.history.after operation, run.changes ++ operation.fileChanges run.history.kv⟩

def afterTable (run : FileChangeHistory) (operation : TableOperation) : FileChangeHistory :=
  ⟨run.history.afterTable operation, run.changes ++ operation.fileChanges run.history.kv⟩

/-- Runs of any catalog operations and table commits. -/
inductive Reachable : FileChangeHistory → Prop
  | start (lastOrder : CatalogOrderId) (now : Int) : Reachable ⟨CatalogHistory.start lastOrder now, []⟩
  | operation (earlier : Reachable run) (operation : CatalogOperation) : Reachable (run.after operation)
  | tableOperation (earlier : Reachable run) (operation : TableOperation) : Reachable (run.afterTable operation)

variable {run : FileChangeHistory}

theorem Reachable.tables (reachable : Reachable run) : CatalogHistory.TableReachable run.history := by
  induction reachable with
  | start lastOrder now => exact .start lastOrder now
  | operation _ operation ih => exact .operation ih operation
  | tableOperation _ operation ih => exact .tableOperation ih operation

/-- Both indexes hold what the commits of the run did, and nothing else. -/
theorem Reachable.indexes (reachable : Reachable run) : run.history.kv.IndexesChanges run.changes := by
  induction reachable with
  | start lastOrder now =>
    refine ⟨?_, ?_⟩
    · intro key
      exact iff_of_false (fun stored => by cases stored) List.not_mem_nil
    · intro key
      exact iff_of_false (fun stored => by cases stored) List.not_mem_nil
  | @operation run _ operation ih =>
    have same : (run.history.after operation).kv = (operation.apply run.history.kv).2 := by
      unfold CatalogHistory.after
      split
      · rename_i failed
        rw [failed]
      · rename_i succeeded
        rw [succeeded]
    rw [after, same]
    exact operation.apply_indexesChanges ih
  | tableOperation _ operation ih => exact operation.apply_indexesChanges ih

end FileChangeHistory

/-- In every reachable state the check for conflicts is exact, and both indexes list the same changes of a table. -/
theorem reachable_conflictsExact {run : FileChangeHistory} (reachable : FileChangeHistory.Reachable run)
    {tableId : TableId} {baseOrder throughOrder : CatalogOrderId} {baseTable : TableRow} (intent : DataCommitIntent)
    (later : baseOrder < throughOrder) (atBase : loadTableAt run.history.kv tableId baseOrder = some baseTable) :
    (rejectConflictsSinceBase run.history.kv tableId baseOrder throughOrder intent = .ok () ↔
      (∃ table, loadTableAt run.history.kv tableId throughOrder = some table ∧
        table.sameUserVisibleSchemaAs baseTable = true) ∧
      ∀ change ∈ run.changes, ¬change.Conflicts tableId baseOrder throughOrder intent) ∧
    ∃ ofTable ofSnapshots, listDataFileChanges run.history.kv tableId baseOrder throughOrder = .ok ofTable ∧
      listDataFileChangesSinceBase run.history.kv baseOrder throughOrder = .ok ofSnapshots ∧
      (ofTable.filter fun change => baseOrder < change.order) =
        ofSnapshots.filter fun change => change.tableId = tableId := by
  obtain ⟨latest, _, _, sound⟩ := reachable.tables.sound
  refine ⟨rejectConflictsSinceBase_ok_iff sound reachable.indexes later atBase, ?_⟩
  obtain ⟨ofTable, listsTable⟩ : ∃ listed,
      listDataFileChanges run.history.kv tableId baseOrder throughOrder = .ok listed := by
    rw [listDataFileChanges, if_neg later.le.not_gt]
    exact ⟨_, rfl⟩
  obtain ⟨ofSnapshots, listsSnapshots⟩ : ∃ listed,
      listDataFileChangesSinceBase run.history.kv baseOrder throughOrder = .ok listed := by
    rw [listDataFileChangesSinceBase, if_neg later.le.not_gt]
    exact ⟨_, rfl⟩
  exact ⟨ofTable, ofSnapshots, listsTable, listsSnapshots, reachable.indexes.windows_agree listsTable listsSnapshots⟩

/-- A table with one file, appended after its base. -/
def appendedAfterBase : FileChangeHistory :=
  (FileChangeHistory.after ⟨CatalogHistory.start 0 0, []⟩
    (.createTable 0 { tableId := 1, name := "a", validity := ⟨autoOrder, none⟩ })).after
    (.appendDataFiles 0
      [{ dataFileId := 10, tableId := 1, path := "", recordCount := 5, fileSizeBytes := 1, validity := ⟨autoOrder, none⟩ }]
      [])

theorem appendedAfterBase_reachable : FileChangeHistory.Reachable appendedAfterBase :=
  .operation (.operation (.start 0 0) _) _

/-- Another append can follow, a rewrite cannot. -/
theorem reachable_conflictsExact_appended :
    rejectConflictsSinceBase appendedAfterBase.history.kv 1 2 3 .appendFiles = .ok () ∧
      rejectConflictsSinceBase appendedAfterBase.history.kv 1 2 3 .rewriteOrDeleteFiles ≠ .ok () := by
  have atBase : loadTableAt appendedAfterBase.history.kv 1 2 =
      some { tableId := 1, name := "a", validity := ⟨2, none⟩ } := by decide +kernel
  have made : appendedAfterBase.changes = [⟨1, 3, .added, 10⟩] := by decide +kernel
  constructor
  · refine (reachable_conflictsExact appendedAfterBase_reachable .appendFiles (by decide) atBase).1.mpr ?_
    refine ⟨⟨_, (by decide +kernel), TableRow.sameUserVisibleSchemaAs_self _⟩, ?_⟩
    rw [made]
    exact List.forall_mem_singleton.mpr fun conflicts => by cases conflicts.2.2.2
  · intro accepted
    have unaffected := ((reachable_conflictsExact appendedAfterBase_reachable .rewriteOrDeleteFiles (by decide) atBase).1.mp
      accepted).2
    rw [made] at unaffected
    exact unaffected _ List.mem_cons_self ⟨rfl, by decide, by decide, rfl⟩

end DucklakeCatalog
