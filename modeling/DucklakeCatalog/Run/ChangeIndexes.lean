import DucklakeCatalog.Run.DataFiles
import DucklakeCatalog.Run.DeleteFileTimeline
import DucklakeCatalog.Run.InlineDeletions
import DucklakeCatalog.Run.CatalogSteps
import DucklakeCatalog.Snapshot.ChangesMade

namespace DucklakeCatalog

open KeyedStore

/-! ## Entries of the change indexes -/

/-- One entry of the indexes that tell what the commit of an order did to data. -/
inductive ChangeKey where
  | file (key : SnapshotDataFileChangeKey)
  | delete (key : OrderTableKey)
  | operation (key : SnapshotOperationKey)

def ChangeKey.order : ChangeKey → CatalogOrderId
  | file key => key.order
  | delete key => key.order
  | operation key => key.order

def CatalogKv.HasChange (kv : CatalogKv) : ChangeKey → Prop
  | .file key => kv.snapshotDataFileChange.get? key = some ()
  | .delete key => kv.orderDeleteFileChange.get? key = some ()
  | .operation key => kv.snapshotOperation.get? key = some ()

/-- The staged part of the three change indexes. -/
def KvBatch.changeMaps (batch : KvBatch) :=
  (batch.snapshotDataFileChange, batch.orderDeleteFileChange, batch.snapshotOperation)

/-- The batch adds these entries to those of the store. -/
def StagesChanges (kv : CatalogKv) (batch : KvBatch) (Filed : ChangeKey → Prop) : Prop :=
  ∀ key, (kv.commit batch).HasChange key ↔ kv.HasChange key ∨ Filed key

section

variable {kv : CatalogKv} {before after : KvBatch} {key : ChangeKey}

theorem hasChange_congr (same : after.changeMaps = before.changeMaps) :
    (kv.commit after).HasChange key ↔ (kv.commit before).HasChange key := by
  simp only [KvBatch.changeMaps, Prod.mk.injEq] at same
  obtain ⟨files, deletes, operations⟩ := same
  cases key with
  | file key => simp [CatalogKv.HasChange, CatalogKv.commit, files]
  | delete key => simp [CatalogKv.HasChange, CatalogKv.commit, deletes]
  | operation key => simp [CatalogKv.HasChange, CatalogKv.commit, operations]

theorem hasChange_untouched (same : after.changeMaps = ({} : KvBatch).changeMaps) :
    (kv.commit after).HasChange key ↔ kv.HasChange key :=
  hasChange_congr same

theorem StagesChanges.untouched (same : after.changeMaps = ({} : KvBatch).changeMaps) {Filed : ChangeKey → Prop}
    (none : ∀ key, ¬Filed key) : StagesChanges kv after Filed := by
  intro key
  rw [hasChange_untouched same]
  exact ⟨Or.inl, fun either => either.resolve_right (none key)⟩

theorem KvBatch.ChangesPartitions.changeMaps (changes : before.ChangesPartitions after) :
    after.changeMaps = before.changeMaps := by
  obtain ⟨_, _, rfl⟩ := changes
  rfl

theorem KvBatch.ChangesStats.changeMaps (changes : before.ChangesStats after) :
    after.changeMaps = before.changeMaps := by
  obtain ⟨_, _, _, _, rfl⟩ := changes
  rfl

theorem KvBatch.ChangesInlineDeletions.changeMaps (changes : before.ChangesInlineDeletions after) :
    after.changeMaps = before.changeMaps := by
  obtain ⟨_, rfl⟩ := changes
  rfl

theorem KvBatch.ChangesTables.changeMaps (changes : before.ChangesTables after) :
    after.changeMaps = before.changeMaps := by
  obtain ⟨_, _, _, rfl⟩ := changes
  rfl

/-! ## Single steps -/

theorem hasChange_writeDataFileChange (tableId : TableId) (order : CatalogOrderId) (kind : DataFileChangeKind)
    (dataFileId : DataFileId) : (kv.commit (writeDataFileChange before tableId order kind dataFileId)).HasChange key ↔
      (kv.commit before).HasChange key ∨ .file ⟨order, tableId, kind, dataFileId⟩ = key := by
  cases key with
  | file key =>
    simp only [CatalogKv.HasChange, CatalogKv.commit, writeDataFileChange, OrderedMap.commit_put, OrderedMap.get?_insert,
      ChangeKey.file.injEq]
    split
    · rename_i same
      simp [same]
    · rename_i other
      simp [Ne.symm other]
  | delete key
  | operation key => simp [CatalogKv.HasChange, CatalogKv.commit, writeDataFileChange]

theorem hasChange_stageAppendDataFile (row : DataFileRow) :
    (kv.commit (stageAppendDataFile kv before row)).HasChange key ↔ (kv.commit before).HasChange key ∨
      .file ⟨row.validity.beginOrder, row.tableId, .added, row.dataFileId⟩ = key := by
  unfold stageAppendDataFile
  rw [hasChange_writeDataFileChange]
  obtain ⟨_, _, _, _, same⟩ := stageAppendDataFileWithoutChange_eq kv before row
  rw [same]
  exact or_congr_left (hasChange_congr rfl)

theorem hasChange_stageMergeReplacementDataFile (row : DataFileRow) (order : CatalogOrderId) :
    (kv.commit (stageMergeReplacementDataFile kv before row order)).HasChange key ↔ (kv.commit before).HasChange key ∨
      .file ⟨order, row.tableId, .added, row.dataFileId⟩ = key := by
  unfold stageMergeReplacementDataFile
  rw [hasChange_writeDataFileChange]
  obtain ⟨_, _, _, _, same⟩ := stageAppendDataFileWithoutChange_eq kv before row
  rw [same]
  exact or_congr_left (hasChange_congr rfl)

/-- A mutation files every file it adds under its own order. -/
theorem hasChange_stageMutationDataFile (row : DataFileRow) (order : CatalogOrderId) :
    (kv.commit (stageMutationDataFile kv order before (mutationDataFile order row))).HasChange key ↔
      (kv.commit before).HasChange key ∨ .file ⟨order, row.tableId, .added, row.dataFileId⟩ = key := by
  unfold stageMutationDataFile mutationDataFile
  by_cases partially : row.maxPartialOrder.isSome = true
  · rw [if_pos partially, if_pos (by simpa [DataFileRow.withEndOrder] using partially)]
    exact hasChange_stageMergeReplacementDataFile (row.withEndOrder none) order
  · rw [if_neg partially, if_neg (by simpa using partially)]
    exact hasChange_stageAppendDataFile { row with validity := ⟨order, none⟩ }

theorem hasChange_stageDropDataFile (now : Int) (order : CatalogOrderId) (row : DataFileRow) :
    (kv.commit (stageDropDataFile kv now order before row)).HasChange key ↔ (kv.commit before).HasChange key ∨
      .file ⟨order, row.tableId, .removed, row.dataFileId⟩ = key := by
  obtain ⟨_, _, same⟩ := stageExpireDataFile_eq kv before (row.withEndOrder (some order)) order
  have staged : (stageDropDataFile kv now order before row).changeMaps =
      (writeDataFileChange (putExpiredDataFile before (row.withEndOrder (some order)) order) row.tableId order .removed
        row.dataFileId).changeMaps := by
    simp only [stageDropDataFile, same]
    rfl
  rw [hasChange_congr staged, hasChange_writeDataFileChange]
  exact or_congr_left (hasChange_congr rfl)

theorem hasChange_expireCompactedSourceFile {now : Int} {dataFileId : DataFileId} {order : CatalogOrderId}
    {policy : DeleteFilePolicy} {source : ExpiredSourceFile}
    (success : expireCompactedSourceFile kv now before dataFileId order policy = .ok (source, after)) :
    ∃ row, kv.dataFile.get? dataFileId = some row ∧ ((kv.commit after).HasChange key ↔ (kv.commit before).HasChange key ∨
      .file ⟨order, row.tableId, .removed, row.dataFileId⟩ = key) := by
  obtain ⟨_, _, expired, expires, rfl⟩ := expireCompactedSourceFile_ok success
  obtain ⟨row, stored, _, _, same, _, _, rfl⟩ := stageExpireCurrentDataFile_ok expires
  refine ⟨row, stored, ?_⟩
  rw [same]
  have filed := @hasChange_writeDataFileChange kv (putExpiredDataFile before (row.withEndOrder (some order)) order) key
    row.tableId order .removed row.dataFileId
  refine Iff.trans (hasChange_congr rfl) (filed.trans ?_)
  exact or_congr_left (hasChange_congr rfl)

theorem hasChange_expireRewriteSource {now : Int} {inlineDeletions : List (DataFileId × List Nat)}
    {order : CatalogOrderId} {sourceFileId : DataFileId}
    (success : expireRewriteSource kv now inlineDeletions order before sourceFileId = .ok after) :
    ∃ row, kv.dataFile.get? sourceFileId = some row ∧ ((kv.commit after).HasChange key ↔ (kv.commit before).HasChange key ∨
      .file ⟨order, row.tableId, .removed, row.dataFileId⟩ = key) := by
  obtain ⟨source, expired, expires, rest⟩ := expireRewriteSource_ok success
  obtain ⟨row, stored, filed⟩ := @hasChange_expireCompactedSourceFile kv before expired key _ _ _ _ _ expires
  refine ⟨row, stored, Iff.trans ?_ filed⟩
  rcases rest with ⟨_, rfl⟩ | ⟨deleteFileId, _, closes⟩
  · rfl
  · obtain ⟨_, ends, rfl⟩ := expireCompactedDeleteFile_ok closes
    obtain ⟨_, _, _, _, _, rfl⟩ := stageExpireCurrentDeleteFile_ok ends
    exact hasChange_congr rfl

/-- A delete file is filed under the order it is registered at, whatever order it begins at. -/
theorem hasChange_stageRegisterDeleteFileForDataFile {dataFile : DataFileRow} {row registered : DeleteFileRow}
    {order : CatalogOrderId}
    (success : stageRegisterDeleteFileForDataFile kv before dataFile row order = .ok (registered, after)) :
    (kv.commit after).HasChange key ↔ (kv.commit before).HasChange key ∨
      .delete ⟨order, dataFile.tableId, row.deleteFileId⟩ = key := by
  have inserted := stageRegisterDeleteFileForDataFile_orderChange success
  obtain ⟨_, _, _, _, _, _, _, rfl⟩ := stageRegisterDeleteFileForDataFile_changes success
  cases key with
  | file key => simp [CatalogKv.HasChange, CatalogKv.commit]
  | delete key =>
    simp only [CatalogKv.HasChange, inserted, OrderedMap.get?_insert, ChangeKey.delete.injEq]
    split
    · rename_i same
      simp [same]
    · rename_i other
      simp [Ne.symm other]
  | operation key => simp [CatalogKv.HasChange, CatalogKv.commit]

theorem hasChange_stageSnapshotOperation (order : CatalogOrderId) (kind : SnapshotOperationKind) (tableId : TableId) :
    (kv.commit (stageSnapshotOperation before order kind tableId)).HasChange key ↔
      (kv.commit before).HasChange key ∨ .operation ⟨order, kind, tableId⟩ = key := by
  cases key with
  | file key
  | delete key => simp [CatalogKv.HasChange, CatalogKv.commit, stageSnapshotOperation]
  | operation key =>
    simp only [CatalogKv.HasChange, CatalogKv.commit, stageSnapshotOperation, OrderedMap.commit_put, OrderedMap.get?_insert,
      ChangeKey.operation.injEq]
    split
    · rename_i same
      simp [same]
    · rename_i other
      simp [Ne.symm other]

theorem hasChange_stageFlushInlineTablePayloads {flush : InlineTableFlush} {order : CatalogOrderId}
    (success : stageFlushInlineTablePayloads kv before flush order = .ok after) :
    (kv.commit after).HasChange key ↔ (kv.commit before).HasChange key ∨
      (flush.flushInlineData = true ∧ .operation ⟨order, .inlineFlush, flush.tableId⟩ = key) := by
  unfold stageFlushInlineTablePayloads stageFlushInlineFileDeletions at success
  simp only [bind_eq_ok, pure, Except.pure, Except.ok.injEq] at success
  obtain ⟨_, ⟨rows, _, rfl⟩, success⟩ := success
  have opening : (kv.commit (stageEndInlineFileDeletions before rows order)).HasChange key ↔
      (kv.commit before).HasChange key :=
    hasChange_congr (stageEndInlineFileDeletions_changes before rows order).changeMaps
  split at success
  · rename_i flushesData
    rw [bind_eq_ok] at success
    obtain ⟨flushed, _, success⟩ := success
    have filed := @hasChange_stageSnapshotOperation kv (stageEndInlineFileDeletions before rows order) key order
      .inlineFlush flush.tableId
    have same : after.changeMaps =
        (stageSnapshotOperation (stageEndInlineFileDeletions before rows order) order .inlineFlush flush.tableId).changeMaps := by
      cases newest : (flushed.map fun row => row.validity.beginOrder).max? with
      | none
      | some maxBeginOrder =>
        simp only [newest, Option.elim, Except.ok.injEq] at success
        rw [← success]
        rfl
    rw [hasChange_congr same, filed, opening]
    simp [flushesData]
  · rename_i deletionsOnly
    simp only [Except.ok.injEq] at success
    rw [← success, opening]
    simp [deletionsOnly]

end

/-! ## Whole commits -/

namespace CatalogOperation

/-- The data files the operation adds. -/
def newDataFiles : CatalogOperation → List DataFileRow
  | appendDataFiles _ rows _ => rows
  | dataMutation _ input => input.dataFiles
  | mergeAdjacent _ compaction => compaction.newFiles
  | rewriteDelete _ compaction => compaction.newFiles
  | _ => []

/-- The data files the operation closes. -/
def closedDataFileIds : CatalogOperation → List DataFileId
  | dataMutation _ input => input.droppedDataFileIds
  | mergeAdjacent _ compaction => compaction.sourceFileIds
  | rewriteDelete _ compaction => compaction.sourceFileIds
  | _ => []

def newDeleteFiles : CatalogOperation → List DeleteFileRow
  | dataMutation _ input => input.deleteFiles
  | registerDeleteFiles _ rows => rows
  | _ => []

/-- The operation is an accepted rewrite of the table. -/
def Rewrites (kv : CatalogKv) (operation : CatalogOperation) (tableId : TableId) : Prop :=
  ∃ now compaction normalized, operation = .rewriteDelete now compaction ∧
    validateRewriteDelete kv compaction = .ok (tableId, normalized)

end CatalogOperation

/-- The entries of added and of closed files. -/
def AddsFile (order : CatalogOrderId) (rows : List DataFileRow) (key : ChangeKey) : Prop :=
  ∃ row ∈ rows, .file ⟨order, row.tableId, .added, row.dataFileId⟩ = key

def ClosesFile (kv : CatalogKv) (order : CatalogOrderId) (dataFileIds : List DataFileId) (key : ChangeKey) : Prop :=
  ∃ dataFileId ∈ dataFileIds, ∃ row, kv.dataFile.get? dataFileId = some row ∧
    .file ⟨order, row.tableId, .removed, row.dataFileId⟩ = key

/-- The entry of a delete file. -/
def FilesDelete (kv : CatalogKv) (order : CatalogOrderId) (appended : List DataFileRow) (row : DeleteFileRow)
    (key : ChangeKey) : Prop :=
  ∃ dataFile, appendedOrCommittedDataFile kv appended row = .ok dataFile ∧
    .delete ⟨order, dataFile.tableId, row.deleteFileId⟩ = key

def FilesDeletes (kv : CatalogKv) (order : CatalogOrderId) (appended : List DataFileRow) (rows : List DeleteFileRow)
    (key : ChangeKey) : Prop :=
  ∃ row ∈ rows, FilesDelete kv order appended row key

def MarksFlush (order : CatalogOrderId) (flushes : List InlineTableFlush) (key : ChangeKey) : Prop :=
  ∃ flush ∈ flushes, flush.flushInlineData = true ∧ .operation ⟨order, .inlineFlush, flush.tableId⟩ = key

/-- The entries an accepted operation files in the change indexes. -/
def CatalogOperation.FilesChange (kv : CatalogKv) (operation : CatalogOperation) (key : ChangeKey) : Prop :=
  AddsFile kv.generatedOrderId operation.newDataFiles key ∨
    ClosesFile kv kv.generatedOrderId operation.closedDataFileIds key ∨
    FilesDeletes kv kv.generatedOrderId operation.newDataFiles operation.newDeleteFiles key ∨
    MarksFlush kv.generatedOrderId operation.inlineFlushes key ∨
    ∃ tableId, operation.Rewrites kv tableId ∧ .operation ⟨kv.generatedOrderId, .rewriteDelete, tableId⟩ = key

theorem addsFile_congr {left right : List DataFileRow} {order : CatalogOrderId} {key : ChangeKey}
    (same : left.map DataFileRow.place = right.map DataFileRow.place) : AddsFile order left key ↔ AddsFile order right key := by
  have through (rows : List DataFileRow) : AddsFile order rows key ↔
      ∃ place ∈ rows.map DataFileRow.place, .file ⟨order, place.2, .added, place.1⟩ = key := by
    simp [AddsFile, DataFileRow.place]
  rw [through, through, same]

section

variable {kv : CatalogKv} {before after : KvBatch} {key : ChangeKey} {order : CatalogOrderId} {now : Int}

theorem foldl_stageAppendDataFile_changes (rows : List DataFileRow) :
    (kv.commit ((rows.map fun row => ({ row with validity := ⟨order, none⟩ } : DataFileRow)).foldl (stageAppendDataFile kv)
      before)).HasChange key ↔ (kv.commit before).HasChange key ∨ AddsFile order rows key := by
  rw [List.foldl_map]
  exact foldl_collects (fun batch key => (kv.commit batch).HasChange key) _
    (fun _ row _ => hasChange_stageAppendDataFile { row with validity := ⟨order, none⟩ }) rows before key

theorem foldl_stageMergeReplacement_changes (rows : List DataFileRow) :
    (kv.commit (rows.foldl (fun batch row => stageMergeReplacementDataFile kv batch row order) before)).HasChange key ↔
      (kv.commit before).HasChange key ∨ AddsFile order rows key :=
  foldl_collects (fun batch key => (kv.commit batch).HasChange key) _
    (fun _ row _ => hasChange_stageMergeReplacementDataFile row order) rows before key

theorem foldl_stageMutationDataFile_changes (rows : List DataFileRow) :
    (kv.commit ((rows.map (mutationDataFile order)).foldl (stageMutationDataFile kv order) before)).HasChange key ↔
      (kv.commit before).HasChange key ∨ AddsFile order rows key := by
  rw [List.foldl_map]
  exact foldl_collects (fun batch key => (kv.commit batch).HasChange key) _
    (fun _ row _ => hasChange_stageMutationDataFile row order) rows before key

theorem expireMergeSources_changes {sources : List ExpiredSourceFile} {sourceFileIds : List DataFileId}
    (expires : expireMergeSources kv now before sourceFileIds order = .ok (sources, after)) :
    (kv.commit after).HasChange key ↔ (kv.commit before).HasChange key ∨ ClosesFile kv order sourceFileIds key := by
  refine foldlM_collects (fun state key => (kv.commit state.2).HasChange key)
    (fun dataFileId key => ∃ row, kv.dataFile.get? dataFileId = some row ∧
      .file ⟨order, row.tableId, .removed, row.dataFileId⟩ = key) expires ?_ key
  intro state sourceFileId next taken key
  simp only [bind_eq_ok, pure_eq_ok] at taken
  obtain ⟨⟨source, sourceBatch⟩, expires, rfl⟩ := taken
  obtain ⟨row, stored, filed⟩ := @hasChange_expireCompactedSourceFile kv state.2 sourceBatch key _ _ _ _ _ expires
  simpa [stored] using filed

theorem expireRewriteSources_changes {inlineDeletions : List (DataFileId × List Nat)} {sourceFileIds : List DataFileId}
    (expires : sourceFileIds.foldlM (expireRewriteSource kv now inlineDeletions order) before = .ok after) :
    (kv.commit after).HasChange key ↔ (kv.commit before).HasChange key ∨ ClosesFile kv order sourceFileIds key := by
  refine foldlM_collects (fun batch key => (kv.commit batch).HasChange key)
    (fun dataFileId key => ∃ row, kv.dataFile.get? dataFileId = some row ∧
      .file ⟨order, row.tableId, .removed, row.dataFileId⟩ = key) expires ?_ key
  intro state sourceFileId next taken key
  obtain ⟨row, stored, filed⟩ := @hasChange_expireRewriteSource kv state next key _ _ _ _ taken
  simpa [stored] using filed

theorem foldl_stageDropDataFile_changes (rows : List DataFileRow) :
    (kv.commit (rows.foldl (stageDropDataFile kv now order) before)).HasChange key ↔
      (kv.commit before).HasChange key ∨
        ∃ row ∈ rows, .file ⟨order, row.tableId, .removed, row.dataFileId⟩ = key :=
  foldl_collects (fun batch key => (kv.commit batch).HasChange key) _
    (fun _ row _ => hasChange_stageDropDataFile now order row) rows before key

theorem loadCurrentDroppedDataFiles_closes {dataFileIds : List DataFileId} {rows : List DataFileRow}
    (success : loadCurrentDroppedDataFiles kv dataFileIds = .ok rows) :
    (∃ row ∈ rows, .file ⟨order, row.tableId, .removed, row.dataFileId⟩ = key) ↔ ClosesFile kv order dataFileIds key := by
  constructor
  · rintro ⟨row, listed, same⟩
    obtain ⟨named, stored, _⟩ := loadCurrentDroppedDataFiles_ok success row listed
    exact ⟨row.dataFileId, named, row, stored, same⟩
  · rintro ⟨dataFileId, named, row, stored, same⟩
    unfold loadCurrentDroppedDataFiles at success
    simp only [bind_eq_ok, pure_eq_ok] at success
    obtain ⟨loaded, loads, _, _, rfl⟩ := success
    obtain ⟨found, listed, loadsOne⟩ := mapM_accepts loads named
    unfold loadCurrentDroppedDataFile loadDataFile at loadsOne
    rw [stored, bind_eq_ok] at loadsOne
    obtain ⟨other, isRow, loadsOne⟩ := loadsOne
    obtain rfl : row = other := by simpa using isRow
    split at loadsOne
    · cases loadsOne
    · split at loadsOne
      · cases loadsOne
      · obtain rfl : row = found := by simpa using loadsOne
        exact ⟨row, listed, same⟩

theorem foldlM_stageFlush_changes {flushes : List InlineTableFlush}
    (success : flushes.foldlM (fun batch flush => stageFlushInlineTablePayloads kv batch flush order) before = .ok after) :
    (kv.commit after).HasChange key ↔ (kv.commit before).HasChange key ∨ MarksFlush order flushes key :=
  foldlM_collects (fun batch key => (kv.commit batch).HasChange key) _ success
    (fun _ _ _ taken _ => hasChange_stageFlushInlineTablePayloads taken) key

theorem stageMutationDeleteFiles_filed {appended : List DataFileRow} {flushes : List InlineTableFlush}
    {deleteFiles registered : List DeleteFileRow}
    (success : stageMutationDeleteFiles kv appended flushes order before deleteFiles = .ok (registered, after)) :
    (kv.commit after).HasChange key ↔ (kv.commit before).HasChange key ∨
      FilesDeletes kv order appended deleteFiles key := by
  refine foldlM_collects (fun state key => (kv.commit state.2).HasChange key) (FilesDelete kv order appended) success
    ?_ key
  intro state row next taken key
  simp only [bind_eq_ok, pure_eq_ok] at taken
  obtain ⟨prepared, prepares, ⟨registeredRow, registeredBatch⟩, stages, rfl⟩ := taken
  obtain ⟨sameId, sameFile, _⟩ := materializedDeleteFile_ok prepares
  obtain ⟨dataFile, found, registers⟩ := stageMaterializedDeleteFile_ok stages
  have given : appendedOrCommittedDataFile kv appended row = .ok dataFile := by
    rw [← found]
    simp only [appendedOrCommittedDataFile, sameFile]
  have filed := @hasChange_stageRegisterDeleteFileForDataFile kv state.2 registeredBatch key _ _ _ _ registers
  rw [sameId] at filed
  simpa [FilesDelete, given] using filed

theorem stageRegisterDeleteFiles_filed {rows registered : List DeleteFileRow}
    (success : stageRegisterDeleteFiles kv now rows order = .ok (registered, after)) :
    (kv.commit after).HasChange key ↔ kv.HasChange key ∨ FilesDeletes kv order [] rows key := by
  unfold stageRegisterDeleteFiles at success
  have opening : (kv.commit (stageSnapshot {} (snapshotRowForNextSequence (latestSnapshot kv) order now))).HasChange key ↔
      kv.HasChange key := hasChange_untouched rfl
  rw [← opening]
  refine foldlM_collects (fun state key => (kv.commit state.2).HasChange key) (FilesDelete kv order []) success ?_ key
  intro state row next taken key
  simp only [bind_eq_ok, pure_eq_ok] at taken
  obtain ⟨⟨registeredRow, registeredBatch⟩, registers, rfl⟩ := taken
  obtain ⟨dataFile, stored, registers⟩ := stageRegisterDeleteFile_ok registers
  have given : appendedOrCommittedDataFile kv [] row = .ok dataFile := by
    simp [appendedOrCommittedDataFile, loadDataFile, stored]
  have filed := @hasChange_stageRegisterDeleteFileForDataFile kv state.2 registeredBatch key _ _ _ _ registers
  simpa [FilesDelete, given] using filed

theorem filesDeletes_mutation (appended : List DataFileRow) (rows : List DeleteFileRow) :
    FilesDeletes kv order (appended.map (mutationDataFile order)) rows key ↔ FilesDeletes kv order appended rows key := by
  refine exists_congr fun row => and_congr_right fun _ => ?_
  have named : (fun dataFile : DataFileRow => decide ((mutationDataFile order dataFile).dataFileId = row.dataFileId)) =
      fun dataFile => decide (dataFile.dataFileId = row.dataFileId) := by
    funext dataFile
    rw [(mutationDataFile_eq order dataFile).1]
  unfold FilesDelete appendedOrCommittedDataFile
  rw [List.find?_map, Function.comp_def, named]
  cases appended.find? fun dataFile => decide (dataFile.dataFileId = row.dataFileId) with
  | none => rfl
  | some dataFile => simp [(mutationDataFile_eq order dataFile).2.1]

end

theorem CatalogOperation.filesChange_none {kv : CatalogKv} {operation : CatalogOperation}
    (noFiles : operation.newDataFiles = []) (noClosed : operation.closedDataFileIds = [])
    (noDeletes : operation.newDeleteFiles = []) (noFlushes : operation.inlineFlushes = [])
    (noRewrite : ∀ tableId, ¬operation.Rewrites kv tableId) (key : ChangeKey) : ¬operation.FilesChange kv key := by
  simp [FilesChange, AddsFile, ClosesFile, FilesDeletes, MarksFlush, noFiles, noClosed, noDeletes, noFlushes, noRewrite]

/-- A commit files its own changes and keeps all others. -/
theorem CatalogOperation.Commits.stagesChanges {kv : CatalogKv} {operation : CatalogOperation} {batch : KvBatch}
    (commits : operation.Commits kv batch) : StagesChanges kv batch (operation.FilesChange kv) := by
  intro key
  have opening (snapshot : SnapshotRow) : (kv.commit (stageSnapshot {} snapshot)).HasChange key ↔ kv.HasChange key :=
    hasChange_untouched rfl
  cases commits with
  | createTable _ staged =>
    obtain ⟨_, rfl⟩ := stageCreateTableRow_ok staged
    exact StagesChanges.untouched rfl (filesChange_none rfl rfl rfl rfl (by simp [Rewrites])) key
  | appendDataFiles staged =>
    obtain ⟨_, flushes, _⟩ := stageAppendDataFiles_ok staged
    rw [foldlM_stageFlush_changes flushes, foldl_stageAppendDataFile_changes, opening, or_assoc]
    simp [FilesChange, newDataFiles, closedDataFileIds, newDeleteFiles, inlineFlushes, Rewrites, AddsFile, ClosesFile,
      FilesDeletes, MarksFlush]
  | @dataMutation input now _ _ _ staged =>
    obtain ⟨valued, values, registered, withDeletes, registers, closed, closes, flushed, flushes, dropped, drops, _,
      rfl⟩ := stageDataMutation_ok staged
    have deletions : (kv.commit (if input.inlineFileDeletions = [] then
        stageNewInlineFileDeletions flushed input.inlineFileDeletions kv.generatedOrderId
        else stageMaxFileIdWatermark kv
          (stageNewInlineFileDeletions flushed input.inlineFileDeletions kv.generatedOrderId)
          (snapshotRowForNextSequence (DucklakeCatalog.latestSnapshot kv) kv.generatedOrderId now).sequence)).HasChange key ↔
        (kv.commit flushed).HasChange key := by
      refine hasChange_congr (Eq.trans ?_ (stageNewInlineFileDeletions_changes flushed input.inlineFileDeletions
        kv.generatedOrderId).changeMaps)
      split
      · rfl
      · rfl
    rw [foldl_stageDropDataFile_changes, deletions, loadCurrentDroppedDataFiles_closes drops,
      foldlM_stageFlush_changes flushes,
      hasChange_congr (stageCloseMaterializedInlineFileDeletions_changes closes).changeMaps,
      stageMutationDeleteFiles_filed registers,
      hasChange_congr (stageCompactionStats_changes valued input.fileColumnStats kv.generatedOrderId).changeMaps,
      hasChange_congr (stageNewFilePartitionValues_changes values).changeMaps, foldl_stageMutationDataFile_changes, opening]
    simp only [filesDeletes_mutation, FilesChange, newDataFiles, closedDataFileIds, newDeleteFiles, inlineFlushes, Rewrites]
    simp
    tauto
  | @mergeAdjacent compaction _ _ _ _ staged =>
    obtain ⟨sources, expired, expires, newFiles, derives, valued, values, _, rfl⟩ := stageMergeAdjacent_ok staged
    have places : ((applyMergeReplacementVisibility newFiles sources kv.generatedOrderId).map fun newFile =>
        newFile.withEndOrder none).map DataFileRow.place = compaction.newFiles.map DataFileRow.place := by
      rw [← deriveMergeReplacementRowIds_places derives,
        ← applyMergeReplacementVisibility_places newFiles sources kv.generatedOrderId, List.map_map]
      rfl
    rw [hasChange_congr (stageCompactionStats_changes valued _ kv.generatedOrderId).changeMaps,
      hasChange_congr (stageNewFilePartitionValues_changes values).changeMaps, foldl_stageMergeReplacement_changes,
      expireMergeSources_changes expires, opening, addsFile_congr places]
    simp only [FilesChange, newDataFiles, closedDataFileIds, newDeleteFiles, inlineFlushes, Rewrites]
    simp [FilesDeletes, MarksFlush]
    tauto
  | @rewriteDelete compaction tableId normalized now _ _ valid staged =>
    obtain ⟨_, sameSources, normalizes⟩ := validateRewriteDelete_ok valid
    obtain ⟨expired, expires, valued, values, _, rfl⟩ := stageRewriteDelete_ok staged
    have places := normalizeRewriteReplacementRowIds_places normalizes
    have sources : normalized.sourceFileIds = compaction.sourceFileIds := by rw [sameSources]
    rw [hasChange_congr (stageNewFilePartitionValues_changes values).changeMaps,
      hasChange_congr (stageCompactionStats_changes _ _ kv.generatedOrderId).changeMaps,
      foldl_stageAppendDataFile_changes, expireRewriteSources_changes expires,
      hasChange_stageSnapshotOperation, opening, addsFile_congr places, sources]
    have only : (∃ other, CatalogOperation.Rewrites kv (.rewriteDelete now compaction) other ∧
        ChangeKey.operation ⟨kv.generatedOrderId, .rewriteDelete, other⟩ = key) ↔
        ChangeKey.operation ⟨kv.generatedOrderId, .rewriteDelete, tableId⟩ = key := by
      simp [Rewrites, valid]
    simp only [FilesChange, newDataFiles, closedDataFileIds, newDeleteFiles, inlineFlushes, only]
    simp [FilesDeletes, MarksFlush]
    tauto
  | registerDeleteFiles staged =>
    rw [stageRegisterDeleteFiles_filed staged]
    simp [FilesChange, newDataFiles, closedDataFileIds, newDeleteFiles, inlineFlushes, Rewrites, AddsFile, ClosesFile,
      FilesDeletes, MarksFlush]
  | inlineFileDeletions staged =>
    obtain ⟨_, rfl⟩ := stageInlineFileDeletions_ok staged
    refine StagesChanges.untouched ?_ (filesChange_none rfl rfl rfl rfl (by simp [Rewrites])) key
    exact (stageNewInlineFileDeletions_changes _ _ _).changeMaps
  | registerInlinePayload _ staged =>
    obtain ⟨_, _, _, _, _, _, _, _, _, rfl⟩ := stageInlineTablePayload_changes staged
    exact StagesChanges.untouched rfl (filesChange_none rfl rfl rfl rfl (by simp [Rewrites])) key
  | registerInlinePayloadWithTable _ staged =>
    obtain ⟨_, _, _, _, _, _, _, _, _, rfl⟩ := stageInlineTablePayloadWithTable_changes staged
    exact StagesChanges.untouched rfl (filesChange_none rfl rfl rfl rfl (by simp [Rewrites])) key

end DucklakeCatalog
