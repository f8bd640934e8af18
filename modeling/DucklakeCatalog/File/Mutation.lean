import DucklakeCatalog.File.Compaction

namespace DucklakeCatalog

open KeyedStore

/-! ## Appends -/

def stageAppendDataFiles (kv : CatalogKv) (now : Int) (rows : List DataFileRow)
    (inlineFlushes : List InlineTableFlush) (order : CatalogOrderId) : CatalogResult (List DataFileRow × KvBatch) := do
  let rows := rows.map fun row => { row with validity := ⟨order, none⟩ }
  let batch := stageSnapshot {} (snapshotRowForNextSequence (latestSnapshot kv) order now)
  rejectCurrentDataFileRowIdOverlapsExcept kv rows []
  let batch := rows.foldl (stageAppendDataFile kv) batch
  let batch ← inlineFlushes.foldlM
    (fun batch flush => stageFlushInlineTablePayloads kv batch flush order) batch
  return (rows, batch)

variable {inlineFlushes : List InlineTableFlush} {appendedDataFiles : List DataFileRow} {next : KvBatch}

theorem stageAppendDataFiles_ok {kv : CatalogKv} {now : Int} {order : CatalogOrderId} {batch : KvBatch}
    {rows result : List DataFileRow}
    (staged : stageAppendDataFiles kv now rows inlineFlushes order = .ok (result, batch)) :
    rejectCurrentDataFileRowIdOverlapsExcept kv (rows.map fun row => { row with validity := ⟨order, none⟩ }) [] = .ok () ∧
      inlineFlushes.foldlM (fun batch flush => stageFlushInlineTablePayloads kv batch flush order)
        ((rows.map fun row => { row with validity := ⟨order, none⟩ }).foldl (stageAppendDataFile kv)
          (stageSnapshot {} (snapshotRowForNextSequence (latestSnapshot kv) order now))) = .ok batch ∧
      (rows.map fun row => { row with validity := ⟨order, none⟩ }) = result := by
  unfold stageAppendDataFiles at staged
  simp only [bind_eq_ok, pure_eq_ok, Prod.mk.injEq] at staged
  obtain ⟨_, passes, flushed, flushes, rfl, rfl⟩ := staged
  exact ⟨passes, flushes, rfl⟩

def commitAppendDataFilesWithInlineFlushes (kv : CatalogKv) (now : Int) (rows : List DataFileRow)
    (inlineFlushes : List InlineTableFlush) : CatalogResult (List DataFileRow) × CatalogKv :=
  if rows = [] ∧ inlineFlushes = [] then
    (.ok [], kv)
  else
    commitWith kv (stageAppendDataFiles kv now rows inlineFlushes)

def commitAppendDataFiles (kv : CatalogKv) (now : Int) (rows : List DataFileRow) :
    CatalogResult (List DataFileRow) × CatalogKv :=
  commitAppendDataFilesWithInlineFlushes kv now rows []

/-! ## Data mutations -/

structure DataMutationInput where
  dataFiles : List DataFileRow := []
  deleteFiles : List DeleteFileRow := []
  inlineFlushes : List InlineTableFlush := []
  partitionValues : List FilePartitionValueRow := []
  inlineFileDeletions : List InlineFileDeletionRow := []
  fileColumnStats : List FileColumnStatsRow := []
  droppedDataFileIds : List DataFileId := []
  deriving DecidableEq, Repr

structure DataMutationCommit where
  dataFiles : List DataFileRow := []
  deleteFiles : List DeleteFileRow := []
  partitionValueCount : Nat := 0
  fileColumnStatsCount : Nat := 0
  flushedInlineCount : Nat := 0
  inlineFileDeletionCount : Nat := 0
  droppedDataFileCount : Nat := 0
  deriving DecidableEq, Repr

def appendedTableId (dataFiles : List DataFileRow) (dataFileId : DataFileId) : Option TableId :=
  (dataFiles.find? fun row => row.dataFileId = dataFileId).map DataFileRow.tableId

/-- Rows that describe an appended file must name it and its table. -/
def validateAppendedReference (dataFiles : List DataFileRow) (dataFileId : DataFileId) (tableId : TableId)
    (missing label : String) : CatalogResult Unit :=
  match appendedTableId dataFiles dataFileId with
  | none => .error (.notFound missing)
  | some appendedTable =>
    if appendedTable ≠ tableId then
      .error (.invalidMutation s!"{label} table {tableId} does not match appended data file table {appendedTable}")
    else .ok ()

def validatePartitionValues (dataFiles : List DataFileRow) (partitionValues : List FilePartitionValueRow) :
    CatalogResult Unit :=
  partitionValues.forM fun row =>
    validateAppendedReference dataFiles row.dataFileId row.tableId "appended data file for partition value" "partition"

def validateFileColumnStats (dataFiles : List DataFileRow) (fileColumnStats : List FileColumnStatsRow) :
    CatalogResult Unit :=
  fileColumnStats.forM fun row =>
    validateAppendedReference dataFiles row.dataFileId row.tableId "appended data file for file column stats"
      "file column stats"

/-- Files that store existing rows keep the begin order the caller gave them. -/
def mutationDataFile (order : CatalogOrderId) (row : DataFileRow) : DataFileRow :=
  if row.maxPartialOrder.isSome then row.withEndOrder none else { row with validity := ⟨order, none⟩ }

def stageMutationDataFile (kv : CatalogKv) (order : CatalogOrderId) (batch : KvBatch) (row : DataFileRow) :
    KvBatch :=
  if row.maxPartialOrder.isSome then
    writeDataFileChange (stageAppendDataFileWithoutChange kv batch row) row.tableId order .added row.dataFileId
  else
    stageAppendDataFile kv batch row

def appendedOrCommittedDataFile (kv : CatalogKv) (appendedDataFiles : List DataFileRow)
    (deleteFile : DeleteFileRow) : CatalogResult DataFileRow :=
  match appendedDataFiles.find? fun dataFile => dataFile.dataFileId = deleteFile.dataFileId with
  | some dataFile => .ok dataFile
  | none => loadDataFile kv deleteFile.dataFileId

/-- A flush names its snapshot by sequence; the latest one is found without its raw row. -/
def snapshotByDucklakeSequence (kv : CatalogKv) (sequence : RawSnapshotSequence) : Option SnapshotRow :=
  match latestSnapshot kv with
  | some latest => if latest.sequence = sequence then some latest else snapshotByRawSequence kv sequence
  | none => snapshotByRawSequence kv sequence

def flushedRowDeleteOrders (kv : CatalogKv) (dataFile : DataFileRow) (latest : SnapshotRow)
    (flush : InlineTableFlush) : CatalogResult (List CatalogOrderId) :=
  if flush.tableId ≠ dataFile.tableId then .ok []
  else
    match snapshotByDucklakeSequence kv flush.flushSnapshotSequence with
    | none => .ok []
    | some flushSnapshot => do
      let changes ← listInlineRowChanges kv flush.tableId flushSnapshot.order latest.order
      return (changes.filter fun change =>
        change.schemaId = flush.schemaId && change.kind = .deleted && dataFile.rowIdStart ≤ change.rowId &&
          change.rowId < dataFile.rowIdEnd).map InlineRowChange.order

/-- Order of the oldest inline deletion the new delete file takes over. -/
def firstInlineRowDeleteForMaterializedFile (kv : CatalogKv) (appendedDataFiles : List DataFileRow)
    (inlineFlushes : List InlineTableFlush) (deleteFile : DeleteFileRow) (latest : Option SnapshotRow) :
    CatalogResult (Option CatalogOrderId) :=
  match latest with
  | none => .ok none
  | some latest => do
    let dataFile ← appendedOrCommittedDataFile kv appendedDataFiles deleteFile
    let fileDeletes := ((listInlineFileDeletionRowsForTableAt kv dataFile.tableId latest.order).filter fun row =>
      row.dataFileId = deleteFile.dataFileId).map fun row => row.validity.beginOrder
    let rowDeletes ← inlineFlushes.mapM (flushedRowDeleteOrders kv dataFile latest)
    return (fileDeletes ++ rowDeletes.flatten).min?

def materializedDeleteFile (kv : CatalogKv) (appendedDataFiles : List DataFileRow)
    (inlineFlushes : List InlineTableFlush) (latest : Option SnapshotRow) (order : CatalogOrderId)
    (row : DeleteFileRow) : CatalogResult DeleteFileRow := do
  let row := if row.validity.beginOrder = autoOrder then { row with validity := ⟨order, none⟩ }
    else row.withEndOrder none
  if row.validity.beginOrder = order then
    let firstInlineDelete ←
      firstInlineRowDeleteForMaterializedFile kv appendedDataFiles inlineFlushes row latest
    return firstInlineDelete.elim row row.withBeginOrder
  else
    return row

def stageMaterializedDeleteFile (kv : CatalogKv) (appendedDataFiles : List DataFileRow) (batch : KvBatch)
    (row : DeleteFileRow) (order : CatalogOrderId) : CatalogResult (DeleteFileRow × KvBatch) :=
  match appendedDataFiles.find? fun dataFile => dataFile.dataFileId = row.dataFileId with
  | some dataFile => stageRegisterDeleteFileForDataFile kv batch dataFile row order
  | none => stageRegisterDeleteFile kv batch row order

def stageMutationDeleteFiles (kv : CatalogKv) (appendedDataFiles : List DataFileRow)
    (inlineFlushes : List InlineTableFlush) (order : CatalogOrderId) (batch : KvBatch)
    (deleteFiles : List DeleteFileRow) : CatalogResult (List DeleteFileRow × KvBatch) :=
  deleteFiles.foldlM
    (fun (registered, batch) row => do
      let row ← materializedDeleteFile kv appendedDataFiles inlineFlushes (latestSnapshot kv) order row
      let (row, batch) ← stageMaterializedDeleteFile kv appendedDataFiles batch row order
      return (registered ++ [row], batch))
    ([], batch)

theorem stageMaterializedDeleteFile_ok {kv : CatalogKv}
    {batch : KvBatch} {row registered : DeleteFileRow} {order : CatalogOrderId}
    (success : stageMaterializedDeleteFile kv appendedDataFiles batch row order = .ok (registered, next)) :
    ∃ dataFile, appendedOrCommittedDataFile kv appendedDataFiles row = .ok dataFile ∧
      stageRegisterDeleteFileForDataFile kv batch dataFile row order = .ok (registered, next) := by
  unfold stageMaterializedDeleteFile at success
  split at success
  · rename_i dataFile found
    exact ⟨dataFile, by simp [appendedOrCommittedDataFile, found], success⟩
  · rename_i missing
    obtain ⟨dataFile, stored, success⟩ := stageRegisterDeleteFile_ok success
    exact ⟨dataFile, by simp [appendedOrCommittedDataFile, missing, loadDataFile, stored], success⟩

theorem stageMutationDeleteFiles_changes {kv : CatalogKv} {order : CatalogOrderId} {batch : KvBatch}
    {deleteFiles registered : List DeleteFileRow}
    (success : stageMutationDeleteFiles kv appendedDataFiles inlineFlushes order batch deleteFiles =
      .ok (registered, next)) : batch.ChangesDeleteFiles next := by
  refine foldlM_invariant (fun state => batch.ChangesDeleteFiles state.2) success (.refl batch) ?_
  intro state row next _ changed taken
  simp only [bind_eq_ok] at taken
  obtain ⟨materialized, _, ⟨row, batch⟩, staged, same⟩ := taken
  obtain rfl := by simpa [pure, Except.pure] using same
  obtain ⟨dataFile, _, staged⟩ := stageMaterializedDeleteFile_ok staged
  exact changed.trans (stageRegisterDeleteFileForDataFile_changes staged)

def materializedDataFilesByTable (kv : CatalogKv) (appendedDataFiles : List DataFileRow)
    (deleteFiles : List DeleteFileRow) : CatalogResult (List (TableId × DataFileId)) :=
  deleteFiles.mapM fun deleteFile => do
    let dataFile ← appendedOrCommittedDataFile kv appendedDataFiles deleteFile
    return (dataFile.tableId, dataFile.dataFileId)

/-- Inline deletions the registered delete files now carry end at the commit. -/
def stageCloseMaterializedInlineFileDeletions (kv : CatalogKv) (batch : KvBatch)
    (appendedDataFiles : List DataFileRow) (deleteFiles : List DeleteFileRow) (endOrder : CatalogOrderId) :
    CatalogResult KvBatch :=
  match latestSnapshot kv with
  | none => .ok batch
  | some latest => do
    let materialized ← materializedDataFilesByTable kv appendedDataFiles deleteFiles
    return ((materialized.map Prod.fst).dedup.insertionSort (· ≤ ·)).foldl
      (fun batch tableId =>
        stageEndInlineFileDeletions batch
          ((listInlineFileDeletionRowsForTableAt kv tableId latest.order).filter fun row =>
            (tableId, row.dataFileId) ∈ materialized)
          endOrder)
      batch

theorem stageCloseMaterializedInlineFileDeletions_changes {kv : CatalogKv} {batch : KvBatch}
    {deleteFiles : List DeleteFileRow} {endOrder : CatalogOrderId}
    (success : stageCloseMaterializedInlineFileDeletions kv batch appendedDataFiles deleteFiles endOrder =
      .ok next) : batch.ChangesInlineDeletions next := by
  unfold stageCloseMaterializedInlineFileDeletions at success
  split at success
  · simp only [Except.ok.injEq] at success
    exact ⟨_, success.symm⟩
  · simp only [bind_eq_ok, pure_eq_ok] at success
    obtain ⟨materialized, _, rfl⟩ := success
    refine foldl_relates (fun _ => ⟨_, rfl⟩) (fun left right => left.trans right) ?_ _ _
    intro batch tableId
    exact stageEndInlineFileDeletions_changes batch _ endOrder

def loadCurrentDroppedDataFile (kv : CatalogKv) (dataFileId : DataFileId) : CatalogResult DataFileRow := do
  let row ← loadDataFile kv dataFileId
  if row.dataFileId ≠ dataFileId then
    .error (.decode s!"data file key {dataFileId} returned row {row.dataFileId}")
  else if row.validity.endOrder.isSome then
    .error (.invalidMutation s!"data file {row.dataFileId} is already closed")
  else .ok row

/-- Every row is loaded before any is checked to be current. -/
def loadCurrentDroppedDataFiles (kv : CatalogKv) (dataFileIds : List DataFileId) :
    CatalogResult (List DataFileRow) := do
  let rows ← dataFileIds.mapM (loadCurrentDroppedDataFile kv)
  rows.forM fun row =>
    if (kv.currentDataFile.get? ⟨row.tableId, row.dataFileId⟩).isNone then
      .error (.invalidMutation s!"data file {row.dataFileId} is not current")
    else .ok ()
  return rows

def stageDropDataFile (kv : CatalogKv) (now : Int) (order : CatalogOrderId) (batch : KvBatch) (row : DataFileRow) :
    KvBatch :=
  let row := row.withEndOrder (some order)
  stageScheduledDataFileCleanup (stageExpireDataFile kv batch row order) row.dataFileId now

def validateDataMutation (kv : CatalogKv) (input : DataMutationInput) : CatalogResult Unit := do
  validatePartitionValues input.dataFiles input.partitionValues
  validateFileColumnStats input.dataFiles input.fileColumnStats
  if input.inlineFlushes = [] then
    rejectCurrentDataFileRowIdOverlapsExcept kv input.dataFiles (input.deleteFiles.map DeleteFileRow.dataFileId)
  else .ok ()

def stageDataMutation (kv : CatalogKv) (now : Int) (input : DataMutationInput) (order : CatalogOrderId) :
    CatalogResult (DataMutationCommit × KvBatch) := do
  let snapshot := snapshotRowForNextSequence (latestSnapshot kv) order now
  let dataFiles := input.dataFiles.map (mutationDataFile order)
  let batch := dataFiles.foldl (stageMutationDataFile kv order) (stageSnapshot {} snapshot)
  let batch ← stageNewFilePartitionValues batch input.partitionValues dataFiles
  let batch := stageCompactionStats batch input.fileColumnStats order
  let (deleteFiles, batch) ←
    stageMutationDeleteFiles kv dataFiles input.inlineFlushes order batch input.deleteFiles
  let batch ← stageCloseMaterializedInlineFileDeletions kv batch dataFiles deleteFiles order
  let batch ← input.inlineFlushes.foldlM
    (fun batch flush => stageFlushInlineTablePayloads kv batch flush order) batch
  let batch := stageNewInlineFileDeletions batch input.inlineFileDeletions order
  let batch := if input.inlineFileDeletions = [] then batch else stageMaxFileIdWatermark kv batch snapshot.sequence
  let dropped ← loadCurrentDroppedDataFiles kv input.droppedDataFileIds
  let batch := dropped.foldl (stageDropDataFile kv now order) batch
  return ({ dataFiles, deleteFiles, partitionValueCount := input.partitionValues.length,
            fileColumnStatsCount := input.fileColumnStats.length, flushedInlineCount := input.inlineFlushes.length,
            inlineFileDeletionCount := input.inlineFileDeletions.length, droppedDataFileCount := dropped.length },
    batch)

theorem stageDataMutation_ok {kv : CatalogKv} {now : Int} {order : CatalogOrderId} {batch : KvBatch}
    {input : DataMutationInput} {result : DataMutationCommit}
    (staged : stageDataMutation kv now input order = .ok (result, batch)) :
    ∃ valued, stageNewFilePartitionValues
        ((input.dataFiles.map (mutationDataFile order)).foldl (stageMutationDataFile kv order)
          (stageSnapshot {} (snapshotRowForNextSequence (latestSnapshot kv) order now)))
        input.partitionValues (input.dataFiles.map (mutationDataFile order)) = .ok valued ∧
      ∃ deleteFiles registered, stageMutationDeleteFiles kv (input.dataFiles.map (mutationDataFile order))
          input.inlineFlushes order (stageCompactionStats valued input.fileColumnStats order) input.deleteFiles =
            .ok (deleteFiles, registered) ∧
      ∃ closed, stageCloseMaterializedInlineFileDeletions kv registered (input.dataFiles.map (mutationDataFile order))
          deleteFiles order = .ok closed ∧
      ∃ flushed, input.inlineFlushes.foldlM (fun batch flush => stageFlushInlineTablePayloads kv batch flush order)
          closed = .ok flushed ∧
      ∃ dropped, loadCurrentDroppedDataFiles kv input.droppedDataFileIds = .ok dropped ∧
        { dataFiles := input.dataFiles.map (mutationDataFile order), deleteFiles
          partitionValueCount := input.partitionValues.length
          fileColumnStatsCount := input.fileColumnStats.length, flushedInlineCount := input.inlineFlushes.length
          inlineFileDeletionCount := input.inlineFileDeletions.length
          droppedDataFileCount := dropped.length } = result ∧
        dropped.foldl (stageDropDataFile kv now order)
          (if input.inlineFileDeletions = [] then stageNewInlineFileDeletions flushed input.inlineFileDeletions order
          else stageMaxFileIdWatermark kv (stageNewInlineFileDeletions flushed input.inlineFileDeletions order)
            (snapshotRowForNextSequence (latestSnapshot kv) order now).sequence) = batch := by
  unfold stageDataMutation at staged
  simp only [bind_eq_ok, pure_eq_ok, Prod.mk.injEq] at staged
  obtain ⟨valued, values, ⟨deleteFiles, registered⟩, registers, closed, closes, flushed, flushes, dropped, drops,
    rfl, rfl⟩ := staged
  exact ⟨valued, values, deleteFiles, registered, registers, closed, closes, flushed, flushes, dropped, drops, rfl, rfl⟩

def commitDataMutationWithDetails (kv : CatalogKv) (now : Int) (input : DataMutationInput) :
    CatalogResult DataMutationCommit × CatalogKv :=
  if input = {} then
    (.ok {}, kv)
  else
    match validateDataMutation kv input with
    | .error failure => (.error failure, kv)
    | .ok () => commitWith kv (stageDataMutation kv now input)

/-! ## What file commits leave alone -/

/-- What is staged besides files, their statistics and partition values, and the operation of a rewrite. -/
def KvBatch.besideFiles (batch : KvBatch) : KvBatch :=
  { batch with
    dataFile := {}, currentDataFile := {}, dataFileBegin := {}, dataFileEnd := {}
    tableDataFileChange := {}, snapshotDataFileChange := {}, snapshotOperation := {}
    deleteFile := {}, currentDeleteFile := {}, deleteFileTimeline := {}, deleteFileEnd := {}
    tableDeleteFileChange := {}, orderDeleteFileChange := {}
    filePartitionValue := {}, partitionValueLookup := {}, fileColumnStats := {}, fileColumnStatsLookup := {}
    tableFileStatsVersion := {}, catalogFileStatsVersion := {}
    scheduledDataFileCleanup := {}, scheduledDeleteFileCleanup := {}, conflictMaxFileId := {}, tableNextRowId := {} }

section

variable {kv : CatalogKv} {now : Int} {order : CatalogOrderId} {before after batch : KvBatch}

theorem KvBatch.ChangesPartitions.besideFiles (changes : before.ChangesPartitions after) :
    after.besideFiles = before.besideFiles := by
  obtain ⟨_, _, rfl⟩ := changes
  rfl

theorem KvBatch.ChangesStats.besideFiles (changes : before.ChangesStats after) :
    after.besideFiles = before.besideFiles := by
  obtain ⟨_, _, _, _, rfl⟩ := changes
  rfl

theorem KvBatch.ChangesDeleteFiles.besideFiles (changes : before.ChangesDeleteFiles after) :
    after.besideFiles = before.besideFiles := by
  obtain ⟨_, _, _, _, _, _, _, rfl⟩ := changes
  rfl

theorem stageAppendDataFile_besideFiles (kv : CatalogKv) (batch : KvBatch) (row : DataFileRow) :
    (stageAppendDataFile kv batch row).besideFiles = batch.besideFiles := by
  obtain ⟨_, _, _, _, same⟩ := stageAppendDataFileWithoutChange_eq kv batch row
  rw [stageAppendDataFile, same]
  rfl

theorem stageMutationDataFile_besideFiles (kv : CatalogKv) (order : CatalogOrderId) (batch : KvBatch)
    (row : DataFileRow) : (stageMutationDataFile kv order batch row).besideFiles = batch.besideFiles := by
  unfold stageMutationDataFile
  split
  · exact stageAppendDataFile_besideFiles kv batch row
  · exact stageAppendDataFile_besideFiles kv batch row

theorem stageDropDataFile_besideFiles (kv : CatalogKv) (now : Int) (order : CatalogOrderId) (batch : KvBatch)
    (row : DataFileRow) : (stageDropDataFile kv now order batch row).besideFiles = batch.besideFiles := by
  obtain ⟨_, _, same⟩ := stageExpireDataFile_eq kv batch (row.withEndOrder (some order)) order
  simp only [stageDropDataFile, same]
  rfl

theorem expireCompactedSourceFile_besideFiles {dataFileId : DataFileId} {policy : DeleteFilePolicy}
    {source : ExpiredSourceFile}
    (success : expireCompactedSourceFile kv now before dataFileId order policy = .ok (source, after)) :
    after.besideFiles = before.besideFiles := by
  obtain ⟨_, _, expired, expires, rfl⟩ := expireCompactedSourceFile_ok success
  obtain ⟨_, _, _, _, _, _, _, rfl⟩ := stageExpireCurrentDataFile_ok expires
  rfl

theorem stageMergeAdjacent_besideFiles {compaction result : DataFileCompaction}
    (staged : stageMergeAdjacent kv now compaction order = .ok (result, batch)) :
    batch.besideFiles =
      (stageSnapshot {} (snapshotRowForNextSequence (latestSnapshot kv) order now)).besideFiles := by
  obtain ⟨_, expired, expires, _, _, valued, values, rfl, rfl⟩ := stageMergeAdjacent_ok staged
  rw [(stageCompactionStats_changes _ _ _).besideFiles, (stageNewFilePartitionValues_changes values).besideFiles]
  refine Eq.trans (foldl_view KvBatch.besideFiles ?_ _ _) ?_
  · intro state newFile
    exact stageAppendDataFile_besideFiles kv state newFile
  · exact expireMergeSources_invariant (fun state => state.besideFiles =
      (stageSnapshot {} (snapshotRowForNextSequence (latestSnapshot kv) order now)).besideFiles) expires rfl
      fun untouched expiresSource => (expireCompactedSourceFile_besideFiles expiresSource).trans untouched

theorem stageRewriteDelete_besideFiles {compaction result : DataFileCompaction} {tableId : TableId}
    (staged : stageRewriteDelete kv now compaction tableId order = .ok (result, batch)) :
    batch.besideFiles =
      (stageSnapshot {} (snapshotRowForNextSequence (latestSnapshot kv) order now)).besideFiles := by
  obtain ⟨expired, expires, valued, values, rfl, rfl⟩ := stageRewriteDelete_ok staged
  rw [(stageNewFilePartitionValues_changes values).besideFiles, (stageCompactionStats_changes _ _ _).besideFiles,
    foldl_view KvBatch.besideFiles (stageAppendDataFile_besideFiles kv)]
  exact expireRewriteSources_invariant (fun state => state.besideFiles =
    (stageSnapshot {} (snapshotRowForNextSequence (latestSnapshot kv) order now)).besideFiles) expires rfl
    (fun untouched expiresSource => (expireCompactedSourceFile_besideFiles expiresSource).trans untouched) id

/-- An append reaches anything else only through its flushes. -/
theorem stageAppendDataFiles_besideFiles {rows result : List DataFileRow}
    (staged : stageAppendDataFiles kv now rows inlineFlushes order = .ok (result, batch)) :
    ∃ appended, appended.besideFiles =
        (stageSnapshot {} (snapshotRowForNextSequence (latestSnapshot kv) order now)).besideFiles ∧
      inlineFlushes.foldlM (fun batch flush => stageFlushInlineTablePayloads kv batch flush order) appended =
        .ok batch := by
  obtain ⟨_, flushes, _⟩ := stageAppendDataFiles_ok staged
  exact ⟨_, foldl_view KvBatch.besideFiles (stageAppendDataFile_besideFiles kv) _ _, flushes⟩

/-- A mutation writes its files, ends deletions its delete files take over, flushes, adds its own deletions and
drops files. -/
theorem stageDataMutation_besideFiles {input : DataMutationInput} {result : DataMutationCommit}
    (staged : stageDataMutation kv now input order = .ok (result, batch)) :
    ∃ registered closed flushed dataFiles deleteFiles, registered.besideFiles =
        (stageSnapshot {} (snapshotRowForNextSequence (latestSnapshot kv) order now)).besideFiles ∧
      stageCloseMaterializedInlineFileDeletions kv registered dataFiles deleteFiles order = .ok closed ∧
      input.inlineFlushes.foldlM (fun batch flush => stageFlushInlineTablePayloads kv batch flush order) closed =
        .ok flushed ∧
      batch.besideFiles = (stageNewInlineFileDeletions flushed input.inlineFileDeletions order).besideFiles := by
  obtain ⟨valued, values, deleteFiles, registered, registers, closed, closes, flushed, flushes, dropped, drops, rfl,
    rfl⟩ := stageDataMutation_ok staged
  refine ⟨registered, closed, flushed, _, deleteFiles, ?_, closes, flushes, ?_⟩
  · rw [(stageMutationDeleteFiles_changes registers).besideFiles, (stageCompactionStats_changes _ _ _).besideFiles,
      (stageNewFilePartitionValues_changes values).besideFiles]
    exact foldl_view KvBatch.besideFiles (stageMutationDataFile_besideFiles kv order) _ _
  · rw [foldl_view KvBatch.besideFiles (stageDropDataFile_besideFiles kv now order)]
    split
    · rfl
    · rfl

end

end DucklakeCatalog
