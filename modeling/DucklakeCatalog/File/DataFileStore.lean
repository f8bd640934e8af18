import DucklakeCatalog.File.Partitions

namespace DucklakeCatalog

open KeyedStore

/-! ## Loading stored rows -/

def loadDataFile (kv : CatalogKv) (dataFileId : DataFileId) : CatalogResult DataFileRow :=
  (kv.dataFile.get? dataFileId).elim (.error (.notFound "data file")) .ok

def loadDeleteFile (kv : CatalogKv) (deleteFileId : DeleteFileId) : CatalogResult DeleteFileRow :=
  (kv.deleteFile.get? deleteFileId).elim (.error (.notFound "delete file")) .ok

def scanCurrentDataFiles (kv : CatalogKv) (tableId : TableId) : List DataFileRow :=
  ((kv.currentDataFile.scan fun key => key.tableId = tableId).map Prod.snd).filter fun row =>
    row.validity.endOrder.isNone

/-! ## Row id ranges -/

def rowIdOverlapCheckNeeded (row : DataFileRow) : Bool :=
  row.rowIdStartKnown && decide (0 < row.recordCount)

def dataFileNextRowId (row : DataFileRow) : Option Nat :=
  if rowIdOverlapCheckNeeded row then some row.rowIdEnd else none

def rejectRowIdOverlap (left right : DataFileRow) : CatalogResult Unit :=
  if left.tableId ≠ right.tableId ∨ ¬left.rowIdStartKnown ∨ ¬right.rowIdStartKnown ∨
      left.recordCount = 0 ∨ right.recordCount = 0 then
    .ok ()
  else if left.rowIdStart < right.rowIdEnd ∧ right.rowIdStart < left.rowIdEnd then
    .error (.invalidMutation
      s!"conflict committing data mutation: data file {left.dataFileId} row ids [{left.rowIdStart}..{left.rowIdEnd}) overlap data file {right.dataFileId} row ids [{right.rowIdStart}..{right.rowIdEnd})")
  else
    .ok ()

def rejectProposedDataFileRowIdOverlaps : List DataFileRow → CatalogResult Unit
  | [] => .ok ()
  | row :: rest => do
    rest.forM (rejectRowIdOverlap row)
    rejectProposedDataFileRowIdOverlaps rest

/-- Tables in the order of their first row, each with its rows in order. -/
def dataFilesByTable (rows : List DataFileRow) : List (TableId × List DataFileRow) :=
  (rows.map DataFileRow.tableId).reverse.dedup.reverse.map fun tableId =>
    (tableId, rows.filter fun row => row.tableId = tableId)

def rejectAllocatedTableRowIdReuse (kv : CatalogKv) (rows : List DataFileRow) : CatalogResult Unit :=
  (dataFilesByTable rows).forM fun (tableId, tableRows) =>
    let nextRowId := loadTableNextRowId kv tableId
    (tableRows.filter rowIdOverlapCheckNeeded).forM fun row =>
      if row.rowIdStart < nextRowId then
        .error (.invalidMutation
          s!"conflict committing data mutation: data file {row.dataFileId} row ids [{row.rowIdStart}..{row.rowIdEnd}) reuse allocated row ids below table {tableId} next row id {nextRowId}")
      else
        .ok ()

def rejectCurrentDataFileRowIdOverlapsForReplacement (kv : CatalogKv) (rows : List DataFileRow)
    (allowedCurrentFileIds : List DataFileId) : CatalogResult Unit :=
  (dataFilesByTable rows).forM fun (tableId, tableRows) =>
    let overlapCandidates := tableRows.filter rowIdOverlapCheckNeeded
    if overlapCandidates = [] then
      .ok ()
    else
      ((scanCurrentDataFiles kv tableId).filter fun existing =>
          existing.dataFileId ∉ allowedCurrentFileIds).forM fun existing =>
        overlapCandidates.forM fun row => rejectRowIdOverlap row existing

def rejectCurrentDataFileRowIdOverlapsExcept (kv : CatalogKv) (rows : List DataFileRow)
    (allowedCurrentFileIds : List DataFileId) : CatalogResult Unit := do
  rejectProposedDataFileRowIdOverlaps rows
  if allowedCurrentFileIds = [] then
    rejectAllocatedTableRowIdReuse kv rows
  else
    rejectCurrentDataFileRowIdOverlapsForReplacement kv rows allowedCurrentFileIds

/-! ## Staging data files -/

def writeDataFileChange (batch : KvBatch) (tableId : TableId) (order : CatalogOrderId)
    (kind : DataFileChangeKind) (dataFileId : DataFileId) : KvBatch :=
  { batch with
    tableDataFileChange := batch.tableDataFileChange.put ⟨tableId, order, kind, dataFileId⟩ ()
    snapshotDataFileChange := batch.snapshotDataFileChange.put ⟨order, tableId, kind, dataFileId⟩ () }

/-- The primary row, its current entry and its begin-order entry, all holding the row itself. -/
def putAppendedDataFile (batch : KvBatch) (row : DataFileRow) : KvBatch :=
  { batch with
    dataFile := batch.dataFile.put row.dataFileId row
    currentDataFile := batch.currentDataFile.put ⟨row.tableId, row.dataFileId⟩ row
    dataFileBegin := batch.dataFileBegin.put ⟨row.tableId, row.validity.beginOrder, row.dataFileId⟩ row }

def stageAppendDataFileWithoutChange (kv : CatalogKv) (batch : KvBatch) (row : DataFileRow) : KvBatch :=
  let batch := stageMaxFileIdWatermark kv (putAppendedDataFile batch row) row.dataFileId
  let batch := (dataFileNextRowId row).elim batch fun nextRowId =>
    stageTableNextRowId kv batch row.tableId nextRowId
  deletePartitionValuesForDataFile kv batch row.dataFileId

def stageAppendDataFile (kv : CatalogKv) (batch : KvBatch) (row : DataFileRow) : KvBatch :=
  writeDataFileChange (stageAppendDataFileWithoutChange kv batch row) row.tableId
    row.validity.beginOrder .added row.dataFileId

/-- The closed row replaces the primary and begin entries and moves from current to ended. -/
def putExpiredDataFile (batch : KvBatch) (row : DataFileRow) (endOrder : CatalogOrderId) : KvBatch :=
  { batch with
    dataFile := batch.dataFile.put row.dataFileId row
    dataFileBegin := batch.dataFileBegin.put ⟨row.tableId, row.validity.beginOrder, row.dataFileId⟩ row
    currentDataFile := batch.currentDataFile.delete ⟨row.tableId, row.dataFileId⟩
    dataFileEnd := batch.dataFileEnd.put ⟨row.tableId, endOrder, row.dataFileId⟩ row.dataFileId }

def stageExpireDataFile (kv : CatalogKv) (batch : KvBatch) (row : DataFileRow) (endOrder : CatalogOrderId) :
    KvBatch :=
  let batch := writeDataFileChange (putExpiredDataFile batch row endOrder) row.tableId endOrder .removed
    row.dataFileId
  deletePartitionLookupsForDataFile kv batch row.dataFileId

def stageExpireCurrentDataFile (kv : CatalogKv) (batch : KvBatch) (dataFileId : DataFileId)
    (endOrder : CatalogOrderId) : CatalogResult (DataFileRow × KvBatch) := do
  let row ← loadDataFile kv dataFileId
  if endOrder ≤ row.validity.beginOrder then
    .error (.invalidMutation s!"data file {dataFileId} cannot end at or before its begin order")
  else if row.validity.endOrder.isSome then
    .error (.invalidMutation s!"data file {dataFileId} is already expired")
  else
    let row := row.withEndOrder (some endOrder)
    let batch := writeDataFileChange (putExpiredDataFile batch row endOrder) row.tableId endOrder .removed
      row.dataFileId
    return (row, deletePartitionLookupsForDataFile kv batch dataFileId)

/-! ## Staging delete files -/

/-- The oldest timeline entry of the data file that holds the delete file. -/
def deleteFileTimelineKeyForRow (kv : CatalogKv) (row : DeleteFileRow) : Option DeleteFileTimelineKey :=
  ((kv.deleteFileTimeline.scan fun key => key.dataFileId = row.dataFileId).find? fun entry =>
    entry.2.deleteFileId = row.deleteFileId).map Prod.fst

def putClosedDeleteFile (kv : CatalogKv) (batch : KvBatch) (tableId : TableId) (row : DeleteFileRow)
    (endOrder : CatalogOrderId) : KvBatch :=
  { batch with
    deleteFile := batch.deleteFile.put row.deleteFileId row
    deleteFileTimeline :=
      (deleteFileTimelineKeyForRow kv row).elim batch.deleteFileTimeline fun key =>
        batch.deleteFileTimeline.put key row
    deleteFileEnd := batch.deleteFileEnd.put ⟨tableId, endOrder, row.deleteFileId⟩ row.deleteFileId }

def stageCloseCurrentDeleteFile (kv : CatalogKv) (batch : KvBatch) (dataFile : DataFileRow)
    (nextDeleteFile : DeleteFileRow) (closeOrder : CatalogOrderId) : CatalogResult KvBatch :=
  match kv.currentDeleteFile.get? nextDeleteFile.dataFileId with
  | none => .ok batch
  | some row =>
    if row.deleteFileId = nextDeleteFile.deleteFileId then
      .error (.invalidMutation s!"delete file {row.deleteFileId} is already current")
    else if closeOrder ≤ row.validity.beginOrder then
      .error (.invalidMutation
        s!"delete file {nextDeleteFile.deleteFileId} cannot close newer delete file {row.deleteFileId}")
    else if nextDeleteFile.validity.beginOrder < row.validity.beginOrder then
      .error (.invalidMutation
        s!"delete file {nextDeleteFile.deleteFileId} cannot replace newer delete file {row.deleteFileId}")
    else
      .ok (putClosedDeleteFile kv batch dataFile.tableId (row.withEndOrder (some closeOrder)) closeOrder)

/-- A replacement reports the deletions of the file it replaces as well, so it begins where that one did. -/
def inheritCurrentDeleteBeginOrder (kv : CatalogKv) (nextDeleteFile : DeleteFileRow) : DeleteFileRow :=
  match kv.currentDeleteFile.get? nextDeleteFile.dataFileId with
  | none => nextDeleteFile
  | some current =>
    if current.deleteFileId = nextDeleteFile.deleteFileId then nextDeleteFile
    else nextDeleteFile.withBeginOrder current.validity.beginOrder

def putRegisteredDeleteFile (batch : KvBatch) (tableId : TableId) (row : DeleteFileRow)
    (closeOrder : CatalogOrderId) : KvBatch :=
  { batch with
    deleteFile := batch.deleteFile.put row.deleteFileId row
    currentDeleteFile := batch.currentDeleteFile.put row.dataFileId row
    deleteFileTimeline := batch.deleteFileTimeline.put ⟨row.dataFileId, closeOrder, row.deleteFileId⟩ row
    tableDeleteFileChange := batch.tableDeleteFileChange.put ⟨tableId, closeOrder, row.deleteFileId⟩ ()
    orderDeleteFileChange := batch.orderDeleteFileChange.put ⟨closeOrder, tableId, row.deleteFileId⟩ () }

def stageRegisterDeleteFileForDataFile (kv : CatalogKv) (batch : KvBatch) (dataFile : DataFileRow)
    (row : DeleteFileRow) (closeOrder : CatalogOrderId) : CatalogResult (DeleteFileRow × KvBatch) := do
  let row := inheritCurrentDeleteBeginOrder kv row
  let batch ← stageCloseCurrentDeleteFile kv batch dataFile row closeOrder
  let batch := putRegisteredDeleteFile batch dataFile.tableId row closeOrder
  return (row, stageMaxFileIdWatermark kv batch row.deleteFileId)

def stageRegisterDeleteFile (kv : CatalogKv) (batch : KvBatch) (row : DeleteFileRow)
    (closeOrder : CatalogOrderId) : CatalogResult (DeleteFileRow × KvBatch) := do
  let dataFile ← loadDataFile kv row.dataFileId
  stageRegisterDeleteFileForDataFile kv batch dataFile row closeOrder

def stageExpireCurrentDeleteFile (kv : CatalogKv) (batch : KvBatch) (dataFile : DataFileRow)
    (deleteFileId : DeleteFileId) (endOrder : CatalogOrderId) : CatalogResult KvBatch := do
  let row ← loadDeleteFile kv deleteFileId
  if row.dataFileId ≠ dataFile.dataFileId then
    .error (.invalidMutation
      s!"delete file {deleteFileId} belongs to data file {row.dataFileId}, not {dataFile.dataFileId}")
  else if endOrder ≤ row.validity.beginOrder then
    .error (.invalidMutation s!"delete file {deleteFileId} cannot end at or before its begin order")
  else if row.validity.endOrder.isSome then
    .error (.invalidMutation s!"delete file {deleteFileId} is already expired")
  else
    let batch := putClosedDeleteFile kv batch dataFile.tableId (row.withEndOrder (some endOrder)) endOrder
    return { batch with currentDeleteFile := batch.currentDeleteFile.delete dataFile.dataFileId }

/-! ## What staging leaves alone -/

theorem stageAppendDataFileWithoutChange_eq (kv : CatalogKv) (batch : KvBatch) (row : DataFileRow) :
    ∃ fileIds rowIds values lookups, stageAppendDataFileWithoutChange kv batch row =
      { putAppendedDataFile batch row with
        conflictMaxFileId := fileIds, tableNextRowId := rowIds
        filePartitionValue := values, partitionValueLookup := lookups } := by
  unfold stageAppendDataFileWithoutChange
  cases dataFileNextRowId row with
  | none =>
    obtain ⟨_, _, same⟩ := deletePartitionValuesForDataFile_changes kv
      (stageMaxFileIdWatermark kv (putAppendedDataFile batch row) row.dataFileId) row.dataFileId
    exact ⟨_, _, _, _, same⟩
  | some nextRowId =>
    obtain ⟨_, _, same⟩ := deletePartitionValuesForDataFile_changes kv
      (stageTableNextRowId kv (stageMaxFileIdWatermark kv (putAppendedDataFile batch row) row.dataFileId)
        row.tableId nextRowId) row.dataFileId
    exact ⟨_, _, _, _, same⟩

theorem stageExpireDataFile_eq (kv : CatalogKv) (batch : KvBatch) (row : DataFileRow) (endOrder : CatalogOrderId) :
    ∃ values lookups, stageExpireDataFile kv batch row endOrder =
      { writeDataFileChange (putExpiredDataFile batch row endOrder) row.tableId endOrder .removed row.dataFileId with
        filePartitionValue := values, partitionValueLookup := lookups } :=
  deletePartitionLookupsForDataFile_changes kv _ row.dataFileId

variable {kv : CatalogKv} {batch next : KvBatch} {endOrder closeOrder : CatalogOrderId} {dataFile : DataFileRow}
  {deleteFile : DeleteFileRow}

/-- An accepted expiry closes a stored row that was still open. -/
theorem stageExpireCurrentDataFile_staged {dataFileId : DataFileId} {expired : DataFileRow}
    (success : stageExpireCurrentDataFile kv batch dataFileId endOrder = .ok (expired, next)) :
    ∃ row, kv.dataFile.get? dataFileId = some row ∧ row.validity.beginOrder < endOrder ∧
      row.validity.endOrder = none ∧ expired = row.withEndOrder (some endOrder) ∧
      next = deletePartitionLookupsForDataFile kv
        (writeDataFileChange (putExpiredDataFile batch expired endOrder) expired.tableId endOrder .removed
          expired.dataFileId) dataFileId := by
  unfold stageExpireCurrentDataFile loadDataFile at success
  rw [bind_eq_ok] at success
  obtain ⟨row, found, success⟩ := success
  cases stored : kv.dataFile.get? dataFileId with
  | none => simp [stored] at found
  | some other =>
    obtain rfl : other = row := by simpa [stored] using found
    split at success
    · simp at success
    · rename_i later
      split at success
      · simp at success
      · rename_i opened
        simp only [pure_eq_ok, Prod.mk.injEq] at success
        obtain ⟨rfl, rfl⟩ := success
        exact ⟨other, rfl, not_le.mp later, by simpa using opened, rfl, rfl⟩

theorem stageExpireCurrentDataFile_ok {dataFileId : DataFileId} {expired : DataFileRow}
    (success : stageExpireCurrentDataFile kv batch dataFileId endOrder = .ok (expired, next)) :
    ∃ row, kv.dataFile.get? dataFileId = some row ∧ row.validity.beginOrder < endOrder ∧
      row.validity.endOrder = none ∧ expired = row.withEndOrder (some endOrder) ∧
      ∃ values lookups, next =
        { writeDataFileChange (putExpiredDataFile batch expired endOrder) expired.tableId endOrder .removed
            expired.dataFileId with
          filePartitionValue := values, partitionValueLookup := lookups } := by
  obtain ⟨row, stored, later, opened, same, rfl⟩ := stageExpireCurrentDataFile_staged success
  exact ⟨row, stored, later, opened, same, deletePartitionLookupsForDataFile_changes kv _ dataFileId⟩

/-- The batches agree outside delete files and the file id watermark. -/
def KvBatch.ChangesDeleteFiles (before after : KvBatch) : Prop :=
  ∃ deleteFile current timeline ended tableChange orderChange fileIds, after = { before with
    deleteFile := deleteFile, currentDeleteFile := current, deleteFileTimeline := timeline,
    deleteFileEnd := ended, tableDeleteFileChange := tableChange, orderDeleteFileChange := orderChange,
    conflictMaxFileId := fileIds }

theorem KvBatch.ChangesDeleteFiles.refl (batch : KvBatch) : batch.ChangesDeleteFiles batch :=
  ⟨_, _, _, _, _, _, _, rfl⟩

theorem KvBatch.ChangesDeleteFiles.trans {first second third : KvBatch} (left : first.ChangesDeleteFiles second)
    (right : second.ChangesDeleteFiles third) : first.ChangesDeleteFiles third := by
  obtain ⟨_, _, _, _, _, _, _, rfl⟩ := left
  obtain ⟨_, _, _, _, _, _, _, rfl⟩ := right
  exact ⟨_, _, _, _, _, _, _, rfl⟩

/-- Closing before a registration either finds no current delete file or closes it at the commit. -/
theorem stageCloseCurrentDeleteFile_ok
    (success : stageCloseCurrentDeleteFile kv batch dataFile deleteFile closeOrder = .ok next) :
    (kv.currentDeleteFile.get? deleteFile.dataFileId = none ∧ next = batch) ∨
      ∃ current, kv.currentDeleteFile.get? deleteFile.dataFileId = some current ∧
        current.deleteFileId ≠ deleteFile.deleteFileId ∧ current.validity.beginOrder < closeOrder ∧
        next = putClosedDeleteFile kv batch dataFile.tableId (current.withEndOrder (some closeOrder)) closeOrder := by
  unfold stageCloseCurrentDeleteFile at success
  cases stored : kv.currentDeleteFile.get? deleteFile.dataFileId with
  | none =>
    left
    simpa [stored, eq_comm] using success
  | some current =>
    right
    simp only [stored] at success
    split at success
    · simp at success
    · rename_i different
      split at success
      · simp at success
      · rename_i later
        split at success
        · simp at success
        · refine ⟨current, rfl, different, not_le.mp later, ?_⟩
          simpa [eq_comm] using success

theorem stageRegisterDeleteFileForDataFile_changes {registered : DeleteFileRow}
    (success : stageRegisterDeleteFileForDataFile kv batch dataFile deleteFile closeOrder =
      .ok (registered, next)) : batch.ChangesDeleteFiles next := by
  unfold stageRegisterDeleteFileForDataFile at success
  rw [bind_eq_ok] at success
  obtain ⟨closed, closes, success⟩ := success
  simp only [pure_eq_ok, Prod.mk.injEq] at success
  obtain ⟨rfl, rfl⟩ := success
  rcases stageCloseCurrentDeleteFile_ok closes with ⟨_, rfl⟩ | ⟨_, _, _, _, rfl⟩
  · exact ⟨_, _, _, _, _, _, _, rfl⟩
  · exact ⟨_, _, _, _, _, _, _, rfl⟩

theorem stageRegisterDeleteFile_ok {registered : DeleteFileRow}
    (success : stageRegisterDeleteFile kv batch deleteFile closeOrder = .ok (registered, next)) :
    ∃ dataFile, kv.dataFile.get? deleteFile.dataFileId = some dataFile ∧
      stageRegisterDeleteFileForDataFile kv batch dataFile deleteFile closeOrder = .ok (registered, next) := by
  unfold stageRegisterDeleteFile loadDataFile at success
  rw [bind_eq_ok] at success
  obtain ⟨dataFile, found, success⟩ := success
  refine ⟨dataFile, ?_, success⟩
  cases stored : kv.dataFile.get? deleteFile.dataFileId with
  | none => simp [stored] at found
  | some row => simpa [stored] using found

/-- An accepted expiry closes an open delete file of the data file and drops its current entry. -/
theorem stageExpireCurrentDeleteFile_ok {deleteFileId : DeleteFileId}
    (success : stageExpireCurrentDeleteFile kv batch dataFile deleteFileId endOrder = .ok next) :
    ∃ row, kv.deleteFile.get? deleteFileId = some row ∧ row.dataFileId = dataFile.dataFileId ∧
      row.validity.beginOrder < endOrder ∧ row.validity.endOrder = none ∧
      next = { putClosedDeleteFile kv batch dataFile.tableId (row.withEndOrder (some endOrder)) endOrder with
        currentDeleteFile := batch.currentDeleteFile.delete dataFile.dataFileId } := by
  unfold stageExpireCurrentDeleteFile loadDeleteFile at success
  rw [bind_eq_ok] at success
  obtain ⟨row, found, success⟩ := success
  cases stored : kv.deleteFile.get? deleteFileId with
  | none => simp [stored] at found
  | some other =>
    obtain rfl : other = row := by simpa [stored] using found
    split at success
    · simp at success
    · rename_i owned
      split at success
      · simp at success
      · rename_i later
        split at success
        · simp at success
        · rename_i opened
          simp only [pure_eq_ok] at success
          exact ⟨other, rfl, by simpa using owned, not_le.mp later, by simpa using opened, success.symm⟩

/-! ## Commits -/

def stageRegisterDeleteFiles (kv : CatalogKv) (now : Int) (rows : List DeleteFileRow) (order : CatalogOrderId) :
    CatalogResult (List DeleteFileRow × KvBatch) :=
  let snapshot := snapshotRowForNextSequence (latestSnapshot kv) order now
  rows.foldlM
    (fun (registered, batch) row => do
      let (row, batch) ← stageRegisterDeleteFile kv batch { row with validity := ⟨order, none⟩ } order
      return (registered ++ [row], batch))
    ([], stageSnapshot {} snapshot)

theorem stageRegisterDeleteFiles_changes {now : Int} {order : CatalogOrderId} {rows registered : List DeleteFileRow}
    (staged : stageRegisterDeleteFiles kv now rows order = .ok (registered, batch)) :
    (stageSnapshot {} (snapshotRowForNextSequence (latestSnapshot kv) order now)).ChangesDeleteFiles batch := by
  refine foldlM_invariant (fun state : List DeleteFileRow × KvBatch =>
    (stageSnapshot {} (snapshotRowForNextSequence (latestSnapshot kv) order now)).ChangesDeleteFiles state.2) staged
    (.refl _) ?_
  intro state row next _ soFar taken
  simp only [bind_eq_ok, pure_eq_ok] at taken
  obtain ⟨⟨registered, registeredBatch⟩, registers, rfl⟩ := taken
  obtain ⟨_, _, registers⟩ := stageRegisterDeleteFile_ok registers
  exact soFar.trans (stageRegisterDeleteFileForDataFile_changes registers)

def commitRegisterDeleteFiles (kv : CatalogKv) (now : Int) (rows : List DeleteFileRow) :
    CatalogResult (List DeleteFileRow) × CatalogKv :=
  if rows = [] then
    (.ok [], kv)
  else
    commitWith kv (stageRegisterDeleteFiles kv now rows)

end DucklakeCatalog
