import DucklakeCatalog.Fdb.Store

/-! Writes of one transaction. A value that is not versionstamped keeps its
placeholder orders; the key it is stored under then carries the commit order. -/
namespace DucklakeCatalog.Fdb

open KeyedStore

def stageSnapshot (kv : CatalogKv) (snapshot : SnapshotRow) : CatalogKv :=
  { kv with
    snapshot := kv.snapshot.insert snapshot.order snapshot
    snapshotTimestamp := kv.snapshotTimestamp.insert ⟨snapshot.createdAtMicros, snapshot.order⟩ snapshot
    latestSnapshotRow := kv.latestSnapshotRow.insert () snapshot
    rawSnapshotRow := kv.rawSnapshotRow.insert snapshot.sequence snapshot }

def stageSnapshotOperation (order : CatalogOrderId) (kv : CatalogKv)
    (operation : SnapshotOperationKind × TableId) : CatalogKv :=
  { kv with snapshotOperation := kv.snapshotOperation.insert ⟨order, operation.1, operation.2⟩ () }

/-- The atomic maximum of FoundationDB. -/
def raiseTo [LinearOrder K] (map : OrderedMap K Nat) (key : K) (candidate : Nat) : OrderedMap K Nat :=
  map.insert key ((map.get? key).elim candidate fun current => max current candidate)

def stageMaxFileIdWatermark (kv : CatalogKv) (candidate : Nat) : CatalogKv :=
  { kv with conflictMaxFileId := raiseTo kv.conflictMaxFileId () candidate }

def stageMaxCatalogIdWatermark (kv : CatalogKv) (candidate : Nat) : CatalogKv :=
  { kv with conflictMaxCatalogId := raiseTo kv.conflictMaxCatalogId () candidate }

def stageTableNextRowId (kv : CatalogKv) (tableId : TableId) (candidate : Nat) : CatalogKv :=
  { kv with tableNextRowId := raiseTo kv.tableNextRowId tableId candidate }

/-! ## Data files -/

def stageDataFileChange (order : CatalogOrderId) (kv : CatalogKv) (kind : DataFileChangeKind) (row : DataFileRow) :
    CatalogKv :=
  { kv with
    tableDataFileChange := kv.tableDataFileChange.insert ⟨row.tableId, order, kind, row.dataFileId⟩ ()
    snapshotDataFileChange := kv.snapshotDataFileChange.insert ⟨order, row.tableId, kind, row.dataFileId⟩ () }

/-- A file with a partial order keeps its begin order; only its partial order can be this commit's. -/
def stageCompactedDataFile (order : CatalogOrderId) (kv : CatalogKv) (row : DataFileRow)
    (maxPartialOrder : CatalogOrderId) : CatalogResult CatalogKv :=
  if row.validity.beginOrder = autoOrder ∧ maxPartialOrder = autoOrder then
    .error (.invalidMutation "data file begin and max partial orders cannot both reference the current commit")
  else
    let row := { row with maxPartialOrder := some (resolveOrder order maxPartialOrder) }
    .ok { kv with
      currentDataFile := kv.currentDataFile.insert ⟨row.tableId, row.dataFileId⟩ row
      dataFile := kv.dataFile.insert row.dataFileId row
      dataFileBegin := kv.dataFileBegin.insert ⟨row.tableId, row.validity.beginOrder, row.dataFileId⟩ row }

def stageDataFileWithoutWatermark (order : CatalogOrderId) (kv : CatalogKv) (row : DataFileRow) :
    CatalogResult CatalogKv :=
  match row.maxPartialOrder with
  | some maxPartialOrder => do
    let kv ← stageCompactedDataFile order kv row maxPartialOrder
    return stageDataFileChange order kv .added row
  | none =>
    let stamped := row.withBeginOrder order
    let kv := { kv with
      currentDataFile := kv.currentDataFile.insert ⟨row.tableId, row.dataFileId⟩ stamped
      dataFile := kv.dataFile.insert row.dataFileId stamped
      dataFileBegin := kv.dataFileBegin.insert ⟨row.tableId, order, row.dataFileId⟩ row }
    .ok (stageDataFileChange order kv .added row)

/-- A new data file raises the row id watermark of its table. -/
def stageDataFile (order : CatalogOrderId) (kv : CatalogKv) (row : DataFileRow) : CatalogResult CatalogKv := do
  let kv ← stageDataFileWithoutWatermark order kv row
  return (dataFileNextRowId row).elim kv (stageTableNextRowId kv row.tableId)

def stageDataFiles (order : CatalogOrderId) (kv : CatalogKv) (rows : List DataFileRow) : CatalogResult CatalogKv :=
  rows.foldlM (stageDataFile order) kv

/-- The partition lookups to clear are read outside the transaction. -/
def stageExpiredDataFile (seen : CatalogKv) (order : CatalogOrderId) (kv : CatalogKv) (row : DataFileRow) :
    CatalogKv :=
  let row := row.withEndOrder (some order)
  let lookups := (seen.filePartitionValue.scan fun key => key.dataFileId = row.dataFileId).map fun entry =>
    (⟨entry.2.tableId, entry.2.partitionKeyIndex, entry.2.partitionValue, entry.2.dataFileId⟩ :
      PartitionValueLookupKey)
  let kv := { kv with
    partitionValueLookup := lookups.foldl OrderedMap.erase kv.partitionValueLookup
    currentDataFile := kv.currentDataFile.erase ⟨row.tableId, row.dataFileId⟩
    dataFile := kv.dataFile.insert row.dataFileId row
    dataFileBegin := kv.dataFileBegin.insert ⟨row.tableId, row.validity.beginOrder, row.dataFileId⟩ row
    dataFileEnd := kv.dataFileEnd.insert ⟨row.tableId, order, row.dataFileId⟩ row.dataFileId }
  stageDataFileChange order kv .removed row

def stageScheduledDataFileCleanup (now : Int) (kv : CatalogKv) (cleanupKind : ScheduledDataFileCleanupKind)
    (dataFileId : DataFileId) : CatalogKv :=
  { kv with scheduledDataFileCleanup := kv.scheduledDataFileCleanup.insert dataFileId (cleanupKind, now) }

def stageFilePartitionValue (kv : CatalogKv) (row : FilePartitionValueRow) (dataFile : DataFileRow) : CatalogKv :=
  { kv with
    filePartitionValue := kv.filePartitionValue.insert ⟨row.dataFileId, row.partitionKeyIndex⟩ row
    partitionValueLookup := kv.partitionValueLookup.insert
      ⟨row.tableId, row.partitionKeyIndex, row.partitionValue, row.dataFileId⟩ (row, dataFile) }

def stageFileColumnStats (kv : CatalogKv) (row : FileColumnStatsRow) : CatalogKv :=
  { kv with
    fileColumnStats := kv.fileColumnStats.insert ⟨row.dataFileId, row.columnId⟩ row
    fileColumnStatsLookup := kv.fileColumnStatsLookup.insert ⟨row.tableId, row.columnId, row.dataFileId⟩ row }

def stageFileStatsVersions (order : CatalogOrderId) (kv : CatalogKv) (rows : List FileColumnStatsRow) : CatalogKv :=
  if rows = [] then kv
  else
    { kv with
      catalogFileStatsVersion := kv.catalogFileStatsVersion.insert () order
      tableFileStatsVersion := rows.foldl (fun versions row => versions.insert row.tableId order)
        kv.tableFileStatsVersion }

/-! ## Delete files -/

def accessedUnreadable : CatalogError :=
  .invalidMutation "Read or wrote an unreadable key"

/-- Delete files staged so far. FoundationDB does not let a transaction read a
key that it has itself given a versionstamped value. -/
structure DeleteFileStaging where
  kv : CatalogKv
  unreadable : List DataFileId := []

def stageScheduledDeleteFileCleanup (now : Int) (kv : CatalogKv) (tableId : TableId) (deleteFileId : DeleteFileId) :
    CatalogKv :=
  { kv with scheduledDeleteFileCleanup := kv.scheduledDeleteFileCleanup.insert deleteFileId (tableId, now) }

/-- The timeline entry to close is looked up outside the transaction. -/
def putClosedDeleteFile (seen : CatalogKv) (order : CatalogOrderId) (kv : CatalogKv) (tableId : TableId)
    (row : DeleteFileRow) : CatalogKv :=
  let row := row.withEndOrder (some order)
  { kv with
    deleteFile := kv.deleteFile.insert row.deleteFileId row
    deleteFileTimeline := (deleteFileTimelineKeyForRow seen row).elim kv.deleteFileTimeline fun key =>
      kv.deleteFileTimeline.insert key row
    deleteFileEnd := kv.deleteFileEnd.insert ⟨tableId, order, row.deleteFileId⟩ row.deleteFileId }

/-- Close the delete file that is current for the data file and hand on its begin order. -/
def stageCloseCurrentDeleteFile (seen : CatalogKv) (now : Int) (order : CatalogOrderId) (staging : DeleteFileStaging)
    (tableId : TableId) (next : DeleteFileRow) : CatalogResult (Option CatalogOrderId × CatalogKv) :=
  if next.dataFileId ∈ staging.unreadable then
    .error accessedUnreadable
  else
    match staging.kv.currentDeleteFile.get? next.dataFileId with
    | none => .ok (none, staging.kv)
    | some current =>
      if current.deleteFileId = next.deleteFileId then
        .error (.invalidMutation s!"delete file {current.deleteFileId} is already current")
      else
        let kv := putClosedDeleteFile seen order staging.kv tableId current
        .ok (some current.validity.beginOrder, stageScheduledDeleteFileCleanup now kv tableId current.deleteFileId)

/-- The versionstamped value: the begin order if it is this commit's, else the partial order if it is. -/
def stampedDeleteFile (order : CatalogOrderId) (row : DeleteFileRow) : DeleteFileRow :=
  if row.validity.beginOrder = autoOrder then row.withBeginOrder order
  else { row with maxPartialOrder := row.maxPartialOrder.map (resolveOrder order) }

/-- A replacement begins where the replaced file began and ends its partial range at the timeline order. -/
def inheritingDeleteFile (inherited : Option CatalogOrderId) (timelineOrder : CatalogOrderId) (row : DeleteFileRow) :
    DeleteFileRow :=
  match inherited with
  | none => row
  | some beginOrder =>
    { row.withBeginOrder beginOrder with maxPartialOrder := row.maxPartialOrder.or (some timelineOrder) }

def stageDeleteFileWithoutWatermark (seen : CatalogKv) (now : Int) (order : CatalogOrderId)
    (staging : DeleteFileStaging) (dataFile : DataFileRow) (row : DeleteFileRow) (timelineOrder : CatalogOrderId) :
    CatalogResult DeleteFileStaging := do
  let (inherited, kv) ← stageCloseCurrentDeleteFile seen now order staging dataFile.tableId row
  let row := inheritingDeleteFile inherited timelineOrder row
  if row.validity.beginOrder = autoOrder ∧ row.maxPartialOrder = some autoOrder then
    .error (.invalidMutation "delete file begin and max partial orders cannot both reference the current commit")
  else
    let stamped := stampedDeleteFile order row
    let kv := { kv with
      currentDeleteFile := kv.currentDeleteFile.insert row.dataFileId stamped
      deleteFile := kv.deleteFile.insert row.deleteFileId stamped
      deleteFileTimeline := kv.deleteFileTimeline.insert
        ⟨row.dataFileId, resolveOrder order timelineOrder, row.deleteFileId⟩ row
      tableDeleteFileChange := kv.tableDeleteFileChange.insert ⟨dataFile.tableId, order, row.deleteFileId⟩ ()
      orderDeleteFileChange := kv.orderDeleteFileChange.insert ⟨order, dataFile.tableId, row.deleteFileId⟩ () }
    return {
      kv
      unreadable := if stamped = row then staging.unreadable else row.dataFileId :: staging.unreadable }

def stageExpiredDeleteFile (seen : CatalogKv) (order : CatalogOrderId) (kv : CatalogKv) (tableId : TableId)
    (row : DeleteFileRow) : CatalogKv :=
  putClosedDeleteFile seen order { kv with currentDeleteFile := kv.currentDeleteFile.erase row.dataFileId } tableId row

/-! ## Inline file deletions -/

/-- New deletions begin at the commit, in their key only. -/
def stageInlineFileDeletion (order : CatalogOrderId) (kv : CatalogKv) (row : InlineFileDeletionRow) : CatalogKv :=
  { kv with
    inlineFileDeletion := kv.inlineFileDeletion.insert ⟨row.tableId, row.dataFileId, order, row.rowId⟩
      { row with validity := ⟨autoOrder, none⟩ } }

def stageFileDeletionEnd (order : CatalogOrderId) (kv : CatalogKv) (row : InlineFileDeletionRow) : CatalogKv :=
  { kv with
    inlineFileDeletion := kv.inlineFileDeletion.insert (inlineFileDeletionKey row) (row.withEndOrder (some order)) }

end DucklakeCatalog.Fdb
