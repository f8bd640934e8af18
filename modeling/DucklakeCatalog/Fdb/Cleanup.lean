import DucklakeCatalog.Fdb.InlineCommits
import DucklakeCatalog.Inline.PayloadCleanup

/-! The cleanup of the FoundationDB backend. It lists what is old and removes
one object after the other, each in a transaction of its own. -/
namespace DucklakeCatalog.Fdb

open KeyedStore

/-! ## What one transaction clears -/

/-- The partition values and statistics of the file are read before the transaction. -/
def removeDataFileMetadata (seen kv : CatalogKv) (row : DataFileRow) : CatalogKv :=
  let partitionRows := seen.filePartitionValue.scan fun key => key.dataFileId = row.dataFileId
  let statsRows := seen.fileColumnStats.scan fun key => key.dataFileId = row.dataFileId
  { kv with
    dataFile := kv.dataFile.erase row.dataFileId
    dataFileBegin := kv.dataFileBegin.erase ⟨row.tableId, row.validity.beginOrder, row.dataFileId⟩
    dataFileEnd := row.validity.endOrder.elim kv.dataFileEnd fun endOrder =>
      kv.dataFileEnd.erase ⟨row.tableId, endOrder, row.dataFileId⟩
    currentDataFile := kv.currentDataFile.erase ⟨row.tableId, row.dataFileId⟩
    filePartitionValue := (partitionRows.map Prod.fst).foldl OrderedMap.erase kv.filePartitionValue
    partitionValueLookup := (partitionRows.map fun entry =>
      (⟨entry.2.tableId, entry.2.partitionKeyIndex, entry.2.partitionValue, entry.2.dataFileId⟩ :
        PartitionValueLookupKey)).foldl OrderedMap.erase kv.partitionValueLookup
    fileColumnStats := (statsRows.map Prod.fst).foldl OrderedMap.erase kv.fileColumnStats
    fileColumnStatsLookup := (statsRows.map fun entry =>
      (⟨entry.2.tableId, entry.2.columnId, entry.2.dataFileId⟩ : FileColumnStatsLookupKey)).foldl
        OrderedMap.erase kv.fileColumnStatsLookup }

def clearScheduledDataFileCleanup (kv : CatalogKv) (dataFileId : DataFileId) : CatalogKv :=
  { kv with scheduledDataFileCleanup := kv.scheduledDataFileCleanup.erase dataFileId }

/-- The entries of the two change indexes stay. -/
def removeDeleteFileMetadata (kv : CatalogKv) (row : DeleteFileCleanupRow) : CatalogKv :=
  let deleteFile := row.deleteFile
  { kv with
    deleteFile := kv.deleteFile.erase deleteFile.deleteFileId
    deleteFileTimeline := kv.deleteFileTimeline.erase
      ⟨deleteFile.dataFileId, deleteFile.validity.beginOrder, deleteFile.deleteFileId⟩
    deleteFileEnd := deleteFile.validity.endOrder.elim kv.deleteFileEnd fun endOrder =>
      kv.deleteFileEnd.erase ⟨row.tableId, endOrder, deleteFile.deleteFileId⟩ }

def clearScheduledDeleteFileCleanup (kv : CatalogKv) (deleteFileId : DeleteFileId) : CatalogKv :=
  { kv with scheduledDeleteFileCleanup := kv.scheduledDeleteFileCleanup.erase deleteFileId }

/-- Nothing is removed when the chunks are not those that were listed. -/
def removeInlinePayloadIfUnchanged (seen kv : CatalogKv) (row : InlineTableCleanupRow) : Option CatalogKv :=
  let chunks := seen.inlineTable.scan row.id.names
  if chunks.length ≠ row.chunkCount ∨ ∃ chunk ∈ chunks, kv.inlineTable.get? chunk.1 ≠ some chunk.2 then none
  else
    -- The end marker to clear is named by the end order stored in the last chunk.
    let endOrder := chunks.getLast?.bind fun chunk => (decodeInlineTableItem chunk).validity.endOrder
    some { kv with
      inlineTable := (chunks.map Prod.fst).foldl OrderedMap.erase kv.inlineTable
      inlineTableEnd := endOrder.elim kv.inlineTableEnd fun order =>
        kv.inlineTableEnd.erase ⟨row.id.tableId, order, row.id.schemaId, row.id.beginOrder⟩ }

/-- Watermarks that reach no stored payload. -/
def emptyInlineFlushWatermarks (kv : CatalogKv) : List InlineFlushWatermarkKey :=
  (kv.inlineFlushWatermark.entries.map Prod.fst).filter fun key => watermarkCovered kv key = []

/-- A transaction of the cleanup, with what it has read before. -/
inductive CleanupTransaction where
  | dataFile (seen : CatalogKv) (row : DataFileRow)
  | dataFileSchedule (dataFileId : DataFileId)
  | deleteFile (row : DeleteFileCleanupRow)
  | deleteFileSchedule (deleteFileId : DeleteFileId)
  | inlinePayload (seen : CatalogKv) (row : InlineTableCleanupRow)
  | flushWatermarks (keys : List InlineFlushWatermarkKey)

def CleanupTransaction.clear (kv : CatalogKv) : CleanupTransaction → Option CatalogKv
  | .dataFile seen row => some (removeDataFileMetadata seen kv row)
  | .dataFileSchedule dataFileId => some (clearScheduledDataFileCleanup kv dataFileId)
  | .deleteFile row => some (removeDeleteFileMetadata kv row)
  | .deleteFileSchedule deleteFileId => some (clearScheduledDeleteFileCleanup kv deleteFileId)
  | .inlinePayload seen row => removeInlinePayloadIfUnchanged seen kv row
  | .flushWatermarks keys =>
    some { kv with inlineFlushWatermark := keys.foldl OrderedMap.erase kv.inlineFlushWatermark }

/-- The store after the transaction has committed. -/
def CleanupTransaction.transact (store : FdbStore) (transaction : CleanupTransaction) : Option FdbStore :=
  (transaction.clear store.kv).map fun kv => FdbStore.commitAt { store with kv } store.commitOrder

/-! ## The calls -/

/-- What a call has removed so far and the store it has come to. -/
structure Removed (Row : Type) where
  rows : List Row := []
  store : FdbStore

def Removed.commit (removed : Removed Row) (transaction : CleanupTransaction) : Removed Row :=
  { removed with store := (transaction.transact removed.store).getD removed.store }

/-- The schedule of the file is looked up before its metadata goes. -/
def removeOldDataFile (snapshots : List SnapshotRow) (removed : Removed DataFileRow) (row : DataFileRow) :
    Removed DataFileRow :=
  let isScheduled := (removed.store.kv.scheduledDataFileCleanup.get? row.dataFileId).isSome
  let isUnreachable := rowIsUnreachable row snapshots
  let cleared := if isUnreachable then removed.commit (.dataFile removed.store.kv row) else removed
  let cleared := if isScheduled then cleared.commit (.dataFileSchedule row.dataFileId) else cleared
  if isUnreachable || isScheduled then { cleared with rows := cleared.rows ++ [row] } else cleared

def removeOldDataFilesChecked (store : FdbStore) (dataFileIds : List DataFileId) :
    CatalogResult (Removed DataFileRow) := do
  let snapshots ← listSnapshots store.kv
  let listed ← listOldDataFilesForCleanup store.kv
  return (listed.filter fun row => row.dataFileId ∈ dataFileIds).foldl (removeOldDataFile snapshots) { store }

/-- Whether the file may go is decided again, after what the call has removed already. -/
def removeOldDeleteFile (snapshots : List SnapshotRow) (removed : Removed DeleteFileCleanupRow)
    (row : DeleteFileCleanupRow) : Removed DeleteFileCleanupRow :=
  if !deleteFileCleanupIsAllowed removed.store.kv row.deleteFile snapshots then removed
  else
    let cleared := removed.commit (.deleteFile row)
    let isScheduled := (cleared.store.kv.scheduledDeleteFileCleanup.get? row.deleteFile.deleteFileId).isSome
    let cleared := if isScheduled then cleared.commit (.deleteFileSchedule row.deleteFile.deleteFileId) else cleared
    { cleared with rows := cleared.rows ++ [row] }

def removeOldDeleteFilesChecked (store : FdbStore) (deleteFileIds : List DeleteFileId) :
    CatalogResult (Removed DeleteFileCleanupRow) := do
  let snapshots ← listSnapshots store.kv
  let listed ← listOldDeleteFilesForCleanup store.kv
  return (listed.filter fun row => row.deleteFile.deleteFileId ∈ deleteFileIds).foldl
    (removeOldDeleteFile snapshots) { store }

def removeOldInlinePayload (removed : Removed InlineTableCleanupRow) (row : InlineTableCleanupRow) :
    Removed InlineTableCleanupRow :=
  match (CleanupTransaction.inlinePayload removed.store.kv row).transact removed.store with
  | none => removed
  | some store => { rows := removed.rows ++ [row], store }

/-- No transaction is opened when every watermark still reaches a payload. -/
def removeEmptyInlineFlushWatermarks (removed : Removed InlineTableCleanupRow) : Removed InlineTableCleanupRow :=
  let empty := emptyInlineFlushWatermarks removed.store.kv
  if empty = [] then removed else removed.commit (.flushWatermarks empty)

def removeOldInlineTablePayloadsChecked (store : FdbStore) (inlineIds : List InlineTableCleanupId) :
    CatalogResult (Removed InlineTableCleanupRow) := do
  let listed ← listOldInlineTablePayloadsForCleanup store.kv
  return removeEmptyInlineFlushWatermarks
    ((listed.filter fun row => row.id ∈ inlineIds).foldl removeOldInlinePayload { store })

end DucklakeCatalog.Fdb
