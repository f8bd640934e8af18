import DucklakeCatalog.KeyedStore.Batch
import DucklakeCatalog.Kv.Keys
import Mathlib.Order.Basic

namespace DucklakeCatalog

open KeyedStore

/-- The key space of one catalog, one ordered map for each key constructor. -/
structure CatalogKv where
  snapshot : OrderedMap CatalogOrderId SnapshotRow := .empty
  snapshotTimestamp : OrderedMap SnapshotTimestampKey SnapshotRow := .empty
  latestSnapshotRow : OrderedMap Unit SnapshotRow := .empty
  rawSnapshotRow : OrderedMap RawSnapshotSequence SnapshotRow := .empty
  snapshotOperation : OrderedMap SnapshotOperationKey Unit := .empty
  dataFile : OrderedMap DataFileId DataFileRow := .empty
  currentDataFile : OrderedMap TableFileKey DataFileRow := .empty
  dataFileBegin : OrderedMap TableOrderKey DataFileRow := .empty
  dataFileEnd : OrderedMap TableOrderKey DataFileId := .empty
  tableDataFileChange : OrderedMap TableDataFileChangeKey Unit := .empty
  snapshotDataFileChange : OrderedMap SnapshotDataFileChangeKey Unit := .empty
  deleteFile : OrderedMap DeleteFileId DeleteFileRow := .empty
  currentDeleteFile : OrderedMap DataFileId DeleteFileRow := .empty
  deleteFileTimeline : OrderedMap DeleteFileTimelineKey DeleteFileRow := .empty
  deleteFileEnd : OrderedMap TableOrderKey DeleteFileId := .empty
  tableDeleteFileChange : OrderedMap TableOrderKey Unit := .empty
  orderDeleteFileChange : OrderedMap OrderTableKey Unit := .empty
  filePartitionValue : OrderedMap FilePartitionValueKey FilePartitionValueRow := .empty
  partitionValueLookup : OrderedMap PartitionValueLookupKey (FilePartitionValueRow × DataFileRow) := .empty
  fileColumnStats : OrderedMap FileColumnStatsKey FileColumnStatsRow := .empty
  fileColumnStatsLookup : OrderedMap FileColumnStatsLookupKey FileColumnStatsRow := .empty
  tableFileStatsVersion : OrderedMap TableId CatalogOrderId := .empty
  catalogFileStatsVersion : OrderedMap Unit CatalogOrderId := .empty
  inlineFileDeletion : OrderedMap InlineFileDeletionKey InlineFileDeletionRow := .empty
  inlineTable : OrderedMap InlineTableChunkKey InlineTableChunkRow := .empty
  inlineFlushWatermark : OrderedMap InlineFlushWatermarkKey Unit := .empty
  inlineTableEnd : OrderedMap InlineTableEndKey Unit := .empty
  tableInlineRowChange : OrderedMap TableInlineRowChangeKey Unit := .empty
  schemaKindInlineRowChange : OrderedMap SchemaKindInlineRowChangeKey Unit := .empty
  inlineTableChange : OrderedMap InlineTableChangeKey Unit := .empty
  scheduledDataFileCleanup : OrderedMap DataFileId (ScheduledDataFileCleanupKind × Int) := .empty
  scheduledDeleteFileCleanup : OrderedMap DeleteFileId (TableId × Int) := .empty
  conflictWatermarksInitialized : OrderedMap Unit Unit := .empty
  conflictMaxCatalogId : OrderedMap Unit Nat := .empty
  conflictMaxFileId : OrderedMap Unit Nat := .empty
  tableNextRowId : OrderedMap TableId Nat := .empty
  tableObject : OrderedMap TableObjectKey TableRow := .empty
  tableVisibility : OrderedMap TableVisibilityKey TableRow := .empty
  currentTableRow : OrderedMap TableId TableRow := .empty
  nextOrder : Nat := 0

/-- Mutations collected for one commit. -/
structure KvBatch where
  snapshot : Staged CatalogOrderId SnapshotRow := {}
  snapshotTimestamp : Staged SnapshotTimestampKey SnapshotRow := {}
  latestSnapshotRow : Staged Unit SnapshotRow := {}
  rawSnapshotRow : Staged RawSnapshotSequence SnapshotRow := {}
  snapshotOperation : Staged SnapshotOperationKey Unit := {}
  dataFile : Staged DataFileId DataFileRow := {}
  currentDataFile : Staged TableFileKey DataFileRow := {}
  dataFileBegin : Staged TableOrderKey DataFileRow := {}
  dataFileEnd : Staged TableOrderKey DataFileId := {}
  tableDataFileChange : Staged TableDataFileChangeKey Unit := {}
  snapshotDataFileChange : Staged SnapshotDataFileChangeKey Unit := {}
  deleteFile : Staged DeleteFileId DeleteFileRow := {}
  currentDeleteFile : Staged DataFileId DeleteFileRow := {}
  deleteFileTimeline : Staged DeleteFileTimelineKey DeleteFileRow := {}
  deleteFileEnd : Staged TableOrderKey DeleteFileId := {}
  tableDeleteFileChange : Staged TableOrderKey Unit := {}
  orderDeleteFileChange : Staged OrderTableKey Unit := {}
  filePartitionValue : Staged FilePartitionValueKey FilePartitionValueRow := {}
  partitionValueLookup : Staged PartitionValueLookupKey (FilePartitionValueRow × DataFileRow) := {}
  fileColumnStats : Staged FileColumnStatsKey FileColumnStatsRow := {}
  fileColumnStatsLookup : Staged FileColumnStatsLookupKey FileColumnStatsRow := {}
  tableFileStatsVersion : Staged TableId CatalogOrderId := {}
  catalogFileStatsVersion : Staged Unit CatalogOrderId := {}
  inlineFileDeletion : Staged InlineFileDeletionKey InlineFileDeletionRow := {}
  inlineTable : Staged InlineTableChunkKey InlineTableChunkRow := {}
  inlineFlushWatermark : Staged InlineFlushWatermarkKey Unit := {}
  inlineTableEnd : Staged InlineTableEndKey Unit := {}
  tableInlineRowChange : Staged TableInlineRowChangeKey Unit := {}
  schemaKindInlineRowChange : Staged SchemaKindInlineRowChangeKey Unit := {}
  inlineTableChange : Staged InlineTableChangeKey Unit := {}
  scheduledDataFileCleanup : Staged DataFileId (ScheduledDataFileCleanupKind × Int) := {}
  scheduledDeleteFileCleanup : Staged DeleteFileId (TableId × Int) := {}
  conflictWatermarksInitialized : Staged Unit Unit := {}
  conflictMaxCatalogId : Staged Unit Nat := {}
  conflictMaxFileId : Staged Unit Nat := {}
  tableNextRowId : Staged TableId Nat := {}
  tableObject : Staged TableObjectKey TableRow := {}
  tableVisibility : Staged TableVisibilityKey TableRow := {}
  currentTableRow : Staged TableId TableRow := {}

namespace CatalogKv

def commit (kv : CatalogKv) (batch : KvBatch) : CatalogKv where
  snapshot := kv.snapshot.commit batch.snapshot
  snapshotTimestamp := kv.snapshotTimestamp.commit batch.snapshotTimestamp
  latestSnapshotRow := kv.latestSnapshotRow.commit batch.latestSnapshotRow
  rawSnapshotRow := kv.rawSnapshotRow.commit batch.rawSnapshotRow
  snapshotOperation := kv.snapshotOperation.commit batch.snapshotOperation
  dataFile := kv.dataFile.commit batch.dataFile
  currentDataFile := kv.currentDataFile.commit batch.currentDataFile
  dataFileBegin := kv.dataFileBegin.commit batch.dataFileBegin
  dataFileEnd := kv.dataFileEnd.commit batch.dataFileEnd
  tableDataFileChange := kv.tableDataFileChange.commit batch.tableDataFileChange
  snapshotDataFileChange := kv.snapshotDataFileChange.commit batch.snapshotDataFileChange
  deleteFile := kv.deleteFile.commit batch.deleteFile
  currentDeleteFile := kv.currentDeleteFile.commit batch.currentDeleteFile
  deleteFileTimeline := kv.deleteFileTimeline.commit batch.deleteFileTimeline
  deleteFileEnd := kv.deleteFileEnd.commit batch.deleteFileEnd
  tableDeleteFileChange := kv.tableDeleteFileChange.commit batch.tableDeleteFileChange
  orderDeleteFileChange := kv.orderDeleteFileChange.commit batch.orderDeleteFileChange
  filePartitionValue := kv.filePartitionValue.commit batch.filePartitionValue
  partitionValueLookup := kv.partitionValueLookup.commit batch.partitionValueLookup
  fileColumnStats := kv.fileColumnStats.commit batch.fileColumnStats
  fileColumnStatsLookup := kv.fileColumnStatsLookup.commit batch.fileColumnStatsLookup
  tableFileStatsVersion := kv.tableFileStatsVersion.commit batch.tableFileStatsVersion
  catalogFileStatsVersion := kv.catalogFileStatsVersion.commit batch.catalogFileStatsVersion
  inlineFileDeletion := kv.inlineFileDeletion.commit batch.inlineFileDeletion
  inlineTable := kv.inlineTable.commit batch.inlineTable
  inlineFlushWatermark := kv.inlineFlushWatermark.commit batch.inlineFlushWatermark
  inlineTableEnd := kv.inlineTableEnd.commit batch.inlineTableEnd
  tableInlineRowChange := kv.tableInlineRowChange.commit batch.tableInlineRowChange
  schemaKindInlineRowChange := kv.schemaKindInlineRowChange.commit batch.schemaKindInlineRowChange
  inlineTableChange := kv.inlineTableChange.commit batch.inlineTableChange
  scheduledDataFileCleanup := kv.scheduledDataFileCleanup.commit batch.scheduledDataFileCleanup
  scheduledDeleteFileCleanup := kv.scheduledDeleteFileCleanup.commit batch.scheduledDeleteFileCleanup
  conflictWatermarksInitialized := kv.conflictWatermarksInitialized.commit batch.conflictWatermarksInitialized
  conflictMaxCatalogId := kv.conflictMaxCatalogId.commit batch.conflictMaxCatalogId
  conflictMaxFileId := kv.conflictMaxFileId.commit batch.conflictMaxFileId
  tableNextRowId := kv.tableNextRowId.commit batch.tableNextRowId
  tableObject := kv.tableObject.commit batch.tableObject
  tableVisibility := kv.tableVisibility.commit batch.tableVisibility
  currentTableRow := kv.currentTableRow.commit batch.currentTableRow
  nextOrder := kv.nextOrder

/-- The order of the next commit; it is used up even when that commit fails. -/
def generatedOrderId (kv : CatalogKv) : CatalogOrderId := kv.nextOrder + 1

def withGeneratedOrder (kv : CatalogKv) : CatalogKv :=
  { kv with nextOrder := kv.nextOrder + 1 }

@[simp] theorem withGeneratedOrder_nextOrder (kv : CatalogKv) :
    kv.withGeneratedOrder.nextOrder = kv.nextOrder + 1 := rfl

@[simp] theorem commit_nextOrder (kv : CatalogKv) (batch : KvBatch) :
    (kv.commit batch).nextOrder = kv.nextOrder := rfl

theorem commit_empty (kv : CatalogKv) : kv.commit {} = kv := rfl

end CatalogKv

end DucklakeCatalog
