import DucklakeCatalog.ByteCodec.PrefixRange
import DucklakeCatalog.Wire.SchemaVersionHistory

/-! The keys of the catalog that need no versionstamp, the prefixes that listings scan, and
the bounds of the scans of indexes that are kept in the order of commits. -/
namespace DucklakeCatalog.Wire

open ByteCodec

/-! ## Inline rows -/

def inlineLiveRowKey (catalog tableId schemaId rowId : UInt64) : Bytes :=
  familyPrefix catalog .inlineLiveRow ++ u64Bytes tableId ++ [sep] ++ u64Bytes schemaId ++ [sep] ++ u64Bytes rowId

def inlineCurrentRowPrefix (catalog tableId schemaId : UInt64) : Bytes :=
  familyPrefix catalog .inlineCurrentRow ++ u64Bytes tableId ++ [sep] ++ u64Bytes schemaId ++ [sep]

def inlineCurrentRowKey (catalog tableId schemaId rowId : UInt64) : Bytes :=
  inlineCurrentRowPrefix catalog tableId schemaId ++ u64Bytes rowId

def inlineTableEndKey (catalog tableId : UInt64) (endOrder : CatalogOrderId) (schemaId : UInt64)
    (beginOrder : CatalogOrderId) : Bytes :=
  familyPrefix catalog .endOrder ++ u64Bytes tableId ++ [sep] ++ endOrder.asBytes ++ [sep] ++ [asciiByte 'i'] ++
    [sep] ++ u64Bytes schemaId ++ [sep] ++ beginOrder.asBytes

/-! ## Counters and versions -/

def inlineNextRowIdKey (catalog tableId schemaId : UInt64) : Bytes :=
  familyPrefix catalog .metadataVersion ++ utf8 "inline-next-row-id/" ++ u64Bytes tableId ++ [sep] ++
    u64Bytes schemaId

def tableNextRowIdKey (catalog tableId : UInt64) : Bytes :=
  familyPrefix catalog .metadataVersion ++ utf8 "table-next-row-id/" ++ u64Bytes tableId

def tableFileStatsVersionKey (catalog tableId : UInt64) : Bytes :=
  familyPrefix catalog .metadataVersion ++ utf8 "table-file-stats/" ++ u64Bytes tableId

def catalogFileStatsVersionKey (catalog : UInt64) : Bytes :=
  familyPrefix catalog .metadataVersion ++ utf8 "catalog-file-stats"

def conflictWatermarksInitializedKey (catalog : UInt64) : Bytes :=
  familyPrefix catalog .metadataVersion ++ utf8 "conflict-watermarks-initialized"

def conflictMaxCatalogIdKey (catalog : UInt64) : Bytes :=
  familyPrefix catalog .metadataVersion ++ utf8 "conflict-max-catalog-id"

def conflictMaxFileIdKey (catalog : UInt64) : Bytes :=
  familyPrefix catalog .metadataVersion ++ utf8 "conflict-max-file-id"

def latestSnapshotRowKey (catalog : UInt64) : Bytes :=
  familyPrefix catalog .metadataVersion ++ utf8 "latest-snapshot-row"

def rawSnapshotRowKey (catalog rawSequence : UInt64) : Bytes :=
  familyPrefix catalog .metadataVersion ++ utf8 "raw-snapshot-row/" ++ u64Bytes rawSequence

/-! ## Files -/

def dataFileKey (catalog dataFileId : UInt64) : Bytes := familyPrefix catalog .dataFile ++ u64Bytes dataFileId

def currentDataFilePrefix (catalog tableId : UInt64) : Bytes :=
  familyPrefix catalog .currentDataFile ++ u64Bytes tableId ++ [sep]

def currentDataFileKey (catalog tableId dataFileId : UInt64) : Bytes :=
  currentDataFilePrefix catalog tableId ++ u64Bytes dataFileId

def dataFileBeginScanEnd (catalog tableId : UInt64) (snapshotOrder : CatalogOrderId) : Bytes :=
  dataFileBeginPrefix catalog tableId ++ snapshotOrder.asBytes ++ [0xff]

def deleteFileKey (catalog deleteFileId : UInt64) : Bytes := familyPrefix catalog .deleteFile ++ u64Bytes deleteFileId

def currentDeleteFileKey (catalog dataFileId : UInt64) : Bytes :=
  familyPrefix catalog .currentDeleteFile ++ u64Bytes dataFileId

def deleteFileTimelineScanEnd (catalog dataFileId : UInt64) (snapshotOrder : CatalogOrderId) : Bytes :=
  deleteFileTimelinePrefix catalog dataFileId ++ snapshotOrder.asBytes ++ [0xff]

/-- Here the prefix ends with the id; the separator belongs to the key. -/
def fileColumnStatsDataFilePrefix (catalog dataFileId : UInt64) : Bytes :=
  familyPrefix catalog .fileColumnStats ++ u64Bytes dataFileId

def fileColumnStatsKey (catalog dataFileId columnId : UInt64) : Bytes :=
  fileColumnStatsDataFilePrefix catalog dataFileId ++ [sep] ++ u64Bytes columnId

def fileColumnStatsLookupPrefix (catalog tableId columnId : UInt64) : Bytes :=
  familyPrefix catalog .fileColumnStatsLookup ++ u64Bytes tableId ++ [sep] ++ u64Bytes columnId ++ [sep]

def fileColumnStatsLookupKey (catalog tableId columnId dataFileId : UInt64) : Bytes :=
  fileColumnStatsLookupPrefix catalog tableId columnId ++ u64Bytes dataFileId

def filePartitionValuePrefix (catalog dataFileId : UInt64) : Bytes :=
  familyPrefix catalog .filePartitionValue ++ u64Bytes dataFileId ++ [sep]

def filePartitionValueKey (catalog dataFileId : UInt64) (partitionKeyIndex : UInt32) : Bytes :=
  filePartitionValuePrefix catalog dataFileId ++ u32Bytes partitionKeyIndex

def partitionValueLookupPrefix (catalog tableId : UInt64) (partitionKeyIndex : UInt32) (partitionValue : String) :
    Bytes :=
  familyPrefix catalog .partitionValueLookup ++ u64Bytes tableId ++ [sep] ++ u32Bytes partitionKeyIndex ++ [sep] ++
    encodeString partitionValue ++ [sep]

def partitionValueLookupKey (catalog tableId : UInt64) (partitionKeyIndex : UInt32) (partitionValue : String)
    (dataFileId : UInt64) : Bytes :=
  partitionValueLookupPrefix catalog tableId partitionKeyIndex partitionValue ++ u64Bytes dataFileId

def scheduledCleanupPrefix (catalog : UInt64) (kind : Char) : Bytes :=
  familyPrefix catalog .scheduledCleanup ++ [asciiByte kind, sep]

def scheduledCleanupKey (catalog : UInt64) (kind : Char) (id : UInt64) : Bytes :=
  scheduledCleanupPrefix catalog kind ++ u64Bytes id

def scheduledDataFileCleanupPrefix (catalog : UInt64) : Bytes := scheduledCleanupPrefix catalog 'd'

def scheduledDataFileCleanupKey (catalog dataFileId : UInt64) : Bytes := scheduledCleanupKey catalog 'd' dataFileId

def scheduledDeleteFileCleanupPrefix (catalog : UInt64) : Bytes := scheduledCleanupPrefix catalog 'x'

def scheduledDeleteFileCleanupKey (catalog deleteFileId : UInt64) : Bytes :=
  scheduledCleanupKey catalog 'x' deleteFileId

/-! ## Objects and fences -/

def conflictFenceKey (catalog : UInt64) (scope : Bytes) : Bytes := familyPrefix catalog .conflictFence ++ scope

/-- All objects of one kind. -/
def objectScanPrefix (kind : Char) (catalog : UInt64) : Bytes := familyPrefix catalog .object ++ [asciiByte kind, sep]

def tableObjectScanPrefix (catalog : UInt64) : Bytes := objectScanPrefix 't' catalog

def schemaObjectScanPrefix (catalog : UInt64) : Bytes := objectScanPrefix 's' catalog

def viewObjectScanPrefix (catalog : UInt64) : Bytes := objectScanPrefix 'v' catalog

def macroObjectScanPrefix (catalog : UInt64) : Bytes := objectScanPrefix 'm' catalog

def currentTableRowPrefix (catalog : UInt64) : Bytes := objectScanPrefix 'T' catalog

def currentTableRowKey (catalog tableId : UInt64) : Bytes := currentTableRowPrefix catalog ++ u64Bytes tableId

def toAsciiLowercase (name : String) : String := name.map Char.toLower

def currentTableNameKey (catalog schemaId : UInt64) (name : String) : Bytes :=
  familyPrefix catalog .object ++ [asciiByte 'n', sep] ++ u64Bytes schemaId ++ [sep] ++ utf8 (toAsciiLowercase name)

def tableVisibilityScanEnd (catalog : UInt64) (snapshotOrder : CatalogOrderId) : Bytes :=
  tableVisibilityPrefix catalog ++ snapshotOrder.asBytes ++ [0xff]

def snapshotPrefix (catalog : UInt64) : Bytes := familyPrefix catalog .snapshot

def snapshotTimestampPrefix (catalog : UInt64) : Bytes := familyPrefix catalog .snapshotByTimestamp

/-! ## Windows of the change indexes -/

def tableDataFileChangeScanStart (catalog tableId : UInt64) (startOrder : CatalogOrderId) : Bytes :=
  tableDataFileChangePrefix catalog tableId ++ startOrder.asBytes

def tableDataFileChangeScanEnd (catalog tableId : UInt64) (endOrder : CatalogOrderId) : Bytes :=
  tableDataFileChangePrefix catalog tableId ++ endOrder.asBytes ++ [0xff]

def tableDeleteFileChangeScanStart (catalog tableId : UInt64) (startOrder : CatalogOrderId) : Bytes :=
  tableDeleteFileChangePrefix catalog tableId ++ startOrder.asBytes

def tableDeleteFileChangeScanEnd (catalog tableId : UInt64) (endOrder : CatalogOrderId) : Bytes :=
  tableDeleteFileChangePrefix catalog tableId ++ endOrder.asBytes ++ [0xff]

def orderDeleteFileChangeScanStart (catalog : UInt64) (startOrder : CatalogOrderId) : Bytes :=
  orderDeleteFileChangePrefix catalog ++ startOrder.asBytes

def orderDeleteFileChangeScanEnd (catalog : UInt64) (endOrder : CatalogOrderId) : Bytes :=
  orderDeleteFileChangePrefix catalog ++ endOrder.asBytes ++ [0xff]

def tableInlineRowChangeScanStart (catalog tableId : UInt64) (startOrder : CatalogOrderId) : Bytes :=
  tableInlineRowChangePrefix catalog tableId ++ startOrder.asBytes

def tableInlineRowChangeScanEnd (catalog tableId : UInt64) (endOrder : CatalogOrderId) : Bytes :=
  tableInlineRowChangePrefix catalog tableId ++ endOrder.asBytes ++ [0xff]

def tableSchemaKindInlineRowChangeScanStart (catalog tableId schemaId : UInt64) (kind : InlineRowChangeKind)
    (startOrder : CatalogOrderId) : Bytes :=
  tableSchemaKindInlineRowChangePrefix catalog tableId schemaId kind ++ startOrder.asBytes

def tableSchemaKindInlineRowChangeScanEnd (catalog tableId schemaId : UInt64) (kind : InlineRowChangeKind)
    (endOrder : CatalogOrderId) : Bytes :=
  tableSchemaKindInlineRowChangePrefix catalog tableId schemaId kind ++ endOrder.asBytes ++ [0xff]

/-! ## The constructors together -/

/-- A key of the catalog by the constructor that builds it, and its fields. -/
inductive LogicalKey
  | snapshot (order : CatalogOrderId)
  | snapshotTimestamp (createdAtMicros : Int64) (order : CatalogOrderId)
  | snapshotDataFileChange (tableId : UInt64) (order : CatalogOrderId) (kind : DataFileChangeKind) (dataFileId : UInt64)
  | tableDataFileChange (tableId : UInt64) (order : CatalogOrderId) (kind : DataFileChangeKind) (dataFileId : UInt64)
  | tableObject (tableId : UInt64) (order : CatalogOrderId)
  | schemaObject (schemaId : UInt64) (order : CatalogOrderId)
  | viewObject (viewId : UInt64) (order : CatalogOrderId)
  | macroObject (macroId : UInt64) (order : CatalogOrderId)
  | currentTableRow (tableId : UInt64)
  | currentTableName (schemaId : UInt64) (name : String)
  | tableVisibility (beginOrder : CatalogOrderId) (tableId : UInt64)
  | dataFile (dataFileId : UInt64)
  | currentDataFile (tableId dataFileId : UInt64)
  | dataFileBegin (tableId : UInt64) (beginOrder : CatalogOrderId) (dataFileId : UInt64)
  | dataFileEnd (tableId : UInt64) (endOrder : CatalogOrderId) (dataFileId : UInt64)
  | deleteFileEnd (tableId : UInt64) (endOrder : CatalogOrderId) (deleteFileId : UInt64)
  | inlineTableEnd (tableId : UInt64) (endOrder : CatalogOrderId) (schemaId : UInt64) (beginOrder : CatalogOrderId)
  | inlineFlushWatermark (tableId : UInt64) (endOrder : CatalogOrderId) (schemaId : UInt64)
      (maxBeginOrder : CatalogOrderId)
  | deleteFile (deleteFileId : UInt64)
  | currentDeleteFile (dataFileId : UInt64)
  | deleteFileTimeline (dataFileId : UInt64) (beginOrder : CatalogOrderId) (deleteFileId : UInt64)
  | tableDeleteFileChange (tableId : UInt64) (order : CatalogOrderId) (deleteFileId : UInt64)
  | orderDeleteFileChange (order : CatalogOrderId) (tableId deleteFileId : UInt64)
  | fileColumnStats (dataFileId columnId : UInt64)
  | fileColumnStatsLookup (tableId columnId dataFileId : UInt64)
  | filePartitionValue (dataFileId : UInt64) (partitionKeyIndex : UInt32)
  | partitionValueLookup (tableId : UInt64) (partitionKeyIndex : UInt32) (partitionValue : String) (dataFileId : UInt64)
  | inlineFileDeletion (tableId dataFileId : UInt64) (beginOrder : CatalogOrderId) (rowId : UInt64)
  | tableInlineRowChange (tableId : UInt64) (order : CatalogOrderId) (kind : InlineRowChangeKind)
      (schemaId rowId : UInt64)
  | inlineTableChange (order : CatalogOrderId) (kind : InlineRowChangeKind) (tableId : UInt64)
  | tableSchemaKindInlineRowChange (tableId schemaId : UInt64) (kind : InlineRowChangeKind) (order : CatalogOrderId)
      (rowId : UInt64)
  | inlineLiveRow (tableId schemaId rowId : UInt64)
  | inlineCurrentRow (tableId schemaId rowId : UInt64)
  | inlineNextRowId (tableId schemaId : UInt64)
  | tableNextRowId (tableId : UInt64)
  | tableFileStatsVersion (tableId : UInt64)
  | catalogFileStatsVersion
  | conflictWatermarksInitialized
  | conflictMaxCatalogId
  | conflictMaxFileId
  | currentSchemaVersion
  | schemaVersionHistory (order : CatalogOrderId)
  | schemaVersionBeginSnapshot (schemaVersion : UInt64)
  | catalogSnapshotVersion
  | latestSnapshotRow
  | rawSnapshotRow (rawSequence : UInt64)
  | conflictFence (scope : Bytes)
  | scheduledDataFileCleanup (dataFileId : UInt64)
  | scheduledDeleteFileCleanup (deleteFileId : UInt64)

namespace LogicalKey

def bytes (catalog : UInt64) : LogicalKey → Bytes
  | snapshot order => snapshotKey catalog order
  | snapshotTimestamp createdAtMicros order => snapshotTimestampKey catalog createdAtMicros order
  | snapshotDataFileChange tableId order kind dataFileId =>
    snapshotDataFileChangeKey catalog tableId order kind dataFileId
  | tableDataFileChange tableId order kind dataFileId => tableDataFileChangeKey catalog tableId order kind dataFileId
  | tableObject tableId order => tableObjectKey catalog tableId order
  | schemaObject schemaId order => schemaObjectKey catalog schemaId order
  | viewObject viewId order => viewObjectKey catalog viewId order
  | macroObject macroId order => macroObjectKey catalog macroId order
  | currentTableRow tableId => currentTableRowKey catalog tableId
  | currentTableName schemaId name => currentTableNameKey catalog schemaId name
  | tableVisibility beginOrder tableId => tableVisibilityKey catalog beginOrder tableId
  | dataFile dataFileId => dataFileKey catalog dataFileId
  | currentDataFile tableId dataFileId => currentDataFileKey catalog tableId dataFileId
  | dataFileBegin tableId beginOrder dataFileId => dataFileBeginKey catalog tableId beginOrder dataFileId
  | dataFileEnd tableId endOrder dataFileId => dataFileEndKey catalog tableId endOrder dataFileId
  | deleteFileEnd tableId endOrder deleteFileId => deleteFileEndKey catalog tableId endOrder deleteFileId
  | inlineTableEnd tableId endOrder schemaId beginOrder =>
    inlineTableEndKey catalog tableId endOrder schemaId beginOrder
  | inlineFlushWatermark tableId endOrder schemaId maxBeginOrder =>
    InlineFlushWatermarkKey.encode ⟨tableId, endOrder, schemaId, maxBeginOrder⟩ catalog
  | deleteFile deleteFileId => deleteFileKey catalog deleteFileId
  | currentDeleteFile dataFileId => currentDeleteFileKey catalog dataFileId
  | deleteFileTimeline dataFileId beginOrder deleteFileId =>
    deleteFileTimelineKey catalog dataFileId beginOrder deleteFileId
  | tableDeleteFileChange tableId order deleteFileId => tableDeleteFileChangeKey catalog tableId order deleteFileId
  | orderDeleteFileChange order tableId deleteFileId => orderDeleteFileChangeKey catalog order tableId deleteFileId
  | fileColumnStats dataFileId columnId => fileColumnStatsKey catalog dataFileId columnId
  | fileColumnStatsLookup tableId columnId dataFileId => fileColumnStatsLookupKey catalog tableId columnId dataFileId
  | filePartitionValue dataFileId partitionKeyIndex => filePartitionValueKey catalog dataFileId partitionKeyIndex
  | partitionValueLookup tableId partitionKeyIndex partitionValue dataFileId =>
    partitionValueLookupKey catalog tableId partitionKeyIndex partitionValue dataFileId
  | inlineFileDeletion tableId dataFileId beginOrder rowId =>
    inlineFileDeletionKey catalog tableId dataFileId beginOrder rowId
  | tableInlineRowChange tableId order kind schemaId rowId =>
    tableInlineRowChangeKey catalog tableId order kind schemaId rowId
  | inlineTableChange order kind tableId => inlineTableChangeKey catalog order kind tableId
  | tableSchemaKindInlineRowChange tableId schemaId kind order rowId =>
    tableSchemaKindInlineRowChangeKey catalog tableId schemaId kind order rowId
  | inlineLiveRow tableId schemaId rowId => inlineLiveRowKey catalog tableId schemaId rowId
  | inlineCurrentRow tableId schemaId rowId => inlineCurrentRowKey catalog tableId schemaId rowId
  | inlineNextRowId tableId schemaId => inlineNextRowIdKey catalog tableId schemaId
  | tableNextRowId tableId => tableNextRowIdKey catalog tableId
  | tableFileStatsVersion tableId => tableFileStatsVersionKey catalog tableId
  | catalogFileStatsVersion => catalogFileStatsVersionKey catalog
  | conflictWatermarksInitialized => conflictWatermarksInitializedKey catalog
  | conflictMaxCatalogId => conflictMaxCatalogIdKey catalog
  | conflictMaxFileId => conflictMaxFileIdKey catalog
  | currentSchemaVersion => currentSchemaVersionKey catalog
  | schemaVersionHistory order => schemaVersionHistoryKey catalog order
  | schemaVersionBeginSnapshot schemaVersion => schemaVersionBeginSnapshotKey catalog schemaVersion
  | catalogSnapshotVersion => catalogSnapshotVersionKey catalog
  | latestSnapshotRow => latestSnapshotRowKey catalog
  | rawSnapshotRow rawSequence => rawSnapshotRowKey catalog rawSequence
  | conflictFence scope => conflictFenceKey catalog scope
  | scheduledDataFileCleanup dataFileId => scheduledDataFileCleanupKey catalog dataFileId
  | scheduledDeleteFileCleanup deleteFileId => scheduledDeleteFileCleanupKey catalog deleteFileId

end LogicalKey

/-! ## Listings -/

/-- A prefix that is scanned up to its `prefixEnd`. Snapshots, their timestamps and the changes
by order are listed by their whole family. -/
inductive ListingPrefix
  | catalog
  | family (keyFamily : KeyFamily)
  | currentDataFile (tableId : UInt64)
  | dataFileBegin (tableId : UInt64)
  | deleteFileTimeline (dataFileId : UInt64)
  | fileColumnStatsDataFile (dataFileId : UInt64)
  | fileColumnStatsLookup (tableId columnId : UInt64)
  | filePartitionValue (dataFileId : UInt64)
  | partitionValueLookup (tableId : UInt64) (partitionKeyIndex : UInt32) (partitionValue : String)
  | scheduledDataFileCleanup
  | scheduledDeleteFileCleanup
  | inlineCurrentRow (tableId schemaId : UInt64)
  | inlineFileDeletionTable (tableId : UInt64)
  | inlineFileDeletionFile (tableId dataFileId : UInt64)
  | tableObjectScan
  | tableObject (tableId : UInt64)
  | schemaObjectScan
  | schemaObject (schemaId : UInt64)
  | viewObjectScan
  | viewObject (viewId : UInt64)
  | macroObjectScan
  | macroObject (macroId : UInt64)
  | currentTableRow
  | tableVisibility
  | tableDataFileChange (tableId : UInt64)
  | tableDeleteFileChange (tableId : UInt64)
  | tableInlineRowChange (tableId : UInt64)
  | tableSchemaKindInlineRowChange (tableId schemaId : UInt64) (kind : InlineRowChangeKind)
  | schemaVersionHistory
  deriving DecidableEq

def ListingPrefix.bytes (catalog : UInt64) : ListingPrefix → Bytes
  | .catalog => catalogPrefix catalog
  | .family keyFamily => familyPrefix catalog keyFamily
  | .currentDataFile tableId => currentDataFilePrefix catalog tableId
  | .dataFileBegin tableId => dataFileBeginPrefix catalog tableId
  | .deleteFileTimeline dataFileId => deleteFileTimelinePrefix catalog dataFileId
  | .fileColumnStatsDataFile dataFileId => fileColumnStatsDataFilePrefix catalog dataFileId
  | .fileColumnStatsLookup tableId columnId => fileColumnStatsLookupPrefix catalog tableId columnId
  | .filePartitionValue dataFileId => filePartitionValuePrefix catalog dataFileId
  | .partitionValueLookup tableId partitionKeyIndex partitionValue =>
    partitionValueLookupPrefix catalog tableId partitionKeyIndex partitionValue
  | .scheduledDataFileCleanup => scheduledDataFileCleanupPrefix catalog
  | .scheduledDeleteFileCleanup => scheduledDeleteFileCleanupPrefix catalog
  | .inlineCurrentRow tableId schemaId => inlineCurrentRowPrefix catalog tableId schemaId
  | .inlineFileDeletionTable tableId => inlineFileDeletionTablePrefix catalog tableId
  | .inlineFileDeletionFile tableId dataFileId => inlineFileDeletionFilePrefix catalog tableId dataFileId
  | .tableObjectScan => tableObjectScanPrefix catalog
  | .tableObject tableId => tableObjectPrefix catalog tableId
  | .schemaObjectScan => schemaObjectScanPrefix catalog
  | .schemaObject schemaId => schemaObjectPrefix catalog schemaId
  | .viewObjectScan => viewObjectScanPrefix catalog
  | .viewObject viewId => viewObjectPrefix catalog viewId
  | .macroObjectScan => macroObjectScanPrefix catalog
  | .macroObject macroId => macroObjectPrefix catalog macroId
  | .currentTableRow => currentTableRowPrefix catalog
  | .tableVisibility => tableVisibilityPrefix catalog
  | .tableDataFileChange tableId => tableDataFileChangePrefix catalog tableId
  | .tableDeleteFileChange tableId => tableDeleteFileChangePrefix catalog tableId
  | .tableInlineRowChange tableId => tableInlineRowChangePrefix catalog tableId
  | .tableSchemaKindInlineRowChange tableId schemaId kind =>
    tableSchemaKindInlineRowChangePrefix catalog tableId schemaId kind
  | .schemaVersionHistory => schemaVersionHistoryPrefix catalog

namespace LogicalKey

def family : LogicalKey → KeyFamily
  | snapshot _ => .snapshot
  | snapshotTimestamp _ _ => .snapshotByTimestamp
  | snapshotDataFileChange _ _ _ _ => .snapshotChanges
  | tableDataFileChange _ _ _ _ => .tableChanges
  | tableObject _ _ => .object
  | schemaObject _ _ => .object
  | viewObject _ _ => .object
  | macroObject _ _ => .object
  | currentTableRow _ => .object
  | currentTableName _ _ => .object
  | tableVisibility _ _ => .object
  | dataFile _ => .dataFile
  | currentDataFile _ _ => .currentDataFile
  | dataFileBegin _ _ _ => .dataFileBegin
  | dataFileEnd _ _ _ => .endOrder
  | deleteFileEnd _ _ _ => .endOrder
  | inlineTableEnd _ _ _ _ => .endOrder
  | inlineFlushWatermark _ _ _ _ => .inlineFlushWatermark
  | deleteFile _ => .deleteFile
  | currentDeleteFile _ => .currentDeleteFile
  | deleteFileTimeline _ _ _ => .deleteFileTimeline
  | tableDeleteFileChange _ _ _ => .deleteFileChange
  | orderDeleteFileChange _ _ _ => .deleteFileChangeByOrder
  | fileColumnStats _ _ => .fileColumnStats
  | fileColumnStatsLookup _ _ _ => .fileColumnStatsLookup
  | filePartitionValue _ _ => .filePartitionValue
  | partitionValueLookup _ _ _ _ => .partitionValueLookup
  | inlineFileDeletion _ _ _ _ => .inlineFileDeletion
  | tableInlineRowChange _ _ _ _ _ => .inlineRowChange
  | inlineTableChange _ _ _ => .inlineTableChange
  | tableSchemaKindInlineRowChange _ _ _ _ _ => .inlineRowChangeBySchemaKind
  | inlineLiveRow _ _ _ => .inlineLiveRow
  | inlineCurrentRow _ _ _ => .inlineCurrentRow
  | conflictFence _ => .conflictFence
  | scheduledDataFileCleanup _ => .scheduledCleanup
  | scheduledDeleteFileCleanup _ => .scheduledCleanup
  | _ => .metadataVersion

/-- The listings within its family that a key belongs to. -/
def within : LogicalKey → List ListingPrefix
  | currentDataFile tableId _ => [.currentDataFile tableId]
  | dataFileBegin tableId _ _ => [.dataFileBegin tableId]
  | deleteFileTimeline dataFileId _ _ => [.deleteFileTimeline dataFileId]
  | fileColumnStats dataFileId _ => [.fileColumnStatsDataFile dataFileId]
  | fileColumnStatsLookup tableId columnId _ => [.fileColumnStatsLookup tableId columnId]
  | filePartitionValue dataFileId _ => [.filePartitionValue dataFileId]
  | partitionValueLookup tableId partitionKeyIndex partitionValue _ =>
    [.partitionValueLookup tableId partitionKeyIndex partitionValue]
  | scheduledDataFileCleanup _ => [.scheduledDataFileCleanup]
  | scheduledDeleteFileCleanup _ => [.scheduledDeleteFileCleanup]
  | inlineCurrentRow tableId schemaId _ => [.inlineCurrentRow tableId schemaId]
  | inlineFileDeletion tableId dataFileId _ _ =>
    [.inlineFileDeletionTable tableId, .inlineFileDeletionFile tableId dataFileId]
  | tableObject tableId _ => [.tableObjectScan, .tableObject tableId]
  | schemaObject schemaId _ => [.schemaObjectScan, .schemaObject schemaId]
  | viewObject viewId _ => [.viewObjectScan, .viewObject viewId]
  | macroObject macroId _ => [.macroObjectScan, .macroObject macroId]
  | currentTableRow _ => [.currentTableRow]
  | tableVisibility _ _ => [.tableVisibility]
  | tableDataFileChange tableId _ _ _ => [.tableDataFileChange tableId]
  | tableDeleteFileChange tableId _ _ => [.tableDeleteFileChange tableId]
  | tableInlineRowChange tableId _ _ _ _ => [.tableInlineRowChange tableId]
  | tableSchemaKindInlineRowChange tableId schemaId kind _ _ => [.tableSchemaKindInlineRowChange tableId schemaId kind]
  | schemaVersionHistory _ => [.schemaVersionHistory]
  | _ => []

def listings (key : LogicalKey) : List ListingPrefix := .catalog :: .family key.family :: key.within

end LogicalKey

/-! ## Indexes in the order of commits -/

inductive OrderIndex
  | dataFileBegin (tableId : UInt64)
  | deleteFileTimeline (dataFileId : UInt64)
  | tableVisibility
  | tableDataFileChange (tableId : UInt64)
  | tableDeleteFileChange (tableId : UInt64)
  | orderDeleteFileChange
  | tableInlineRowChange (tableId : UInt64)
  | tableSchemaKindInlineRowChange (tableId schemaId : UInt64) (kind : InlineRowChangeKind)
  | schemaVersionHistory

namespace OrderIndex

def listing : OrderIndex → ListingPrefix
  | dataFileBegin tableId => .dataFileBegin tableId
  | deleteFileTimeline dataFileId => .deleteFileTimeline dataFileId
  | tableVisibility => .tableVisibility
  | tableDataFileChange tableId => .tableDataFileChange tableId
  | tableDeleteFileChange tableId => .tableDeleteFileChange tableId
  | orderDeleteFileChange => .family .deleteFileChangeByOrder
  | tableInlineRowChange tableId => .tableInlineRowChange tableId
  | tableSchemaKindInlineRowChange tableId schemaId kind => .tableSchemaKindInlineRowChange tableId schemaId kind
  | schemaVersionHistory => .schemaVersionHistory

def scanEnd (catalog : UInt64) (order : CatalogOrderId) : OrderIndex → Bytes
  | dataFileBegin tableId => dataFileBeginScanEnd catalog tableId order
  | deleteFileTimeline dataFileId => deleteFileTimelineScanEnd catalog dataFileId order
  | tableVisibility => tableVisibilityScanEnd catalog order
  | tableDataFileChange tableId => tableDataFileChangeScanEnd catalog tableId order
  | tableDeleteFileChange tableId => tableDeleteFileChangeScanEnd catalog tableId order
  | orderDeleteFileChange => orderDeleteFileChangeScanEnd catalog order
  | tableInlineRowChange tableId => tableInlineRowChangeScanEnd catalog tableId order
  | tableSchemaKindInlineRowChange tableId schemaId kind =>
    tableSchemaKindInlineRowChangeScanEnd catalog tableId schemaId kind order
  | schemaVersionHistory => schemaVersionHistoryScanEnd catalog order

/-- Where a scan from an order on begins, in the change indexes. -/
def scanStart (catalog : UInt64) (order : CatalogOrderId) : OrderIndex → Option Bytes
  | tableDataFileChange tableId => some (tableDataFileChangeScanStart catalog tableId order)
  | tableDeleteFileChange tableId => some (tableDeleteFileChangeScanStart catalog tableId order)
  | orderDeleteFileChange => some (orderDeleteFileChangeScanStart catalog order)
  | tableInlineRowChange tableId => some (tableInlineRowChangeScanStart catalog tableId order)
  | tableSchemaKindInlineRowChange tableId schemaId kind =>
    some (tableSchemaKindInlineRowChangeScanStart catalog tableId schemaId kind order)
  | _ => none

/-- The order under which an index holds a key, if the key is an entry of it. -/
def orderOf : OrderIndex → LogicalKey → Option CatalogOrderId
  | dataFileBegin tableId, .dataFileBegin table beginOrder _ => if table = tableId then some beginOrder else none
  | deleteFileTimeline dataFileId, .deleteFileTimeline file beginOrder _ =>
    if file = dataFileId then some beginOrder else none
  | tableVisibility, .tableVisibility beginOrder _ => some beginOrder
  | tableDataFileChange tableId, .tableDataFileChange table order _ _ => if table = tableId then some order else none
  | tableDeleteFileChange tableId, .tableDeleteFileChange table order _ =>
    if table = tableId then some order else none
  | orderDeleteFileChange, .orderDeleteFileChange order _ _ => some order
  | tableInlineRowChange tableId, .tableInlineRowChange table order _ _ _ =>
    if table = tableId then some order else none
  | tableSchemaKindInlineRowChange tableId schemaId kind,
    .tableSchemaKindInlineRowChange table schema changed order _ =>
    if table = tableId ∧ schema = schemaId ∧ changed = kind then some order else none
  | schemaVersionHistory, .schemaVersionHistory order => some order
  | _, _ => none

end OrderIndex

/-! ## Entries of the end-order index -/

inductive EndOrderEntry
  | dataFile (dataFileId : UInt64)
  | deleteFile (tableId deleteFileId : UInt64)
  | inlineTable (tableId schemaId : UInt64) (beginOrder endOrder : CatalogOrderId)

def u64FromBytes (truncated : CatalogError) (bytes : Bytes) : CatalogResult UInt64 :=
  if bytes.length = 8 then .ok (UInt64.ofNat (beNumber bytes)) else .error truncated

def uuidV7FromBytes (truncated : CatalogError) (bytes : Bytes) : CatalogResult CatalogOrderId :=
  if sized : bytes.length = CatalogOrderId.LEN then .ok ⟨.uuidV7, ⟨bytes.toArray, by simp [sized, CatalogOrderId.LEN]⟩⟩
  else .error truncated

/-- The kind of an entry is told by the length of what follows its order, then by a tag. -/
def decodeEndOrderEntry (catalog : UInt64) (key : Bytes) : CatalogResult (Option EndOrderEntry) :=
  let front := familyPrefix catalog .endOrder
  if ¬ front.isPrefixOf key then .ok none
  else
    let tail := key.drop front.length
    let minimumLen := 8 + 1 + CatalogOrderId.LEN + 1 + 8
    if tail.length < minimumLen then
      .error (.invalidKey s!"end-order key tail is too short: {tail.length} bytes")
    else do
      let tableId ← u64FromBytes (.invalidKey "end-order table id is truncated") (tail.take 8)
      let orderStart := 9
      let objectStart := orderStart + CatalogOrderId.LEN + 1
      if tail[8]? ≠ some sep ∨ tail[orderStart + CatalogOrderId.LEN]? ≠ some sep then
        .error (.invalidKey "end-order key separators are invalid")
      else
        let object := tail.drop objectStart
        let inlineLen := 2 + 8 + 1 + CatalogOrderId.LEN
        if object.length = 8 then do
          let dataFileId ← u64FromBytes (.invalidKey "end-order data file id is truncated") object
          .ok (some (.dataFile dataFileId))
        else if object.length = 10 ∧ object[0]? = some (asciiByte 'x') ∧ object[1]? = some sep then do
          let deleteFileId ← u64FromBytes (.invalidKey "end-order delete file id is truncated") (object.drop 2)
          .ok (some (.deleteFile tableId deleteFileId))
        else if object.length = inlineLen ∧ object[0]? = some (asciiByte 'i') ∧ object[1]? = some sep then
          if object[10]? ≠ some sep then
            .error (.invalidKey "end-order inline table separators are invalid")
          else do
            let beginOrder ← uuidV7FromBytes (.invalidKey "end-order inline begin is truncated") (object.drop 11)
            let schemaId ← u64FromBytes (.invalidKey "end-order inline schema is truncated") ((object.drop 2).take 8)
            let endOrder ← uuidV7FromBytes (.invalidKey "end-order inline marker order is truncated")
              ((tail.drop orderStart).take CatalogOrderId.LEN)
            .ok (some (.inlineTable tableId schemaId beginOrder endOrder))
        else .error (.invalidKey s!"end-order object tail has unsupported shape: {object.length} bytes")

end DucklakeCatalog.Wire
