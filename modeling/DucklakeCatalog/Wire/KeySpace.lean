import DucklakeCatalog.Wire.LogicalKeys
import DucklakeCatalog.Wire.RowRoundTrips

/-! Every key says which constructor built it, and from which fields. -/
namespace DucklakeCatalog.Wire

open ByteCodec KeyedStore

/-! ## What a key keeps of its fields -/

/-- Keys hold the bytes of an order, and read as orders of this kind. -/
def CatalogOrderId.asUuidV7 (order : CatalogOrderId) : CatalogOrderId := ⟨.uuidV7, order.bytes⟩

@[simp]
theorem CatalogOrderId.asBytes_asUuidV7 (order : CatalogOrderId) : order.asUuidV7.asBytes = order.asBytes := rfl

theorem uuidV7FromBytes_asBytes (truncated : CatalogError) (order : CatalogOrderId) :
    uuidV7FromBytes truncated order.asBytes = .ok order.asUuidV7 := by
  have sized : order.asBytes.length = CatalogOrderId.LEN := order.length_asBytes
  rw [uuidV7FromBytes, dif_pos sized]
  rfl

namespace LogicalKey

/-- The key that is built from the same bytes: names in lower case, orders without their kind. -/
def canonical : LogicalKey → LogicalKey
  | snapshot order => snapshot order.asUuidV7
  | snapshotTimestamp createdAtMicros order => snapshotTimestamp createdAtMicros order.asUuidV7
  | snapshotDataFileChange tableId order kind dataFileId =>
    snapshotDataFileChange tableId order.asUuidV7 kind dataFileId
  | tableDataFileChange tableId order kind dataFileId => tableDataFileChange tableId order.asUuidV7 kind dataFileId
  | tableObject tableId order => tableObject tableId order.asUuidV7
  | schemaObject schemaId order => schemaObject schemaId order.asUuidV7
  | viewObject viewId order => viewObject viewId order.asUuidV7
  | macroObject macroId order => macroObject macroId order.asUuidV7
  | currentTableName schemaId name => currentTableName schemaId (toAsciiLowercase name)
  | tableVisibility beginOrder tableId => tableVisibility beginOrder.asUuidV7 tableId
  | dataFileBegin tableId beginOrder dataFileId => dataFileBegin tableId beginOrder.asUuidV7 dataFileId
  | dataFileEnd tableId endOrder dataFileId => dataFileEnd tableId endOrder.asUuidV7 dataFileId
  | deleteFileEnd tableId endOrder deleteFileId => deleteFileEnd tableId endOrder.asUuidV7 deleteFileId
  | inlineTableEnd tableId endOrder schemaId beginOrder =>
    inlineTableEnd tableId endOrder.asUuidV7 schemaId beginOrder.asUuidV7
  | inlineFlushWatermark tableId endOrder schemaId maxBeginOrder =>
    inlineFlushWatermark tableId endOrder.asUuidV7 schemaId maxBeginOrder.asUuidV7
  | deleteFileTimeline dataFileId beginOrder deleteFileId =>
    deleteFileTimeline dataFileId beginOrder.asUuidV7 deleteFileId
  | tableDeleteFileChange tableId order deleteFileId => tableDeleteFileChange tableId order.asUuidV7 deleteFileId
  | orderDeleteFileChange order tableId deleteFileId => orderDeleteFileChange order.asUuidV7 tableId deleteFileId
  | inlineFileDeletion tableId dataFileId beginOrder rowId =>
    inlineFileDeletion tableId dataFileId beginOrder.asUuidV7 rowId
  | tableInlineRowChange tableId order kind schemaId rowId =>
    tableInlineRowChange tableId order.asUuidV7 kind schemaId rowId
  | inlineTableChange order kind tableId => inlineTableChange order.asUuidV7 kind tableId
  | tableSchemaKindInlineRowChange tableId schemaId kind order rowId =>
    tableSchemaKindInlineRowChange tableId schemaId kind order.asUuidV7 rowId
  | schemaVersionHistory order => schemaVersionHistory order.asUuidV7
  | other => other

/-- A partition value is at most as long as its length field can say. -/
def Fits : LogicalKey → Prop
  | partitionValueLookup _ _ partitionValue _ => ShortString partitionValue
  | _ => True

end LogicalKey

/-! ## Layouts -/

/-- What stands behind the family of a key. -/
def LogicalKey.body : LogicalKey → Bytes
  | .snapshot order => order.asBytes
  | .snapshotTimestamp createdAtMicros order => sortableI64 createdAtMicros ++ ([sep] ++ order.asBytes)
  | .snapshotDataFileChange tableId order kind dataFileId =>
    order.asBytes ++ ([sep] ++ (u64Bytes tableId ++ ([sep] ++ ([dataFileChangeCode kind] ++ ([sep] ++
      u64Bytes dataFileId)))))
  | .tableDataFileChange tableId order kind dataFileId =>
    u64Bytes tableId ++ ([sep] ++ (order.asBytes ++ ([sep] ++ ([dataFileChangeCode kind] ++ ([sep] ++
      u64Bytes dataFileId)))))
  | .tableObject tableId order => [asciiByte 't', sep] ++ (u64Bytes tableId ++ ([sep] ++ order.asBytes))
  | .schemaObject schemaId order => [asciiByte 's', sep] ++ (u64Bytes schemaId ++ ([sep] ++ order.asBytes))
  | .viewObject viewId order => [asciiByte 'v', sep] ++ (u64Bytes viewId ++ ([sep] ++ order.asBytes))
  | .macroObject macroId order => [asciiByte 'm', sep] ++ (u64Bytes macroId ++ ([sep] ++ order.asBytes))
  | .currentTableRow tableId => [asciiByte 'T', sep] ++ u64Bytes tableId
  | .currentTableName schemaId name =>
    [asciiByte 'n', sep] ++ (u64Bytes schemaId ++ ([sep] ++ utf8 (toAsciiLowercase name)))
  | .tableVisibility beginOrder tableId =>
    [asciiByte 'V', sep] ++ (beginOrder.asBytes ++ ([sep] ++ u64Bytes tableId))
  | .dataFile dataFileId => u64Bytes dataFileId
  | .currentDataFile tableId dataFileId => u64Bytes tableId ++ ([sep] ++ u64Bytes dataFileId)
  | .dataFileBegin tableId beginOrder dataFileId =>
    u64Bytes tableId ++ ([sep] ++ (beginOrder.asBytes ++ ([sep] ++ u64Bytes dataFileId)))
  | .dataFileEnd tableId endOrder dataFileId =>
    u64Bytes tableId ++ ([sep] ++ (endOrder.asBytes ++ ([sep] ++ u64Bytes dataFileId)))
  | .deleteFileEnd tableId endOrder deleteFileId =>
    u64Bytes tableId ++ ([sep] ++ (endOrder.asBytes ++ ([sep] ++ ([asciiByte 'x'] ++ ([sep] ++
      u64Bytes deleteFileId)))))
  | .inlineTableEnd tableId endOrder schemaId beginOrder =>
    u64Bytes tableId ++ ([sep] ++ (endOrder.asBytes ++ ([sep] ++ ([asciiByte 'i'] ++ ([sep] ++
      (u64Bytes schemaId ++ ([sep] ++ beginOrder.asBytes)))))))
  | .inlineFlushWatermark tableId endOrder schemaId maxBeginOrder =>
    u64Bytes tableId ++ ([sep] ++ (endOrder.asBytes ++ ([sep] ++ (u64Bytes schemaId ++ ([sep] ++
      maxBeginOrder.asBytes)))))
  | .deleteFile deleteFileId => u64Bytes deleteFileId
  | .currentDeleteFile dataFileId => u64Bytes dataFileId
  | .deleteFileTimeline dataFileId beginOrder deleteFileId =>
    u64Bytes dataFileId ++ ([sep] ++ (beginOrder.asBytes ++ ([sep] ++ u64Bytes deleteFileId)))
  | .tableDeleteFileChange tableId order deleteFileId =>
    u64Bytes tableId ++ ([sep] ++ (order.asBytes ++ ([sep] ++ u64Bytes deleteFileId)))
  | .orderDeleteFileChange order tableId deleteFileId =>
    order.asBytes ++ ([sep] ++ (u64Bytes tableId ++ ([sep] ++ u64Bytes deleteFileId)))
  | .fileColumnStats dataFileId columnId => u64Bytes dataFileId ++ ([sep] ++ u64Bytes columnId)
  | .fileColumnStatsLookup tableId columnId dataFileId =>
    u64Bytes tableId ++ ([sep] ++ (u64Bytes columnId ++ ([sep] ++ u64Bytes dataFileId)))
  | .filePartitionValue dataFileId partitionKeyIndex =>
    u64Bytes dataFileId ++ ([sep] ++ u32Bytes partitionKeyIndex)
  | .partitionValueLookup tableId partitionKeyIndex partitionValue dataFileId =>
    u64Bytes tableId ++ ([sep] ++ (u32Bytes partitionKeyIndex ++ ([sep] ++ (encodeString partitionValue ++ ([sep] ++
      u64Bytes dataFileId)))))
  | .inlineFileDeletion tableId dataFileId beginOrder rowId =>
    u64Bytes tableId ++ ([sep] ++ (u64Bytes dataFileId ++ ([sep] ++ (beginOrder.asBytes ++ ([sep] ++
      u64Bytes rowId)))))
  | .tableInlineRowChange tableId order kind schemaId rowId =>
    u64Bytes tableId ++ ([sep] ++ (order.asBytes ++ ([sep] ++ ([inlineRowChangeCode kind] ++ ([sep] ++
      (u64Bytes schemaId ++ ([sep] ++ u64Bytes rowId)))))))
  | .inlineTableChange order kind tableId =>
    order.asBytes ++ ([sep] ++ ([inlineRowChangeCode kind] ++ ([sep] ++ u64Bytes tableId)))
  | .tableSchemaKindInlineRowChange tableId schemaId kind order rowId =>
    u64Bytes tableId ++ ([sep] ++ (u64Bytes schemaId ++ ([sep] ++ ([inlineRowChangeCode kind] ++ ([sep] ++
      (order.asBytes ++ ([sep] ++ u64Bytes rowId)))))))
  | .inlineLiveRow tableId schemaId rowId =>
    u64Bytes tableId ++ ([sep] ++ (u64Bytes schemaId ++ ([sep] ++ u64Bytes rowId)))
  | .inlineCurrentRow tableId schemaId rowId =>
    u64Bytes tableId ++ ([sep] ++ (u64Bytes schemaId ++ ([sep] ++ u64Bytes rowId)))
  | .inlineNextRowId tableId schemaId =>
    utf8 "inline-next-row-id/" ++ (u64Bytes tableId ++ ([sep] ++ u64Bytes schemaId))
  | .tableNextRowId tableId => utf8 "table-next-row-id/" ++ u64Bytes tableId
  | .tableFileStatsVersion tableId => utf8 "table-file-stats/" ++ u64Bytes tableId
  | .catalogFileStatsVersion => utf8 "catalog-file-stats"
  | .conflictWatermarksInitialized => utf8 "conflict-watermarks-initialized"
  | .conflictMaxCatalogId => utf8 "conflict-max-catalog-id"
  | .conflictMaxFileId => utf8 "conflict-max-file-id"
  | .currentSchemaVersion => utf8 "current-schema-version"
  | .schemaVersionHistory order => utf8 "schema-version-history/" ++ order.asBytes
  | .schemaVersionBeginSnapshot schemaVersion => utf8 "schema-version-begin-snapshot/" ++ u64Bytes schemaVersion
  | .catalogSnapshotVersion => utf8 "catalog-snapshot-version"
  | .latestSnapshotRow => utf8 "latest-snapshot-row"
  | .rawSnapshotRow rawSequence => utf8 "raw-snapshot-row/" ++ u64Bytes rawSequence
  | .conflictFence scope => scope
  | .scheduledDataFileCleanup dataFileId => [asciiByte 'd', sep] ++ u64Bytes dataFileId
  | .scheduledDeleteFileCleanup deleteFileId => [asciiByte 'x', sep] ++ u64Bytes deleteFileId

theorem LogicalKey.bytes_eq (catalog : UInt64) (key : LogicalKey) :
    key.bytes catalog = familyPrefix catalog key.family ++ key.body := by
  cases key <;>
  simp only [bytes, snapshotKey, snapshotTimestampKey, snapshotDataFileChangeKey, snapshotDataFileChangePrefix,
    tableDataFileChangeKey, tableDataFileChangePrefix, tableObjectKey, tableObjectPrefix, schemaObjectKey,
    schemaObjectPrefix, viewObjectKey, viewObjectPrefix, macroObjectKey, macroObjectPrefix, objectPrefix,
    currentTableRowKey, currentTableRowPrefix, objectScanPrefix, currentTableNameKey, tableVisibilityKey,
    tableVisibilityPrefix, dataFileKey, currentDataFileKey, currentDataFilePrefix, dataFileBeginKey, dataFileEndKey,
    deleteFileEndKey, inlineTableEndKey, InlineFlushWatermarkKey.encode, deleteFileKey, currentDeleteFileKey,
    deleteFileTimelineKey, deleteFileTimelinePrefix, tableDeleteFileChangeKey, tableDeleteFileChangePrefix,
    orderDeleteFileChangeKey, orderDeleteFileChangePrefix, fileColumnStatsKey, fileColumnStatsDataFilePrefix,
    fileColumnStatsLookupKey, fileColumnStatsLookupPrefix, filePartitionValueKey, filePartitionValuePrefix,
    partitionValueLookupKey, partitionValueLookupPrefix, inlineFileDeletionKey, inlineFileDeletionFilePrefix,
    inlineFileDeletionTablePrefix, tableInlineRowChangeKey, tableInlineRowChangePrefix, inlineTableChangeKey,
    inlineTableChangePrefix, tableSchemaKindInlineRowChangeKey, tableSchemaKindInlineRowChangePrefix, inlineLiveRowKey,
    inlineCurrentRowKey, inlineCurrentRowPrefix, inlineNextRowIdKey, tableNextRowIdKey, tableFileStatsVersionKey,
    catalogFileStatsVersionKey, conflictWatermarksInitializedKey, conflictMaxCatalogIdKey, conflictMaxFileIdKey,
    currentSchemaVersionKey, schemaVersionHistoryKey, schemaVersionHistoryPrefix, schemaVersionBeginSnapshotKey,
    catalogSnapshotVersionKey, latestSnapshotRowKey, rawSnapshotRowKey, conflictFenceKey, scheduledDataFileCleanupKey,
    scheduledDeleteFileCleanupKey, scheduledCleanupKey, scheduledCleanupPrefix, List.append_assoc, family, body]

/-- What stands behind the family in a listing of a part of a family. -/
def ListingPrefix.body : ListingPrefix → Bytes
  | .catalog => []
  | .family _ => []
  | .currentDataFile tableId => u64Bytes tableId ++ [sep]
  | .dataFileBegin tableId => u64Bytes tableId ++ [sep]
  | .deleteFileTimeline dataFileId => u64Bytes dataFileId ++ [sep]
  | .fileColumnStatsDataFile dataFileId => u64Bytes dataFileId
  | .fileColumnStatsLookup tableId columnId => u64Bytes tableId ++ ([sep] ++ (u64Bytes columnId ++ [sep]))
  | .filePartitionValue dataFileId => u64Bytes dataFileId ++ [sep]
  | .partitionValueLookup tableId partitionKeyIndex partitionValue =>
    u64Bytes tableId ++ ([sep] ++ (u32Bytes partitionKeyIndex ++ ([sep] ++ (encodeString partitionValue ++ [sep]))))
  | .scheduledDataFileCleanup => [asciiByte 'd', sep]
  | .scheduledDeleteFileCleanup => [asciiByte 'x', sep]
  | .inlineCurrentRow tableId schemaId => u64Bytes tableId ++ ([sep] ++ (u64Bytes schemaId ++ [sep]))
  | .inlineFileDeletionTable tableId => u64Bytes tableId ++ [sep]
  | .inlineFileDeletionFile tableId dataFileId => u64Bytes tableId ++ ([sep] ++ (u64Bytes dataFileId ++ [sep]))
  | .tableObjectScan => [asciiByte 't', sep]
  | .tableObject tableId => [asciiByte 't', sep] ++ (u64Bytes tableId ++ [sep])
  | .schemaObjectScan => [asciiByte 's', sep]
  | .schemaObject schemaId => [asciiByte 's', sep] ++ (u64Bytes schemaId ++ [sep])
  | .viewObjectScan => [asciiByte 'v', sep]
  | .viewObject viewId => [asciiByte 'v', sep] ++ (u64Bytes viewId ++ [sep])
  | .macroObjectScan => [asciiByte 'm', sep]
  | .macroObject macroId => [asciiByte 'm', sep] ++ (u64Bytes macroId ++ [sep])
  | .currentTableRow => [asciiByte 'T', sep]
  | .tableVisibility => [asciiByte 'V', sep]
  | .tableDataFileChange tableId => u64Bytes tableId ++ [sep]
  | .tableDeleteFileChange tableId => u64Bytes tableId ++ [sep]
  | .tableInlineRowChange tableId => u64Bytes tableId ++ [sep]
  | .tableSchemaKindInlineRowChange tableId schemaId kind =>
    u64Bytes tableId ++ ([sep] ++ (u64Bytes schemaId ++ ([sep] ++ ([inlineRowChangeCode kind] ++ [sep]))))
  | .schemaVersionHistory => utf8 "schema-version-history/"

/-- The family that a listing is a part of. -/
def ListingPrefix.inFamily : ListingPrefix → Option KeyFamily
  | .catalog => none
  | .family keyFamily => some keyFamily
  | .currentDataFile _ => some .currentDataFile
  | .dataFileBegin _ => some .dataFileBegin
  | .deleteFileTimeline _ => some .deleteFileTimeline
  | .fileColumnStatsDataFile _ => some .fileColumnStats
  | .fileColumnStatsLookup _ _ => some .fileColumnStatsLookup
  | .filePartitionValue _ => some .filePartitionValue
  | .partitionValueLookup _ _ _ => some .partitionValueLookup
  | .scheduledDataFileCleanup => some .scheduledCleanup
  | .scheduledDeleteFileCleanup => some .scheduledCleanup
  | .inlineCurrentRow _ _ => some .inlineCurrentRow
  | .inlineFileDeletionTable _ => some .inlineFileDeletion
  | .inlineFileDeletionFile _ _ => some .inlineFileDeletion
  | .tableDataFileChange _ => some .tableChanges
  | .tableDeleteFileChange _ => some .deleteFileChange
  | .tableInlineRowChange _ => some .inlineRowChange
  | .tableSchemaKindInlineRowChange _ _ _ => some .inlineRowChangeBySchemaKind
  | .schemaVersionHistory => some .metadataVersion
  | _ => some .object

theorem ListingPrefix.bytes_eq (catalog : UInt64) {listing : ListingPrefix} {family : KeyFamily}
    (inside : listing.inFamily = some family) :
    listing.bytes catalog = familyPrefix catalog family ++ listing.body := by
  cases listing <;> cases inside <;>
  simp only [bytes, body, List.append_nil, currentDataFilePrefix, dataFileBeginPrefix, deleteFileTimelinePrefix,
    fileColumnStatsDataFilePrefix, fileColumnStatsLookupPrefix, filePartitionValuePrefix, partitionValueLookupPrefix,
    scheduledDataFileCleanupPrefix, scheduledDeleteFileCleanupPrefix, scheduledCleanupPrefix, inlineCurrentRowPrefix,
    inlineFileDeletionFilePrefix, inlineFileDeletionTablePrefix, tableObjectScanPrefix, schemaObjectScanPrefix,
    viewObjectScanPrefix, macroObjectScanPrefix, objectScanPrefix, tableObjectPrefix, schemaObjectPrefix,
    viewObjectPrefix, macroObjectPrefix, objectPrefix, currentTableRowPrefix, tableVisibilityPrefix,
    tableDataFileChangePrefix, tableDeleteFileChangePrefix, tableInlineRowChangePrefix,
    tableSchemaKindInlineRowChangePrefix, schemaVersionHistoryPrefix, List.append_assoc]

/-! ## Fields -/

def unknownKey : CatalogError := .invalidKey "not a key of the catalog"

def KeyFamily.all : List KeyFamily :=
  [.snapshot, .snapshotByTimestamp, .snapshotChanges, .tableChanges, .object, .dataFile, .currentDataFile,
    .dataFileBegin, .endOrder, .inlineFlushWatermark, .deleteFile, .currentDeleteFile, .deleteFileTimeline,
    .deleteFileChange, .deleteFileChangeByOrder, .fileColumnStats, .fileColumnStatsLookup, .filePartitionValue,
    .partitionValueLookup, .inlineTable, .inlineDeletion, .inlineFileDeletion, .inlineRowChange, .inlineTableChange,
    .inlineRowChangeBySchemaKind, .inlineLiveRow, .inlineCurrentRow, .metadataSetting, .metadataVersion,
    .columnMapping, .conflictFence, .commitAttempt, .scheduledCleanup, .snapshotOperation]

def readFamily : Reader CatalogError KeyFamily := readCode unknownKey KeyFamily.all KeyFamily.code

def readOrder : Reader CatalogError CatalogOrderId := fun bytes => do
  let (order, bytes) ← readBytes unknownKey CatalogOrderId.LEN bytes
  let order ← uuidV7FromBytes unknownKey order
  .ok (order, bytes)

def readTimestamp : Reader CatalogError Int64 := fun bytes => do
  let (sortable, bytes) ← readU64 unknownKey bytes
  .ok (sortable.toInt64 ^^^ Int64.minValue, bytes)

section Fields

variable {α : Type}

def thenId : (UInt64 → Bytes → CatalogResult α) → Bytes → CatalogResult α := andThen (readU64 unknownKey)

def thenIndex : (UInt32 → Bytes → CatalogResult α) → Bytes → CatalogResult α := andThen (readU32 unknownKey)

def thenOrder : (CatalogOrderId → Bytes → CatalogResult α) → Bytes → CatalogResult α := andThen readOrder

def thenTimestamp : (Int64 → Bytes → CatalogResult α) → Bytes → CatalogResult α := andThen readTimestamp

def thenFileChange : (DataFileChangeKind → Bytes → CatalogResult α) → Bytes → CatalogResult α :=
  andThen (readCode unknownKey [.added, .removed] dataFileChangeCode)

def thenRowChange : (InlineRowChangeKind → Bytes → CatalogResult α) → Bytes → CatalogResult α :=
  andThen (readCode unknownKey [.inserted, .deleted] inlineRowChangeCode)

def thenValue : (String → Bytes → CatalogResult α) → Bytes → CatalogResult α :=
  andThen (readText unknownKey unknownKey unknownKey)

def thenSep : (Bytes → CatalogResult α) → Bytes → CatalogResult α := expect unknownKey [sep]

def thenName (next : String → CatalogResult α) (bytes : Bytes) : CatalogResult α := decodeText unknownKey bytes >>= next

def thenEnd : α → Bytes → CatalogResult α := finish unknownKey

end Fields

/-! ## Keys -/

def parseObject : Bytes → CatalogResult LogicalKey :=
  choose unknownKey
    [([asciiByte 't', sep], thenId fun tableId => thenSep <| thenOrder fun order =>
      thenEnd (.tableObject tableId order)),
    ([asciiByte 's', sep], thenId fun schemaId => thenSep <| thenOrder fun order =>
      thenEnd (.schemaObject schemaId order)),
    ([asciiByte 'v', sep], thenId fun viewId => thenSep <| thenOrder fun order => thenEnd (.viewObject viewId order)),
    ([asciiByte 'm', sep], thenId fun macroId => thenSep <| thenOrder fun order =>
      thenEnd (.macroObject macroId order)),
    ([asciiByte 'T', sep], thenId fun tableId => thenEnd (.currentTableRow tableId)),
    ([asciiByte 'n', sep], thenId fun schemaId => thenSep <| thenName fun name =>
      .ok (.currentTableName schemaId name)),
    ([asciiByte 'V', sep], thenOrder fun beginOrder => thenSep <| thenId fun tableId =>
      thenEnd (.tableVisibility beginOrder tableId))]

def parseVersion : Bytes → CatalogResult LogicalKey :=
  choose unknownKey
    [(utf8 "inline-next-row-id/", thenId fun tableId => thenSep <| thenId fun schemaId =>
      thenEnd (.inlineNextRowId tableId schemaId)),
    (utf8 "table-next-row-id/", thenId fun tableId => thenEnd (.tableNextRowId tableId)),
    (utf8 "table-file-stats/", thenId fun tableId => thenEnd (.tableFileStatsVersion tableId)),
    (utf8 "catalog-file-stats", thenEnd .catalogFileStatsVersion),
    (utf8 "conflict-watermarks-initialized", thenEnd .conflictWatermarksInitialized),
    (utf8 "conflict-max-catalog-id", thenEnd .conflictMaxCatalogId),
    (utf8 "conflict-max-file-id", thenEnd .conflictMaxFileId),
    (utf8 "current-schema-version", thenEnd .currentSchemaVersion),
    (utf8 "schema-version-history/", thenOrder fun order => thenEnd (.schemaVersionHistory order)),
    (utf8 "schema-version-begin-snapshot/", thenId fun schemaVersion =>
      thenEnd (.schemaVersionBeginSnapshot schemaVersion)),
    (utf8 "catalog-snapshot-version", thenEnd .catalogSnapshotVersion),
    (utf8 "latest-snapshot-row", thenEnd .latestSnapshotRow),
    (utf8 "raw-snapshot-row/", thenId fun rawSequence => thenEnd (.rawSnapshotRow rawSequence))]

/-- Three kinds of entries share a family: the bare id is told by its length, before the tags. -/
def parseEnded (tableId : UInt64) (endOrder : CatalogOrderId) (object : Bytes) : CatalogResult LogicalKey :=
  if object.length = 8 then thenId (fun dataFileId => thenEnd (.dataFileEnd tableId endOrder dataFileId)) object
  else
    choose unknownKey
      [([asciiByte 'x'], thenSep <| thenId fun deleteFileId => thenEnd (.deleteFileEnd tableId endOrder deleteFileId)),
      ([asciiByte 'i'], thenSep <| thenId fun schemaId => thenSep <| thenOrder fun beginOrder =>
        thenEnd (.inlineTableEnd tableId endOrder schemaId beginOrder))]
      object

def parseBody : KeyFamily → Bytes → CatalogResult LogicalKey
  | .snapshot => thenOrder fun order => thenEnd (.snapshot order)
  | .snapshotByTimestamp =>
    thenTimestamp fun createdAtMicros => thenSep <| thenOrder fun order =>
      thenEnd (.snapshotTimestamp createdAtMicros order)
  | .snapshotChanges =>
    thenOrder fun order => thenSep <| thenId fun tableId => thenSep <| thenFileChange fun kind => thenSep <|
      thenId fun dataFileId => thenEnd (.snapshotDataFileChange tableId order kind dataFileId)
  | .tableChanges =>
    thenId fun tableId => thenSep <| thenOrder fun order => thenSep <| thenFileChange fun kind => thenSep <|
      thenId fun dataFileId => thenEnd (.tableDataFileChange tableId order kind dataFileId)
  | .object => parseObject
  | .dataFile => thenId fun dataFileId => thenEnd (.dataFile dataFileId)
  | .currentDataFile =>
    thenId fun tableId => thenSep <| thenId fun dataFileId => thenEnd (.currentDataFile tableId dataFileId)
  | .dataFileBegin =>
    thenId fun tableId => thenSep <| thenOrder fun beginOrder => thenSep <| thenId fun dataFileId =>
      thenEnd (.dataFileBegin tableId beginOrder dataFileId)
  | .endOrder => thenId fun tableId => thenSep <| thenOrder fun endOrder => thenSep <| parseEnded tableId endOrder
  | .inlineFlushWatermark =>
    thenId fun tableId => thenSep <| thenOrder fun endOrder => thenSep <| thenId fun schemaId => thenSep <|
      thenOrder fun maxBeginOrder => thenEnd (.inlineFlushWatermark tableId endOrder schemaId maxBeginOrder)
  | .deleteFile => thenId fun deleteFileId => thenEnd (.deleteFile deleteFileId)
  | .currentDeleteFile => thenId fun dataFileId => thenEnd (.currentDeleteFile dataFileId)
  | .deleteFileTimeline =>
    thenId fun dataFileId => thenSep <| thenOrder fun beginOrder => thenSep <| thenId fun deleteFileId =>
      thenEnd (.deleteFileTimeline dataFileId beginOrder deleteFileId)
  | .deleteFileChange =>
    thenId fun tableId => thenSep <| thenOrder fun order => thenSep <| thenId fun deleteFileId =>
      thenEnd (.tableDeleteFileChange tableId order deleteFileId)
  | .deleteFileChangeByOrder =>
    thenOrder fun order => thenSep <| thenId fun tableId => thenSep <| thenId fun deleteFileId =>
      thenEnd (.orderDeleteFileChange order tableId deleteFileId)
  | .fileColumnStats =>
    thenId fun dataFileId => thenSep <| thenId fun columnId => thenEnd (.fileColumnStats dataFileId columnId)
  | .fileColumnStatsLookup =>
    thenId fun tableId => thenSep <| thenId fun columnId => thenSep <| thenId fun dataFileId =>
      thenEnd (.fileColumnStatsLookup tableId columnId dataFileId)
  | .filePartitionValue =>
    thenId fun dataFileId => thenSep <| thenIndex fun partitionKeyIndex =>
      thenEnd (.filePartitionValue dataFileId partitionKeyIndex)
  | .partitionValueLookup =>
    thenId fun tableId => thenSep <| thenIndex fun partitionKeyIndex => thenSep <| thenValue fun partitionValue =>
      thenSep <| thenId fun dataFileId =>
        thenEnd (.partitionValueLookup tableId partitionKeyIndex partitionValue dataFileId)
  | .inlineFileDeletion =>
    thenId fun tableId => thenSep <| thenId fun dataFileId => thenSep <| thenOrder fun beginOrder => thenSep <|
      thenId fun rowId => thenEnd (.inlineFileDeletion tableId dataFileId beginOrder rowId)
  | .inlineRowChange =>
    thenId fun tableId => thenSep <| thenOrder fun order => thenSep <| thenRowChange fun kind => thenSep <|
      thenId fun schemaId => thenSep <| thenId fun rowId =>
        thenEnd (.tableInlineRowChange tableId order kind schemaId rowId)
  | .inlineTableChange =>
    thenOrder fun order => thenSep <| thenRowChange fun kind => thenSep <| thenId fun tableId =>
      thenEnd (.inlineTableChange order kind tableId)
  | .inlineRowChangeBySchemaKind =>
    thenId fun tableId => thenSep <| thenId fun schemaId => thenSep <| thenRowChange fun kind => thenSep <|
      thenOrder fun order => thenSep <| thenId fun rowId =>
        thenEnd (.tableSchemaKindInlineRowChange tableId schemaId kind order rowId)
  | .inlineLiveRow =>
    thenId fun tableId => thenSep <| thenId fun schemaId => thenSep <| thenId fun rowId =>
      thenEnd (.inlineLiveRow tableId schemaId rowId)
  | .inlineCurrentRow =>
    thenId fun tableId => thenSep <| thenId fun schemaId => thenSep <| thenId fun rowId =>
      thenEnd (.inlineCurrentRow tableId schemaId rowId)
  | .metadataVersion => parseVersion
  | .conflictFence => fun scope => .ok (.conflictFence scope)
  | .scheduledCleanup =>
    choose unknownKey
      [([asciiByte 'd', sep], thenId fun dataFileId => thenEnd (.scheduledDataFileCleanup dataFileId)),
      ([asciiByte 'x', sep], thenId fun deleteFileId => thenEnd (.scheduledDeleteFileCleanup deleteFileId))]
  | .inlineTable => fun _ => .error unknownKey
  | .inlineDeletion => fun _ => .error unknownKey
  | .metadataSetting => fun _ => .error unknownKey
  | .columnMapping => fun _ => .error unknownKey
  | .commitAttempt => fun _ => .error unknownKey
  | .snapshotOperation => fun _ => .error unknownKey

def LogicalKey.parse : Bytes → CatalogResult (UInt64 × LogicalKey) :=
  thenId fun catalog => thenSep <| andThen readFamily fun family => thenSep fun body =>
    (parseBody family body).map (catalog, ·)

/-! ## Fields that were written are read back -/

section Fields

variable {α : Type} (rest : Bytes)

theorem thenId_append (next : UInt64 → Bytes → CatalogResult α) (value : UInt64) :
    thenId next (u64Bytes value ++ rest) = next value rest := by
  rw [thenId, andThen, readU64_u64Bytes]
  rfl

theorem thenId_last (next : UInt64 → Bytes → CatalogResult α) (value : UInt64) :
    thenId next (u64Bytes value) = next value [] := by
  simpa using thenId_append [] next value

theorem thenIndex_append (next : UInt32 → Bytes → CatalogResult α) (value : UInt32) :
    thenIndex next (u32Bytes value ++ rest) = next value rest := by
  rw [thenIndex, andThen, readU32_u32Bytes]
  rfl

theorem thenIndex_last (next : UInt32 → Bytes → CatalogResult α) (value : UInt32) :
    thenIndex next (u32Bytes value) = next value [] := by
  simpa using thenIndex_append [] next value

theorem thenOrder_append (next : CatalogOrderId → Bytes → CatalogResult α) (order : CatalogOrderId) :
    thenOrder next (order.asBytes ++ rest) = next order.asUuidV7 rest := by
  rw [thenOrder, andThen, readOrder]
  simp only [readBytes_append unknownKey order.length_asBytes rest, CatalogOrderId.LEN, ok_bind,
    uuidV7FromBytes_asBytes]

theorem thenOrder_last (next : CatalogOrderId → Bytes → CatalogResult α) (order : CatalogOrderId) :
    thenOrder next order.asBytes = next order.asUuidV7 [] := by
  simpa using thenOrder_append [] next order

theorem thenTimestamp_append (next : Int64 → Bytes → CatalogResult α) (value : Int64) :
    thenTimestamp next (sortableI64 value ++ rest) = next value rest := by
  have back : (value ^^^ Int64.minValue).toUInt64.toInt64 ^^^ Int64.minValue = value := by
    apply Int64.toBitVec_inj.mp
    simp [BitVec.xor_assoc]
  rw [thenTimestamp, andThen, readTimestamp, sortableI64, readU64_u64Bytes]
  simp only [ok_bind, back]

theorem thenFileChange_append (next : DataFileChangeKind → Bytes → CatalogResult α) (kind : DataFileChangeKind) :
    thenFileChange next ([dataFileChangeCode kind] ++ rest) = next kind rest := by
  cases kind <;> rfl

theorem thenRowChange_append (next : InlineRowChangeKind → Bytes → CatalogResult α) (kind : InlineRowChangeKind) :
    thenRowChange next ([inlineRowChangeCode kind] ++ rest) = next kind rest := by
  cases kind <;> rfl

theorem thenValue_append (next : String → Bytes → CatalogResult α) {value : String} (short : ShortString value) :
    thenValue next (encodeString value ++ rest) = next value rest := by
  rw [thenValue, andThen, readText_encodeString unknownKey unknownKey unknownKey short]
  rfl

theorem thenSep_append (next : Bytes → CatalogResult α) : thenSep next ([sep] ++ rest) = next rest :=
  expect_append unknownKey [sep] next rest

theorem thenName_utf8 (next : String → CatalogResult α) (name : String) : thenName next (utf8 name) = next name := by
  rw [thenName, decodeText_utf8]
  rfl

theorem thenEnd_nil (value : α) : thenEnd value [] = .ok value := rfl

end Fields

theorem parse_catalogPrefix (catalog : UInt64) (rest : Bytes) :
    LogicalKey.parse (catalogPrefix catalog ++ rest) =
      andThen readFamily (fun family => thenSep fun body => (parseBody family body).map (catalog, ·)) rest := by
  rw [LogicalKey.parse, catalogPrefix, List.append_assoc, thenId_append, thenSep_append]

theorem parse_familyPrefix (catalog : UInt64) (family : KeyFamily) (rest : Bytes) :
    LogicalKey.parse (familyPrefix catalog family ++ rest) = (parseBody family rest).map (catalog, ·) := by
  have found : readFamily ([family.code] ++ ([sep] ++ rest)) = .ok (family, [sep] ++ rest) := by
    cases family <;> rfl
  rw [familyPrefix, List.append_assoc, parse_catalogPrefix]
  change andThen readFamily _ ([family.code] ++ ([sep] ++ rest)) = _
  rw [andThen, found, ok_bind]
  exact thenSep_append rest _

/-! ## Keys that were built are read back -/

theorem parseEnded_id (tableId : UInt64) (endOrder : CatalogOrderId) (dataFileId : UInt64) :
    parseEnded tableId endOrder (u64Bytes dataFileId) = .ok (.dataFileEnd tableId endOrder dataFileId) := by
  rw [parseEnded, if_pos (length_u64Bytes dataFileId), thenId_last, thenEnd_nil]

theorem parseEnded_tagged (tableId : UInt64) (endOrder : CatalogOrderId) (tag : UInt8) (object : Bytes)
    (longer : 8 ≤ object.length) :
    parseEnded tableId endOrder ([tag] ++ ([sep] ++ object)) =
      choose unknownKey
        [([asciiByte 'x'], thenSep <| thenId fun deleteFileId =>
          thenEnd (.deleteFileEnd tableId endOrder deleteFileId)),
        ([asciiByte 'i'], thenSep <| thenId fun schemaId => thenSep <| thenOrder fun beginOrder =>
          thenEnd (.inlineTableEnd tableId endOrder schemaId beginOrder))]
        ([tag] ++ ([sep] ++ object)) := by
  have other : ([tag] ++ ([sep] ++ object)).length ≠ 8 := by
    simp only [List.length_append, List.length_singleton]
    omega
  rw [parseEnded, if_neg other]

theorem LogicalKey.parseBody_body {key : LogicalKey} (fits : key.Fits) :
    parseBody key.family key.body = .ok key.canonical := by
  cases key with
  | partitionValueLookup tableId partitionKeyIndex partitionValue dataFileId =>
    have short : ShortString partitionValue := fits
    simp only [family, body, canonical, parseBody, thenId_append, thenIndex_append, thenValue_append _ _ short,
      thenSep_append, thenId_last, thenEnd_nil]
  | deleteFileEnd tableId endOrder deleteFileId =>
    have long : 8 ≤ (u64Bytes deleteFileId).length := (length_u64Bytes deleteFileId).ge
    simp only [family, body, canonical, parseBody, thenId_append, thenSep_append, thenOrder_append,
      parseEnded_tagged _ _ _ _ long, choose_here, thenId_last, thenEnd_nil]
  | inlineTableEnd tableId endOrder schemaId beginOrder =>
    have long : 8 ≤ (u64Bytes schemaId ++ ([sep] ++ beginOrder.asBytes)).length := by simp
    simp (disch := decide) only [family, body, canonical, parseBody, thenId_append, thenSep_append, thenOrder_append,
      parseEnded_tagged _ _ _ _ long, choose_here, choose_elsewhere, thenOrder_last, thenEnd_nil]
  | _ =>
    simp (disch := decide) only [family, body, canonical, parseBody, parseObject, parseVersion, parseEnded_id,
      choose_here, choose_elsewhere, thenId_append, thenId_last, thenIndex_last, thenOrder_append, thenOrder_last,
      thenTimestamp_append, thenFileChange_append, thenRowChange_append, thenSep_append, thenName_utf8, thenEnd_nil]
    try rfl

theorem LogicalKey.parse_bytes (catalog : UInt64) {key : LogicalKey} (fits : key.Fits) :
    LogicalKey.parse (key.bytes catalog) = .ok (catalog, key.canonical) := by
  rw [bytes_eq, parse_familyPrefix, parseBody_body fits]
  rfl

end DucklakeCatalog.Wire
