import DucklakeCatalog.ByteCodec.Overwrite
import DucklakeCatalog.Kv.Rows
import DucklakeCatalog.Wire.Rows

/-! The keys that FoundationDB completes with the versionstamp of the commit, and
the offsets at which the staging code asks for it. -/
namespace DucklakeCatalog.Wire

open ByteCodec

inductive KeyFamily
  | snapshot
  | snapshotByTimestamp
  | snapshotChanges
  | tableChanges
  | object
  | dataFile
  | currentDataFile
  | dataFileBegin
  | endOrder
  | inlineFlushWatermark
  | deleteFile
  | currentDeleteFile
  | deleteFileTimeline
  | deleteFileChange
  | deleteFileChangeByOrder
  | fileColumnStats
  | fileColumnStatsLookup
  | filePartitionValue
  | partitionValueLookup
  | inlineTable
  | inlineDeletion
  | inlineFileDeletion
  | inlineRowChange
  | inlineTableChange
  | inlineRowChangeBySchemaKind
  | inlineLiveRow
  | inlineCurrentRow
  | metadataSetting
  | metadataVersion
  | columnMapping
  | conflictFence
  | commitAttempt
  | scheduledCleanup
  | snapshotOperation
  deriving DecidableEq

def asciiByte (char : Char) : UInt8 := char.toNat.toUInt8

def KeyFamily.code : KeyFamily → UInt8
  | .snapshot => asciiByte 's'
  | .snapshotByTimestamp => asciiByte 'S'
  | .snapshotChanges => asciiByte 'c'
  | .tableChanges => asciiByte 'C'
  | .object => asciiByte 'o'
  | .dataFile => asciiByte 'd'
  | .currentDataFile => asciiByte 'D'
  | .dataFileBegin => asciiByte 'b'
  | .endOrder => asciiByte 'E'
  | .inlineFlushWatermark => asciiByte 'W'
  | .deleteFile => asciiByte 'x'
  | .currentDeleteFile => asciiByte 'X'
  | .deleteFileTimeline => asciiByte 'y'
  | .deleteFileChange => asciiByte 'Y'
  | .deleteFileChangeByOrder => asciiByte 'k'
  | .fileColumnStats => asciiByte 'f'
  | .fileColumnStatsLookup => asciiByte 'F'
  | .filePartitionValue => asciiByte 'P'
  | .partitionValueLookup => asciiByte 'q'
  | .inlineTable => asciiByte 'i'
  | .inlineDeletion => asciiByte 'I'
  | .inlineFileDeletion => asciiByte 'J'
  | .inlineRowChange => asciiByte 'R'
  | .inlineTableChange => asciiByte 'H'
  | .inlineRowChangeBySchemaKind => asciiByte 'K'
  | .inlineLiveRow => asciiByte 'L'
  | .inlineCurrentRow => asciiByte 'r'
  | .metadataSetting => asciiByte 'm'
  | .metadataVersion => asciiByte 'v'
  | .columnMapping => asciiByte 'M'
  | .conflictFence => asciiByte 'w'
  | .commitAttempt => asciiByte 'z'
  | .scheduledCleanup => asciiByte 'G'
  | .snapshotOperation => asciiByte 'O'

def sep : UInt8 := asciiByte '/'

def dataFileChangeCode : DataFileChangeKind → UInt8
  | .added => asciiByte 'a'
  | .removed => asciiByte 'r'

def inlineRowChangeCode : InlineRowChangeKind → UInt8
  | .inserted => asciiByte 'i'
  | .deleted => asciiByte 'd'

def snapshotOperationCode : DucklakeCatalog.SnapshotOperationKind → UInt8
  | .inlineFlush => asciiByte 'F'
  | .rewriteDelete => asciiByte 'R'

namespace CatalogOrderId

def LEN : Nat := 16

def asBytes (order : CatalogOrderId) : Bytes := order.bytes.toList

@[simp]
theorem length_asBytes (order : CatalogOrderId) : order.asBytes.length = 16 := by
  simp [asBytes]

end CatalogOrderId

/-- The order of a commit that is not known yet: ten zero bytes of versionstamp, suffix zero. -/
def incompleteOrder : CatalogOrderId := ⟨.fdbVersionstamp, Vector.replicate 16 0⟩

/-! ## Keys -/

def catalogPrefix (catalog : UInt64) : Bytes := u64Bytes catalog ++ [sep]

def familyPrefix (catalog : UInt64) (family : KeyFamily) : Bytes := catalogPrefix catalog ++ [family.code, sep]

def snapshotKey (catalog : UInt64) (order : CatalogOrderId) : Bytes := familyPrefix catalog .snapshot ++ order.asBytes

def sortableI64 (value : Int64) : Bytes := u64Bytes (value ^^^ Int64.minValue).toUInt64

@[simp]
theorem length_sortableI64 (value : Int64) : (sortableI64 value).length = 8 := length_u64Bytes _

def snapshotTimestampKey (catalog : UInt64) (createdAtMicros : Int64) (order : CatalogOrderId) : Bytes :=
  familyPrefix catalog .snapshotByTimestamp ++ sortableI64 createdAtMicros ++ [sep] ++ order.asBytes

def dataFileBeginPrefix (catalog tableId : UInt64) : Bytes :=
  familyPrefix catalog .dataFileBegin ++ u64Bytes tableId ++ [sep]

def dataFileBeginKey (catalog tableId : UInt64) (beginOrder : CatalogOrderId) (dataFileId : UInt64) : Bytes :=
  familyPrefix catalog .dataFileBegin ++ u64Bytes tableId ++ [sep] ++ beginOrder.asBytes ++ [sep] ++
    u64Bytes dataFileId

def dataFileEndKey (catalog tableId : UInt64) (endOrder : CatalogOrderId) (dataFileId : UInt64) : Bytes :=
  familyPrefix catalog .endOrder ++ u64Bytes tableId ++ [sep] ++ endOrder.asBytes ++ [sep] ++ u64Bytes dataFileId

def deleteFileEndKey (catalog tableId : UInt64) (endOrder : CatalogOrderId) (deleteFileId : UInt64) : Bytes :=
  familyPrefix catalog .endOrder ++ u64Bytes tableId ++ [sep] ++ endOrder.asBytes ++ [sep] ++ [asciiByte 'x'] ++
    [sep] ++ u64Bytes deleteFileId

def tableDataFileChangePrefix (catalog tableId : UInt64) : Bytes :=
  familyPrefix catalog .tableChanges ++ u64Bytes tableId ++ [sep]

def tableDataFileChangeKey (catalog tableId : UInt64) (order : CatalogOrderId) (kind : DataFileChangeKind)
    (dataFileId : UInt64) : Bytes :=
  tableDataFileChangePrefix catalog tableId ++ order.asBytes ++ [sep] ++ [dataFileChangeCode kind] ++ [sep] ++
    u64Bytes dataFileId

def snapshotDataFileChangePrefix (catalog : UInt64) : Bytes := familyPrefix catalog .snapshotChanges

def snapshotDataFileChangeKey (catalog tableId : UInt64) (order : CatalogOrderId) (kind : DataFileChangeKind)
    (dataFileId : UInt64) : Bytes :=
  snapshotDataFileChangePrefix catalog ++ order.asBytes ++ [sep] ++ u64Bytes tableId ++ [sep] ++
    [dataFileChangeCode kind] ++ [sep] ++ u64Bytes dataFileId

def deleteFileTimelinePrefix (catalog dataFileId : UInt64) : Bytes :=
  familyPrefix catalog .deleteFileTimeline ++ u64Bytes dataFileId ++ [sep]

def deleteFileTimelineKey (catalog dataFileId : UInt64) (beginOrder : CatalogOrderId) (deleteFileId : UInt64) : Bytes :=
  deleteFileTimelinePrefix catalog dataFileId ++ beginOrder.asBytes ++ [sep] ++ u64Bytes deleteFileId

def tableDeleteFileChangePrefix (catalog tableId : UInt64) : Bytes :=
  familyPrefix catalog .deleteFileChange ++ u64Bytes tableId ++ [sep]

def tableDeleteFileChangeKey (catalog tableId : UInt64) (order : CatalogOrderId) (deleteFileId : UInt64) : Bytes :=
  tableDeleteFileChangePrefix catalog tableId ++ order.asBytes ++ [sep] ++ u64Bytes deleteFileId

def orderDeleteFileChangePrefix (catalog : UInt64) : Bytes := familyPrefix catalog .deleteFileChangeByOrder

def orderDeleteFileChangeKey (catalog : UInt64) (order : CatalogOrderId) (tableId deleteFileId : UInt64) : Bytes :=
  orderDeleteFileChangePrefix catalog ++ order.asBytes ++ [sep] ++ u64Bytes tableId ++ [sep] ++
    u64Bytes deleteFileId

def inlineTablePrefix (catalog tableId schemaId : UInt64) : Bytes :=
  familyPrefix catalog .inlineTable ++ u64Bytes tableId ++ [sep] ++ u64Bytes schemaId ++ [sep]

def inlineTablePayloadPrefix (catalog tableId schemaId : UInt64) (beginOrder : CatalogOrderId) : Bytes :=
  inlineTablePrefix catalog tableId schemaId ++ beginOrder.asBytes ++ [sep]

def inlineTableChunkKey (catalog tableId schemaId : UInt64) (beginOrder : CatalogOrderId) (chunkIndex : UInt32) :
    Bytes :=
  inlineTablePayloadPrefix catalog tableId schemaId beginOrder ++ u32Bytes chunkIndex

def tableInlineRowChangePrefix (catalog tableId : UInt64) : Bytes :=
  familyPrefix catalog .inlineRowChange ++ u64Bytes tableId ++ [sep]

def tableInlineRowChangeKey (catalog tableId : UInt64) (order : CatalogOrderId) (kind : InlineRowChangeKind)
    (schemaId rowId : UInt64) : Bytes :=
  tableInlineRowChangePrefix catalog tableId ++ order.asBytes ++ [sep] ++ [inlineRowChangeCode kind] ++ [sep] ++
    u64Bytes schemaId ++ [sep] ++ u64Bytes rowId

def inlineTableChangePrefix (catalog : UInt64) : Bytes := familyPrefix catalog .inlineTableChange

def inlineTableChangeKey (catalog : UInt64) (order : CatalogOrderId) (kind : InlineRowChangeKind) (tableId : UInt64) :
    Bytes :=
  inlineTableChangePrefix catalog ++ order.asBytes ++ [sep] ++ [inlineRowChangeCode kind] ++ [sep] ++
    u64Bytes tableId

def tableSchemaKindInlineRowChangePrefix (catalog tableId schemaId : UInt64) (kind : InlineRowChangeKind) : Bytes :=
  familyPrefix catalog .inlineRowChangeBySchemaKind ++ u64Bytes tableId ++ [sep] ++ u64Bytes schemaId ++ [sep] ++
    [inlineRowChangeCode kind] ++ [sep]

def tableSchemaKindInlineRowChangeKey (catalog tableId schemaId : UInt64) (kind : InlineRowChangeKind)
    (order : CatalogOrderId) (rowId : UInt64) : Bytes :=
  tableSchemaKindInlineRowChangePrefix catalog tableId schemaId kind ++ order.asBytes ++ [sep] ++ u64Bytes rowId

structure InlineFlushWatermarkKey where
  tableId : UInt64
  endOrder : CatalogOrderId
  schemaId : UInt64
  maxBeginOrder : CatalogOrderId

def InlineFlushWatermarkKey.encode (key : InlineFlushWatermarkKey) (catalog : UInt64) : Bytes :=
  familyPrefix catalog .inlineFlushWatermark ++ u64Bytes key.tableId ++ [sep] ++ key.endOrder.asBytes ++ [sep] ++
    u64Bytes key.schemaId ++ [sep] ++ key.maxBeginOrder.asBytes

def inlineFileDeletionTablePrefix (catalog tableId : UInt64) : Bytes :=
  familyPrefix catalog .inlineFileDeletion ++ u64Bytes tableId ++ [sep]

def inlineFileDeletionFilePrefix (catalog tableId dataFileId : UInt64) : Bytes :=
  inlineFileDeletionTablePrefix catalog tableId ++ u64Bytes dataFileId ++ [sep]

def inlineFileDeletionKey (catalog tableId dataFileId : UInt64) (beginOrder : CatalogOrderId) (rowId : UInt64) :
    Bytes :=
  inlineFileDeletionFilePrefix catalog tableId dataFileId ++ beginOrder.asBytes ++ [sep] ++ u64Bytes rowId

def snapshotOperationPrefix (catalog : UInt64) : Bytes := familyPrefix catalog .snapshotOperation

def snapshotOperationKey (catalog : UInt64) (order : CatalogOrderId) (kind : DucklakeCatalog.SnapshotOperationKind)
    (tableId : UInt64) : Bytes :=
  snapshotOperationPrefix catalog ++ order.asBytes ++ [sep] ++ [snapshotOperationCode kind] ++ [sep] ++
    u64Bytes tableId

/-- The versions of the objects of one kind: `t` for tables, `s` for schemas, `v` for
views and `m` for macros. -/
def objectPrefix (kind : Char) (catalog objectId : UInt64) : Bytes :=
  familyPrefix catalog .object ++ [asciiByte kind, sep] ++ u64Bytes objectId ++ [sep]

def tableObjectPrefix (catalog tableId : UInt64) : Bytes := objectPrefix 't' catalog tableId

def tableObjectKey (catalog tableId : UInt64) (order : CatalogOrderId) : Bytes :=
  tableObjectPrefix catalog tableId ++ order.asBytes

def schemaObjectPrefix (catalog schemaId : UInt64) : Bytes := objectPrefix 's' catalog schemaId

def schemaObjectKey (catalog schemaId : UInt64) (order : CatalogOrderId) : Bytes :=
  schemaObjectPrefix catalog schemaId ++ order.asBytes

def viewObjectPrefix (catalog viewId : UInt64) : Bytes := objectPrefix 'v' catalog viewId

def viewObjectKey (catalog viewId : UInt64) (order : CatalogOrderId) : Bytes :=
  viewObjectPrefix catalog viewId ++ order.asBytes

def macroObjectPrefix (catalog macroId : UInt64) : Bytes := objectPrefix 'm' catalog macroId

def macroObjectKey (catalog macroId : UInt64) (order : CatalogOrderId) : Bytes :=
  macroObjectPrefix catalog macroId ++ order.asBytes

def tableVisibilityPrefix (catalog : UInt64) : Bytes := familyPrefix catalog .object ++ [asciiByte 'V', sep]

def tableVisibilityKey (catalog : UInt64) (beginOrder : CatalogOrderId) (tableId : UInt64) : Bytes :=
  tableVisibilityPrefix catalog ++ beginOrder.asBytes ++ [sep] ++ u64Bytes tableId

def schemaVersionHistoryPrefix (catalog : UInt64) : Bytes :=
  familyPrefix catalog .metadataVersion ++ utf8 "schema-version-history/"

def schemaVersionHistoryKey (catalog : UInt64) (order : CatalogOrderId) : Bytes :=
  schemaVersionHistoryPrefix catalog ++ order.asBytes

/-! ## Offsets -/

def snapshotKeyOrderOffset (catalog : UInt64) : Nat :=
  (snapshotKey catalog incompleteOrder).length - CatalogOrderId.LEN

def snapshotTimestampKeyOrderOffset (catalog : UInt64) (createdAtMicros : Int64) : Nat :=
  (snapshotTimestampKey catalog createdAtMicros incompleteOrder).length - CatalogOrderId.LEN

def dataFileBeginKeyOrderOffset (catalog tableId : UInt64) : Nat := (dataFileBeginPrefix catalog tableId).length

def dataFileEndKeyOrderOffset (catalog tableId dataFileId : UInt64) : Nat :=
  (dataFileEndKey catalog tableId incompleteOrder dataFileId).length - (CatalogOrderId.LEN + 1 + 8)

/-- What follows the order is three bytes and an id here, as in `deleteFileEndKey`; the source counts one. -/
def deleteFileEndKeyOrderOffset (catalog tableId : UInt64) : Nat :=
  (deleteFileEndKey catalog tableId incompleteOrder 0).length - (CatalogOrderId.LEN + 1 + 8)

def tableDataFileChangeKeyOrderOffset (catalog tableId : UInt64) : Nat :=
  (tableDataFileChangePrefix catalog tableId).length

def snapshotDataFileChangeKeyOrderOffset (catalog : UInt64) : Nat := (snapshotDataFileChangePrefix catalog).length

def deleteFileTimelineKeyOrderOffset (catalog dataFileId : UInt64) : Nat :=
  (deleteFileTimelinePrefix catalog dataFileId).length

def tableDeleteFileChangeKeyOrderOffset (catalog tableId : UInt64) : Nat :=
  (tableDeleteFileChangePrefix catalog tableId).length

def orderDeleteFileChangeKeyOrderOffset (catalog : UInt64) : Nat := (orderDeleteFileChangePrefix catalog).length

def inlineTableChunkKeyOrderOffset (catalog tableId schemaId : UInt64) : Nat :=
  (inlineTablePayloadPrefix catalog tableId schemaId incompleteOrder).length - (CatalogOrderId.LEN + 1)

/-- The insertions of a payload are staged without an order and recognised by their keys. -/
def inlineChangeOrderOffset (catalog tableId : UInt64) (key : Bytes) : CatalogResult Nat :=
  if tableInlineRowChangePrefix catalog tableId <+: key then .ok (tableInlineRowChangePrefix catalog tableId).length
  else if inlineTableChangePrefix catalog <+: key then .ok (inlineTableChangePrefix catalog).length
  else .error (.invalidKey "inline change key has unknown family")

def inlineFlushWatermarkOrderOffset (catalog : UInt64) : Nat :=
  (familyPrefix catalog .inlineFlushWatermark).length + (8 + 1)

def inlineFileDeletionKeyOrderOffset (catalog tableId dataFileId : UInt64) : Nat :=
  (inlineFileDeletionFilePrefix catalog tableId dataFileId).length

def snapshotOperationOrderOffset (catalog : UInt64) : Nat := (snapshotOperationPrefix catalog).length

def tableObjectKeyOrderOffset (catalog tableId : UInt64) : Nat := (tableObjectPrefix catalog tableId).length

def tableVisibilityKeyOrderOffset (catalog : UInt64) : Nat := (tableVisibilityPrefix catalog).length

def schemaObjectKeyOrderOffset (catalog schemaId : UInt64) : Nat := (schemaObjectPrefix catalog schemaId).length

def viewObjectKeyOrderOffset (catalog viewId : UInt64) : Nat := (viewObjectPrefix catalog viewId).length

def macroObjectKeyOrderOffset (catalog macroId : UInt64) : Nat := (macroObjectPrefix catalog macroId).length

def schemaVersionHistoryKeyOrderOffset (catalog : UInt64) : Nat := (schemaVersionHistoryPrefix catalog).length

/-! ## The families together -/

/-- The fields of a versionstamped key beside its catalog and the order that is stamped. -/
inductive VersionstampedKey
  | snapshot
  | snapshotTimestamp (createdAtMicros : Int64)
  | dataFileBegin (tableId dataFileId : UInt64)
  | dataFileEnd (tableId dataFileId : UInt64)
  | deleteFileEnd (tableId deleteFileId : UInt64)
  | tableDataFileChange (tableId : UInt64) (kind : DataFileChangeKind) (dataFileId : UInt64)
  | snapshotDataFileChange (tableId : UInt64) (kind : DataFileChangeKind) (dataFileId : UInt64)
  | deleteFileTimeline (dataFileId deleteFileId : UInt64)
  | tableDeleteFileChange (tableId deleteFileId : UInt64)
  | orderDeleteFileChange (tableId deleteFileId : UInt64)
  | inlineTableChunk (tableId schemaId : UInt64) (chunkIndex : UInt32)
  | tableInlineRowChange (tableId : UInt64) (kind : InlineRowChangeKind) (schemaId rowId : UInt64)
  | inlineTableChange (kind : InlineRowChangeKind) (tableId : UInt64)
  | tableSchemaKindInlineRowChange (tableId schemaId : UInt64) (kind : InlineRowChangeKind) (rowId : UInt64)
  | inlineFlushWatermark (tableId schemaId : UInt64) (maxBeginOrder : CatalogOrderId)
  | inlineFileDeletion (tableId dataFileId rowId : UInt64)
  | snapshotOperation (kind : DucklakeCatalog.SnapshotOperationKind) (tableId : UInt64)
  | tableObject (tableId : UInt64)
  | tableVisibility (tableId : UInt64)
  | schemaObject (schemaId : UInt64)
  | viewObject (viewId : UInt64)
  | macroObject (macroId : UInt64)
  | schemaVersionHistory

namespace VersionstampedKey

def bytes (catalog : UInt64) (order : CatalogOrderId) : VersionstampedKey → Bytes
  | snapshot => snapshotKey catalog order
  | snapshotTimestamp createdAtMicros => snapshotTimestampKey catalog createdAtMicros order
  | dataFileBegin tableId dataFileId => dataFileBeginKey catalog tableId order dataFileId
  | dataFileEnd tableId dataFileId => dataFileEndKey catalog tableId order dataFileId
  | deleteFileEnd tableId deleteFileId => deleteFileEndKey catalog tableId order deleteFileId
  | tableDataFileChange tableId kind dataFileId => tableDataFileChangeKey catalog tableId order kind dataFileId
  | snapshotDataFileChange tableId kind dataFileId => snapshotDataFileChangeKey catalog tableId order kind dataFileId
  | deleteFileTimeline dataFileId deleteFileId => deleteFileTimelineKey catalog dataFileId order deleteFileId
  | tableDeleteFileChange tableId deleteFileId => tableDeleteFileChangeKey catalog tableId order deleteFileId
  | orderDeleteFileChange tableId deleteFileId => orderDeleteFileChangeKey catalog order tableId deleteFileId
  | inlineTableChunk tableId schemaId chunkIndex => inlineTableChunkKey catalog tableId schemaId order chunkIndex
  | tableInlineRowChange tableId kind schemaId rowId =>
    tableInlineRowChangeKey catalog tableId order kind schemaId rowId
  | inlineTableChange kind tableId => inlineTableChangeKey catalog order kind tableId
  | tableSchemaKindInlineRowChange tableId schemaId kind rowId =>
    tableSchemaKindInlineRowChangeKey catalog tableId schemaId kind order rowId
  | inlineFlushWatermark tableId schemaId maxBeginOrder =>
    InlineFlushWatermarkKey.encode ⟨tableId, order, schemaId, maxBeginOrder⟩ catalog
  | inlineFileDeletion tableId dataFileId rowId => inlineFileDeletionKey catalog tableId dataFileId order rowId
  | snapshotOperation kind tableId => snapshotOperationKey catalog order kind tableId
  | tableObject tableId => tableObjectKey catalog tableId order
  | tableVisibility tableId => tableVisibilityKey catalog order tableId
  | schemaObject schemaId => schemaObjectKey catalog schemaId order
  | viewObject viewId => viewObjectKey catalog viewId order
  | macroObject macroId => macroObjectKey catalog macroId order
  | schemaVersionHistory => schemaVersionHistoryKey catalog order

/-- The offset that is staged with the key. The staging code has the key at hand with a
placeholder for its order, and reads the offset of an inline insertion off that key. -/
def orderOffset (catalog : UInt64) (placeholder : CatalogOrderId) : VersionstampedKey → CatalogResult Nat
  | snapshot => .ok (snapshotKeyOrderOffset catalog)
  | snapshotTimestamp createdAtMicros => .ok (snapshotTimestampKeyOrderOffset catalog createdAtMicros)
  | dataFileBegin tableId _ => .ok (dataFileBeginKeyOrderOffset catalog tableId)
  | dataFileEnd tableId dataFileId => .ok (dataFileEndKeyOrderOffset catalog tableId dataFileId)
  | deleteFileEnd tableId _ => .ok (deleteFileEndKeyOrderOffset catalog tableId)
  | tableDataFileChange tableId _ _ => .ok (tableDataFileChangeKeyOrderOffset catalog tableId)
  | snapshotDataFileChange _ _ _ => .ok (snapshotDataFileChangeKeyOrderOffset catalog)
  | deleteFileTimeline dataFileId _ => .ok (deleteFileTimelineKeyOrderOffset catalog dataFileId)
  | tableDeleteFileChange tableId _ => .ok (tableDeleteFileChangeKeyOrderOffset catalog tableId)
  | orderDeleteFileChange _ _ => .ok (orderDeleteFileChangeKeyOrderOffset catalog)
  | inlineTableChunk tableId schemaId _ => .ok (inlineTableChunkKeyOrderOffset catalog tableId schemaId)
  | tableInlineRowChange tableId .inserted schemaId rowId =>
    inlineChangeOrderOffset catalog tableId
      (tableInlineRowChangeKey catalog tableId placeholder .inserted schemaId rowId)
  | tableInlineRowChange tableId .deleted _ _ => .ok (tableInlineRowChangePrefix catalog tableId).length
  | inlineTableChange .inserted tableId =>
    inlineChangeOrderOffset catalog tableId (inlineTableChangeKey catalog placeholder .inserted tableId)
  | inlineTableChange .deleted _ => .ok (inlineTableChangePrefix catalog).length
  | tableSchemaKindInlineRowChange tableId schemaId kind _ =>
    .ok (tableSchemaKindInlineRowChangePrefix catalog tableId schemaId kind).length
  | inlineFlushWatermark _ _ _ => .ok (inlineFlushWatermarkOrderOffset catalog)
  | inlineFileDeletion tableId dataFileId _ => .ok (inlineFileDeletionKeyOrderOffset catalog tableId dataFileId)
  | snapshotOperation _ _ => .ok (snapshotOperationOrderOffset catalog)
  | tableObject tableId => .ok (tableObjectKeyOrderOffset catalog tableId)
  | tableVisibility _ => .ok (tableVisibilityKeyOrderOffset catalog)
  | schemaObject schemaId => .ok (schemaObjectKeyOrderOffset catalog schemaId)
  | viewObject viewId => .ok (viewObjectKeyOrderOffset catalog viewId)
  | macroObject macroId => .ok (macroObjectKeyOrderOffset catalog macroId)
  | schemaVersionHistory => .ok (schemaVersionHistoryKeyOrderOffset catalog)

/-- What stands before the order. -/
def front (catalog : UInt64) : VersionstampedKey → Bytes
  | snapshot => familyPrefix catalog .snapshot
  | snapshotTimestamp createdAtMicros =>
    familyPrefix catalog .snapshotByTimestamp ++ sortableI64 createdAtMicros ++ [sep]
  | dataFileBegin tableId _ => dataFileBeginPrefix catalog tableId
  | dataFileEnd tableId _ => familyPrefix catalog .endOrder ++ u64Bytes tableId ++ [sep]
  | deleteFileEnd tableId _ => familyPrefix catalog .endOrder ++ u64Bytes tableId ++ [sep]
  | tableDataFileChange tableId _ _ => tableDataFileChangePrefix catalog tableId
  | snapshotDataFileChange _ _ _ => snapshotDataFileChangePrefix catalog
  | deleteFileTimeline dataFileId _ => deleteFileTimelinePrefix catalog dataFileId
  | tableDeleteFileChange tableId _ => tableDeleteFileChangePrefix catalog tableId
  | orderDeleteFileChange _ _ => orderDeleteFileChangePrefix catalog
  | inlineTableChunk tableId schemaId _ => inlineTablePrefix catalog tableId schemaId
  | tableInlineRowChange tableId _ _ _ => tableInlineRowChangePrefix catalog tableId
  | inlineTableChange _ _ => inlineTableChangePrefix catalog
  | tableSchemaKindInlineRowChange tableId schemaId kind _ =>
    tableSchemaKindInlineRowChangePrefix catalog tableId schemaId kind
  | inlineFlushWatermark tableId _ _ => familyPrefix catalog .inlineFlushWatermark ++ u64Bytes tableId ++ [sep]
  | inlineFileDeletion tableId dataFileId _ => inlineFileDeletionFilePrefix catalog tableId dataFileId
  | snapshotOperation _ _ => snapshotOperationPrefix catalog
  | tableObject tableId => tableObjectPrefix catalog tableId
  | tableVisibility _ => tableVisibilityPrefix catalog
  | schemaObject schemaId => schemaObjectPrefix catalog schemaId
  | viewObject viewId => viewObjectPrefix catalog viewId
  | macroObject macroId => macroObjectPrefix catalog macroId
  | schemaVersionHistory => schemaVersionHistoryPrefix catalog

/-- What stands behind the order. -/
def back : VersionstampedKey → Bytes
  | snapshot | snapshotTimestamp _ | tableObject _ | schemaObject _ | viewObject _ | macroObject _
  | schemaVersionHistory => []
  | dataFileBegin _ fileId | dataFileEnd _ fileId | deleteFileTimeline _ fileId | tableDeleteFileChange _ fileId =>
    [sep] ++ u64Bytes fileId
  | deleteFileEnd _ deleteFileId => [sep, asciiByte 'x', sep] ++ u64Bytes deleteFileId
  | tableDataFileChange _ kind dataFileId => [sep, dataFileChangeCode kind, sep] ++ u64Bytes dataFileId
  | snapshotDataFileChange tableId kind dataFileId =>
    [sep] ++ u64Bytes tableId ++ [sep, dataFileChangeCode kind, sep] ++ u64Bytes dataFileId
  | orderDeleteFileChange tableId deleteFileId => [sep] ++ u64Bytes tableId ++ [sep] ++ u64Bytes deleteFileId
  | inlineTableChunk _ _ chunkIndex => [sep] ++ u32Bytes chunkIndex
  | tableInlineRowChange _ kind schemaId rowId =>
    [sep, inlineRowChangeCode kind, sep] ++ u64Bytes schemaId ++ [sep] ++ u64Bytes rowId
  | inlineTableChange kind tableId => [sep, inlineRowChangeCode kind, sep] ++ u64Bytes tableId
  | tableSchemaKindInlineRowChange _ _ _ rowId => [sep] ++ u64Bytes rowId
  | inlineFlushWatermark _ schemaId maxBeginOrder =>
    [sep] ++ u64Bytes schemaId ++ [sep] ++ maxBeginOrder.asBytes
  | inlineFileDeletion _ _ rowId => [sep] ++ u64Bytes rowId
  | snapshotOperation kind tableId => [sep, snapshotOperationCode kind, sep] ++ u64Bytes tableId
  | tableVisibility tableId => [sep] ++ u64Bytes tableId

theorem bytes_eq (catalog : UInt64) (order : CatalogOrderId) (key : VersionstampedKey) :
    key.bytes catalog order = key.front catalog ++ order.asBytes ++ key.back := by
  cases key <;>
    simp [bytes, front, back, snapshotKey, snapshotTimestampKey, dataFileBeginKey, dataFileBeginPrefix, dataFileEndKey,
      deleteFileEndKey, tableDataFileChangeKey, snapshotDataFileChangeKey, deleteFileTimelineKey,
      tableDeleteFileChangeKey, orderDeleteFileChangeKey, inlineTableChunkKey, inlineTablePayloadPrefix,
      tableInlineRowChangeKey, inlineTableChangeKey, tableSchemaKindInlineRowChangeKey,
      InlineFlushWatermarkKey.encode, inlineFileDeletionKey, snapshotOperationKey, tableObjectKey, tableVisibilityKey,
      schemaObjectKey, viewObjectKey, macroObjectKey, schemaVersionHistoryKey]

theorem inlineChangeOrderOffset_row (catalog tableId schemaId rowId : UInt64) (order : CatalogOrderId)
    (kind : InlineRowChangeKind) :
    inlineChangeOrderOffset catalog tableId (tableInlineRowChangeKey catalog tableId order kind schemaId rowId) =
      .ok (tableInlineRowChangePrefix catalog tableId).length := by
  have starts : tableInlineRowChangePrefix catalog tableId <+:
      tableInlineRowChangeKey catalog tableId order kind schemaId rowId := by
    simp only [tableInlineRowChangeKey, List.append_assoc]
    exact List.prefix_append _ _
  rw [inlineChangeOrderOffset, if_pos starts]

/-- The families differ in the byte after the catalog, so a table change is not taken for a row change. -/
theorem inlineChangeOrderOffset_table (catalog tableId changedTable : UInt64) (order : CatalogOrderId)
    (kind : InlineRowChangeKind) :
    inlineChangeOrderOffset catalog tableId (inlineTableChangeKey catalog order kind changedTable) =
      .ok (inlineTableChangePrefix catalog).length := by
  have otherFamily : ¬ tableInlineRowChangePrefix catalog tableId <+:
      inlineTableChangeKey catalog order kind changedTable := by
    intro starts
    simp only [tableInlineRowChangePrefix, inlineTableChangeKey, inlineTableChangePrefix, familyPrefix,
      List.append_assoc, List.cons_append, List.prefix_append_right_inj, List.cons_prefix_cons] at starts
    exact absurd starts.1 (by decide)
  have starts : inlineTableChangePrefix catalog <+: inlineTableChangeKey catalog order kind changedTable := by
    simp only [inlineTableChangeKey, List.append_assoc]
    exact List.prefix_append _ _
  rw [inlineChangeOrderOffset, if_neg otherFamily, if_pos starts]

/-- The end key of a delete file, the one whose offset is counted from a shorter tail. -/
def IsDeleteFileEnd : VersionstampedKey → Prop
  | deleteFileEnd _ _ => True
  | _ => False

instance : DecidablePred IsDeleteFileEnd := by
  intro key
  cases key <;> simp only [IsDeleteFileEnd] <;> infer_instance

theorem orderOffset_exact (catalog : UInt64) (placeholder : CatalogOrderId) {key : VersionstampedKey}
    (other : ¬ key.IsDeleteFileEnd) : key.orderOffset catalog placeholder = .ok (key.front catalog).length := by
  cases key with
  | deleteFileEnd => exact absurd trivial other
  | tableInlineRowChange tableId kind schemaId rowId =>
    cases kind with
    | inserted => exact inlineChangeOrderOffset_row ..
    | deleted => rfl
  | inlineTableChange kind tableId =>
    cases kind with
    | inserted => exact inlineChangeOrderOffset_table ..
    | deleted => rfl
  | _ =>
    simp [orderOffset, front, snapshotKeyOrderOffset, snapshotTimestampKeyOrderOffset, snapshotKey,
      snapshotTimestampKey, dataFileBeginKeyOrderOffset, dataFileEndKeyOrderOffset, dataFileEndKey,
      tableDataFileChangeKeyOrderOffset, snapshotDataFileChangeKeyOrderOffset, deleteFileTimelineKeyOrderOffset,
      tableDeleteFileChangeKeyOrderOffset, orderDeleteFileChangeKeyOrderOffset, inlineTableChunkKeyOrderOffset,
      inlineTablePayloadPrefix, inlineFlushWatermarkOrderOffset, inlineFileDeletionKeyOrderOffset,
      snapshotOperationOrderOffset, tableObjectKeyOrderOffset, tableVisibilityKeyOrderOffset,
      schemaObjectKeyOrderOffset, viewObjectKeyOrderOffset, macroObjectKeyOrderOffset,
      schemaVersionHistoryKeyOrderOffset, CatalogOrderId.LEN]

theorem orderOffset_deleteFileEnd (catalog tableId deleteFileId : UInt64) (placeholder : CatalogOrderId) :
    (deleteFileEnd tableId deleteFileId).orderOffset catalog placeholder =
      .ok (((deleteFileEnd tableId deleteFileId).front catalog).length + 2) := by
  simp [orderOffset, front, deleteFileEndKeyOrderOffset, deleteFileEndKey, CatalogOrderId.LEN]

theorem overwrite_exact (catalog : UInt64) {key : VersionstampedKey} (other : ¬ key.IsDeleteFileEnd)
    (placeholder order : CatalogOrderId) :
    (key.orderOffset catalog placeholder).map (fun offset =>
      overwrite offset order.asBytes (key.bytes catalog placeholder)) = .ok (key.bytes catalog order) := by
  rw [orderOffset_exact catalog placeholder other]
  change Except.ok (overwrite _ _ _) = _
  rw [bytes_eq, bytes_eq, overwrite_middle (by simp)]

/-- Two bytes too far: the first two bytes of the placeholder stay and the order of the
commit runs two bytes into the tail. -/
theorem overwrite_deleteFileEnd (catalog tableId deleteFileId : UInt64) (placeholder order : CatalogOrderId) :
    overwrite (((deleteFileEnd tableId deleteFileId).front catalog).length + 2) order.asBytes
        ((deleteFileEnd tableId deleteFileId).bytes catalog placeholder) =
      (deleteFileEnd tableId deleteFileId).front catalog ++ (placeholder.asBytes.take 2 ++ order.asBytes) ++
        (sep :: u64Bytes deleteFileId) := by
  have stretch : (deleteFileEnd tableId deleteFileId).bytes catalog placeholder =
      ((deleteFileEnd tableId deleteFileId).front catalog ++ placeholder.asBytes.take 2) ++
        (placeholder.asBytes.drop 2 ++ [sep, asciiByte 'x']) ++ (sep :: u64Bytes deleteFileId) := by
    rw [bytes_eq]
    simp only [back, List.append_assoc, List.cons_append, List.nil_append]
    rw [← List.append_assoc (placeholder.asBytes.take 2), List.take_append_drop]
  have offset : ((deleteFileEnd tableId deleteFileId).front catalog).length + 2 =
      ((deleteFileEnd tableId deleteFileId).front catalog ++ placeholder.asBytes.take 2).length := by simp
  rw [stretch, offset, overwrite_middle (by simp), List.append_assoc _ _ order.asBytes]

end VersionstampedKey

/-- Where the stamp makes the key of the committed order: everywhere but at the end of a
delete file, and there only for the one order that repeats the bytes between order and id. -/
theorem VersionstampedKey.overwrite_order_iff (catalog : UInt64) (key : VersionstampedKey)
    (placeholder order : CatalogOrderId) :
    (key.orderOffset catalog placeholder).map (fun offset =>
        overwrite offset order.asBytes (key.bytes catalog placeholder)) = .ok (key.bytes catalog order) ↔
      (key.IsDeleteFileEnd → placeholder.asBytes.take 2 = [sep, asciiByte 'x'] ∧
        order.asBytes = (List.replicate 8 [sep, asciiByte 'x']).flatten) := by
  by_cases ends : key.IsDeleteFileEnd
  · cases key with
    | deleteFileEnd tableId deleteFileId =>
      rw [orderOffset_deleteFileEnd]
      change Except.ok (overwrite _ _ _) = _ ↔ _
      rw [overwrite_deleteFileEnd, bytes_eq]
      have tails : (deleteFileEnd tableId deleteFileId).front catalog ++ order.asBytes ++
          (deleteFileEnd tableId deleteFileId).back =
            (deleteFileEnd tableId deleteFileId).front catalog ++ (order.asBytes ++ [sep, asciiByte 'x']) ++
              (sep :: u64Bytes deleteFileId) := by simp [back]
      have shift := @append_shift_iff _ (placeholder.asBytes.take 2) [sep, asciiByte 'x'] (by simp) 8 order.asBytes
        (by simp)
      rw [tails, Except.ok.injEq, List.append_cancel_right_eq, List.append_cancel_left_eq, shift]
      constructor
      · intro both _
        exact ⟨both.1, both.1 ▸ both.2⟩
      · intro both
        obtain ⟨same, repeats⟩ := both trivial
        exact ⟨same, same ▸ repeats⟩
    | _ => exact absurd ends id
  · constructor
    · intro _ claimed
      exact absurd claimed ends
    · intro _
      exact overwrite_exact catalog ends placeholder order

/-- The end key of delete file 7 of table 1, staged with zero bytes and stamped with sixteen ones. -/
theorem overwrite_deleteFileEnd_misplaced :
    ((VersionstampedKey.deleteFileEnd 1 7).orderOffset 0 incompleteOrder).map (fun offset =>
        overwrite offset (CatalogOrderId.mk .fdbVersionstamp (Vector.replicate 16 1)).asBytes
          ((VersionstampedKey.deleteFileEnd 1 7).bytes 0 incompleteOrder)) ≠
      .ok ((VersionstampedKey.deleteFileEnd 1 7).bytes 0 ⟨.fdbVersionstamp, Vector.replicate 16 1⟩) := by
  decide

end DucklakeCatalog.Wire
