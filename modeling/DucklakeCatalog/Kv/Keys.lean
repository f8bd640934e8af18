import DucklakeCatalog.Kv.Rows
import Mathlib.Data.Prod.Lex
import Mathlib.Data.String.Basic

namespace DucklakeCatalog

/-! Keys are compared component by component, as their big-endian bytes are. -/

def DataFileChangeKind.code : DataFileChangeKind → Nat
  | .added => 'a'.toNat
  | .removed => 'r'.toNat

theorem DataFileChangeKind.code_injective : Function.Injective DataFileChangeKind.code := by
  intro left right same
  cases left <;> cases right <;> first | rfl | exact absurd same (by decide)

def InlineRowChangeKind.code : InlineRowChangeKind → Nat
  | .inserted => 'i'.toNat
  | .deleted => 'd'.toNat

theorem InlineRowChangeKind.code_injective : Function.Injective InlineRowChangeKind.code := by
  intro left right same
  cases left <;> cases right <;> first | rfl | exact absurd same (by decide)

def SnapshotOperationKind.code : SnapshotOperationKind → Nat
  | .inlineFlush => 'F'.toNat
  | .rewriteDelete => 'R'.toNat

theorem SnapshotOperationKind.code_injective : Function.Injective SnapshotOperationKind.code := by
  intro left right same
  cases left <;> cases right <;> first | rfl | exact absurd same (by decide)

structure TableFileKey where
  tableId : TableId
  dataFileId : DataFileId
  deriving DecidableEq, Repr

def TableFileKey.components (key : TableFileKey) : Nat ×ₗ Nat :=
  toLex (key.tableId, key.dataFileId)

theorem TableFileKey.components_injective : Function.Injective TableFileKey.components := by
  intro left right same
  cases left
  cases right
  simp_all [components]

instance : LinearOrder TableFileKey := LinearOrder.lift' TableFileKey.components TableFileKey.components_injective

/-- Files of one table are filed by id. -/
theorem TableFileKey.dataFileId_lt {left right : TableFileKey} (sameTable : left.tableId = right.tableId)
    (below : left < right) : left.dataFileId < right.dataFileId := by
  rcases Prod.Lex.toLex_lt_toLex.mp below with table | ⟨_, file⟩
  · exact absurd sameTable (ne_of_lt table)
  · exact file

/-- Index entries of one table, oldest order first. -/
structure TableOrderKey where
  tableId : TableId
  order : CatalogOrderId
  fileId : Nat
  deriving DecidableEq, Repr

def TableOrderKey.components (key : TableOrderKey) : Nat ×ₗ Nat ×ₗ Nat :=
  toLex (key.tableId, toLex (key.order, key.fileId))

theorem TableOrderKey.components_injective : Function.Injective TableOrderKey.components := by
  intro left right same
  cases left
  cases right
  simp_all [components]

instance : LinearOrder TableOrderKey := LinearOrder.lift' TableOrderKey.components TableOrderKey.components_injective

/-- Change entries of every table, oldest order first. -/
structure OrderTableKey where
  order : CatalogOrderId
  tableId : TableId
  fileId : Nat
  deriving DecidableEq, Repr

def OrderTableKey.components (key : OrderTableKey) : Nat ×ₗ Nat ×ₗ Nat :=
  toLex (key.order, toLex (key.tableId, key.fileId))

theorem OrderTableKey.components_injective : Function.Injective OrderTableKey.components := by
  intro left right same
  cases left
  cases right
  simp_all [components]

instance : LinearOrder OrderTableKey := LinearOrder.lift' OrderTableKey.components OrderTableKey.components_injective

/-- The delete files of one data file, oldest registration first. -/
structure DeleteFileTimelineKey where
  dataFileId : DataFileId
  order : CatalogOrderId
  deleteFileId : DeleteFileId
  deriving DecidableEq, Repr

def DeleteFileTimelineKey.components (key : DeleteFileTimelineKey) : Nat ×ₗ Nat ×ₗ Nat :=
  toLex (key.dataFileId, toLex (key.order, key.deleteFileId))

theorem DeleteFileTimelineKey.components_injective : Function.Injective DeleteFileTimelineKey.components := by
  intro left right same
  cases left
  cases right
  simp_all [components]

instance : LinearOrder DeleteFileTimelineKey := LinearOrder.lift' DeleteFileTimelineKey.components DeleteFileTimelineKey.components_injective

/-- Entries of one data file are filed by order. -/
theorem DeleteFileTimelineKey.lt_of_order_lt {left right : DeleteFileTimelineKey}
    (sameFile : left.dataFileId = right.dataFileId) (earlier : left.order < right.order) : left < right := by
  refine Prod.Lex.toLex_lt_toLex.mpr (Or.inr ⟨sameFile, ?_⟩)
  exact Prod.Lex.toLex_lt_toLex.mpr (Or.inl earlier)

structure TableDataFileChangeKey where
  tableId : TableId
  order : CatalogOrderId
  kind : DataFileChangeKind
  dataFileId : DataFileId
  deriving DecidableEq, Repr

def TableDataFileChangeKey.components (key : TableDataFileChangeKey) : Nat ×ₗ Nat ×ₗ Nat ×ₗ Nat :=
  toLex (key.tableId, toLex (key.order, toLex (key.kind.code, key.dataFileId)))

theorem TableDataFileChangeKey.components_injective : Function.Injective TableDataFileChangeKey.components := by
  intro left right same
  cases left
  cases right
  simp_all [components, DataFileChangeKind.code_injective.eq_iff]

instance : LinearOrder TableDataFileChangeKey := LinearOrder.lift' TableDataFileChangeKey.components TableDataFileChangeKey.components_injective

structure SnapshotDataFileChangeKey where
  order : CatalogOrderId
  tableId : TableId
  kind : DataFileChangeKind
  dataFileId : DataFileId
  deriving DecidableEq, Repr

def SnapshotDataFileChangeKey.components (key : SnapshotDataFileChangeKey) : Nat ×ₗ Nat ×ₗ Nat ×ₗ Nat :=
  toLex (key.order, toLex (key.tableId, toLex (key.kind.code, key.dataFileId)))

theorem SnapshotDataFileChangeKey.components_injective : Function.Injective SnapshotDataFileChangeKey.components := by
  intro left right same
  cases left
  cases right
  simp_all [components, DataFileChangeKind.code_injective.eq_iff]

instance : LinearOrder SnapshotDataFileChangeKey := LinearOrder.lift' SnapshotDataFileChangeKey.components SnapshotDataFileChangeKey.components_injective

structure SnapshotTimestampKey where
  createdAtMicros : Int
  order : CatalogOrderId
  deriving DecidableEq, Repr

def SnapshotTimestampKey.components (key : SnapshotTimestampKey) : Int ×ₗ Nat :=
  toLex (key.createdAtMicros, key.order)

theorem SnapshotTimestampKey.components_injective : Function.Injective SnapshotTimestampKey.components := by
  intro left right same
  cases left
  cases right
  simp_all [components]

instance : LinearOrder SnapshotTimestampKey := LinearOrder.lift' SnapshotTimestampKey.components SnapshotTimestampKey.components_injective

structure SnapshotOperationKey where
  order : CatalogOrderId
  kind : SnapshotOperationKind
  tableId : TableId
  deriving DecidableEq, Repr

def SnapshotOperationKey.components (key : SnapshotOperationKey) : Nat ×ₗ Nat ×ₗ Nat :=
  toLex (key.order, toLex (key.kind.code, key.tableId))

theorem SnapshotOperationKey.components_injective : Function.Injective SnapshotOperationKey.components := by
  intro left right same
  cases left
  cases right
  simp_all [components, SnapshotOperationKind.code_injective.eq_iff]

instance : LinearOrder SnapshotOperationKey := LinearOrder.lift' SnapshotOperationKey.components SnapshotOperationKey.components_injective

structure FilePartitionValueKey where
  dataFileId : DataFileId
  partitionKeyIndex : PartitionKeyIndex
  deriving DecidableEq, Repr

def FilePartitionValueKey.components (key : FilePartitionValueKey) : Nat ×ₗ Nat :=
  toLex (key.dataFileId, key.partitionKeyIndex)

theorem FilePartitionValueKey.components_injective : Function.Injective FilePartitionValueKey.components := by
  intro left right same
  cases left
  cases right
  simp_all [components]

instance : LinearOrder FilePartitionValueKey := LinearOrder.lift' FilePartitionValueKey.components FilePartitionValueKey.components_injective

/-- The value is stored after its byte length, so shorter values come first. -/
structure PartitionValueLookupKey where
  tableId : TableId
  partitionKeyIndex : PartitionKeyIndex
  partitionValue : String
  dataFileId : DataFileId
  deriving DecidableEq, Repr

def PartitionValueLookupKey.components (key : PartitionValueLookupKey) : Nat ×ₗ Nat ×ₗ Nat ×ₗ String ×ₗ Nat :=
  toLex (key.tableId, toLex (key.partitionKeyIndex, toLex (key.partitionValue.utf8ByteSize, toLex (key.partitionValue, key.dataFileId))))

theorem PartitionValueLookupKey.components_injective : Function.Injective PartitionValueLookupKey.components := by
  intro left right same
  cases left
  cases right
  simp_all [components]

instance : LinearOrder PartitionValueLookupKey := LinearOrder.lift' PartitionValueLookupKey.components PartitionValueLookupKey.components_injective

/-- Files of one partition value are filed by id. -/
theorem PartitionValueLookupKey.dataFileId_lt {left right : PartitionValueLookupKey}
    (sameTable : left.tableId = right.tableId) (sameKey : left.partitionKeyIndex = right.partitionKeyIndex)
    (sameValue : left.partitionValue = right.partitionValue) (below : left < right) :
    left.dataFileId < right.dataFileId := by
  rcases Prod.Lex.toLex_lt_toLex.mp below with table | ⟨_, below⟩
  · exact absurd sameTable (ne_of_lt table)
  rcases Prod.Lex.toLex_lt_toLex.mp below with key | ⟨_, below⟩
  · exact absurd sameKey (ne_of_lt key)
  rcases Prod.Lex.toLex_lt_toLex.mp below with size | ⟨_, below⟩
  · exact absurd (congrArg String.utf8ByteSize sameValue) (ne_of_lt size)
  rcases Prod.Lex.toLex_lt_toLex.mp below with value | ⟨_, file⟩
  · exact absurd sameValue (ne_of_lt value)
  · exact file

structure FileColumnStatsKey where
  dataFileId : DataFileId
  columnId : ColumnId
  deriving DecidableEq, Repr

def FileColumnStatsKey.components (key : FileColumnStatsKey) : Nat ×ₗ Nat :=
  toLex (key.dataFileId, key.columnId)

theorem FileColumnStatsKey.components_injective : Function.Injective FileColumnStatsKey.components := by
  intro left right same
  cases left
  cases right
  simp_all [components]

instance : LinearOrder FileColumnStatsKey := LinearOrder.lift' FileColumnStatsKey.components FileColumnStatsKey.components_injective

structure FileColumnStatsLookupKey where
  tableId : TableId
  columnId : ColumnId
  dataFileId : DataFileId
  deriving DecidableEq, Repr

def FileColumnStatsLookupKey.components (key : FileColumnStatsLookupKey) : Nat ×ₗ Nat ×ₗ Nat :=
  toLex (key.tableId, toLex (key.columnId, key.dataFileId))

theorem FileColumnStatsLookupKey.components_injective : Function.Injective FileColumnStatsLookupKey.components := by
  intro left right same
  cases left
  cases right
  simp_all [components]

instance : LinearOrder FileColumnStatsLookupKey := LinearOrder.lift' FileColumnStatsLookupKey.components FileColumnStatsLookupKey.components_injective

structure InlineFileDeletionKey where
  tableId : TableId
  dataFileId : DataFileId
  beginOrder : CatalogOrderId
  rowId : Nat
  deriving DecidableEq, Repr

def InlineFileDeletionKey.components (key : InlineFileDeletionKey) : Nat ×ₗ Nat ×ₗ Nat ×ₗ Nat :=
  toLex (key.tableId, toLex (key.dataFileId, toLex (key.beginOrder, key.rowId)))

theorem InlineFileDeletionKey.components_injective : Function.Injective InlineFileDeletionKey.components := by
  intro left right same
  cases left
  cases right
  simp_all [components]

instance : LinearOrder InlineFileDeletionKey := LinearOrder.lift' InlineFileDeletionKey.components InlineFileDeletionKey.components_injective

structure InlineTableChunkKey where
  tableId : TableId
  schemaId : SchemaId
  beginOrder : CatalogOrderId
  chunkIndex : Nat
  deriving DecidableEq, Repr

def InlineTableChunkKey.components (key : InlineTableChunkKey) : Nat ×ₗ Nat ×ₗ Nat ×ₗ Nat :=
  toLex (key.tableId, toLex (key.schemaId, toLex (key.beginOrder, key.chunkIndex)))

theorem InlineTableChunkKey.components_injective : Function.Injective InlineTableChunkKey.components := by
  intro left right same
  cases left
  cases right
  simp_all [components]

instance : LinearOrder InlineTableChunkKey := LinearOrder.lift' InlineTableChunkKey.components InlineTableChunkKey.components_injective

theorem InlineTableChunkKey.lt_of_chunkIndex_lt {tableId : TableId} {schemaId : SchemaId} {beginOrder : CatalogOrderId}
    {left right : Nat} (below : left < right) :
    (⟨tableId, schemaId, beginOrder, left⟩ : InlineTableChunkKey) < ⟨tableId, schemaId, beginOrder, right⟩ := by
  refine Prod.Lex.toLex_lt_toLex.mpr (Or.inr ⟨rfl, ?_⟩)
  refine Prod.Lex.toLex_lt_toLex.mpr (Or.inr ⟨rfl, ?_⟩)
  exact Prod.Lex.toLex_lt_toLex.mpr (Or.inr ⟨rfl, below⟩)

/-- Visibility boundary of one inline table and schema. -/
structure InlineFlushWatermarkKey where
  tableId : TableId
  endOrder : CatalogOrderId
  schemaId : SchemaId
  maxBeginOrder : CatalogOrderId
  deriving DecidableEq, Repr

def InlineFlushWatermarkKey.components (key : InlineFlushWatermarkKey) : Nat ×ₗ Nat ×ₗ Nat ×ₗ Nat :=
  toLex (key.tableId, toLex (key.endOrder, toLex (key.schemaId, key.maxBeginOrder)))

theorem InlineFlushWatermarkKey.components_injective : Function.Injective InlineFlushWatermarkKey.components := by
  intro left right same
  cases left
  cases right
  simp_all [components]

instance : LinearOrder InlineFlushWatermarkKey := LinearOrder.lift' InlineFlushWatermarkKey.components InlineFlushWatermarkKey.components_injective

structure InlineTableEndKey where
  tableId : TableId
  endOrder : CatalogOrderId
  schemaId : SchemaId
  beginOrder : CatalogOrderId
  deriving DecidableEq, Repr

def InlineTableEndKey.components (key : InlineTableEndKey) : Nat ×ₗ Nat ×ₗ Nat ×ₗ Nat :=
  toLex (key.tableId, toLex (key.endOrder, toLex (key.schemaId, key.beginOrder)))

theorem InlineTableEndKey.components_injective : Function.Injective InlineTableEndKey.components := by
  intro left right same
  cases left
  cases right
  simp_all [components]

instance : LinearOrder InlineTableEndKey := LinearOrder.lift' InlineTableEndKey.components InlineTableEndKey.components_injective

structure TableInlineRowChangeKey where
  tableId : TableId
  order : CatalogOrderId
  kind : InlineRowChangeKind
  schemaId : SchemaId
  rowId : Nat
  deriving DecidableEq, Repr

def TableInlineRowChangeKey.components (key : TableInlineRowChangeKey) : Nat ×ₗ Nat ×ₗ Nat ×ₗ Nat ×ₗ Nat :=
  toLex (key.tableId, toLex (key.order, toLex (key.kind.code, toLex (key.schemaId, key.rowId))))

theorem TableInlineRowChangeKey.components_injective : Function.Injective TableInlineRowChangeKey.components := by
  intro left right same
  cases left
  cases right
  simp_all [components, InlineRowChangeKind.code_injective.eq_iff]

instance : LinearOrder TableInlineRowChangeKey := LinearOrder.lift' TableInlineRowChangeKey.components TableInlineRowChangeKey.components_injective

structure SchemaKindInlineRowChangeKey where
  tableId : TableId
  schemaId : SchemaId
  kind : InlineRowChangeKind
  order : CatalogOrderId
  rowId : Nat
  deriving DecidableEq, Repr

def SchemaKindInlineRowChangeKey.components (key : SchemaKindInlineRowChangeKey) : Nat ×ₗ Nat ×ₗ Nat ×ₗ Nat ×ₗ Nat :=
  toLex (key.tableId, toLex (key.schemaId, toLex (key.kind.code, toLex (key.order, key.rowId))))

theorem SchemaKindInlineRowChangeKey.components_injective : Function.Injective SchemaKindInlineRowChangeKey.components := by
  intro left right same
  cases left
  cases right
  simp_all [components, InlineRowChangeKind.code_injective.eq_iff]

instance : LinearOrder SchemaKindInlineRowChangeKey := LinearOrder.lift' SchemaKindInlineRowChangeKey.components SchemaKindInlineRowChangeKey.components_injective

structure InlineTableChangeKey where
  order : CatalogOrderId
  kind : InlineRowChangeKind
  tableId : TableId
  deriving DecidableEq, Repr

def InlineTableChangeKey.components (key : InlineTableChangeKey) : Nat ×ₗ Nat ×ₗ Nat :=
  toLex (key.order, toLex (key.kind.code, key.tableId))

theorem InlineTableChangeKey.components_injective : Function.Injective InlineTableChangeKey.components := by
  intro left right same
  cases left
  cases right
  simp_all [components, InlineRowChangeKind.code_injective.eq_iff]

instance : LinearOrder InlineTableChangeKey := LinearOrder.lift' InlineTableChangeKey.components InlineTableChangeKey.components_injective

structure TableObjectKey where
  tableId : TableId
  order : CatalogOrderId
  deriving DecidableEq, Repr

def TableObjectKey.components (key : TableObjectKey) : Nat ×ₗ Nat :=
  toLex (key.tableId, key.order)

theorem TableObjectKey.components_injective : Function.Injective TableObjectKey.components := by
  intro left right same
  cases left
  cases right
  simp_all [components]

instance : LinearOrder TableObjectKey := LinearOrder.lift' TableObjectKey.components TableObjectKey.components_injective

/-- Versions of one table are filed by order. -/
theorem TableObjectKey.order_lt {tableId : TableId} {left right : CatalogOrderId}
    (below : (⟨tableId, left⟩ : TableObjectKey) < ⟨tableId, right⟩) : left < right := by
  rcases Prod.Lex.toLex_lt_toLex.mp below with table | ⟨_, below⟩
  · exact absurd table (lt_irrefl _)
  · exact below

structure TableVisibilityKey where
  beginOrder : CatalogOrderId
  tableId : TableId
  deriving DecidableEq, Repr

def TableVisibilityKey.components (key : TableVisibilityKey) : Nat ×ₗ Nat :=
  toLex (key.beginOrder, key.tableId)

theorem TableVisibilityKey.components_injective : Function.Injective TableVisibilityKey.components := by
  intro left right same
  cases left
  cases right
  simp_all [components]

instance : LinearOrder TableVisibilityKey := LinearOrder.lift' TableVisibilityKey.components TableVisibilityKey.components_injective

end DucklakeCatalog
