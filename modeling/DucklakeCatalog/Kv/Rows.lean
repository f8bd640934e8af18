import Mathlib.Algebra.Group.Nat.Defs
import Mathlib.Data.Nat.Basic

namespace DucklakeCatalog

/-- Commit orders of the ordered store, compared by their sixteen bytes. -/
abbrev CatalogOrderId := Nat
abbrev RawSnapshotSequence := Nat
abbrev TableId := Nat
abbrev SchemaId := Nat
abbrev ColumnId := Nat
abbrev DataFileId := Nat
abbrev DeleteFileId := Nat
abbrev PartitionKeyIndex := Nat

/-- Callers pass the zero order to ask for the order of the commit itself. -/
def autoOrder : CatalogOrderId := 0

def u64Max : Nat := 2 ^ 64 - 1

/-- `u64::saturating_add`. -/
def saturatingAdd (left right : Nat) : Nat := min (left + right) u64Max

inductive CatalogError where
  | decode (message : String)
  | invalidMutation (message : String)
  | invalidKey (message : String)
  | notFound (what : String)
  deriving DecidableEq, Repr

abbrev CatalogResult := Except CatalogError

structure SnapshotRow where
  order : CatalogOrderId
  sequence : RawSnapshotSequence
  createdAtMicros : Int
  createdBy : String := "aux-ducklake"
  commitMessage : Option String := none
  commitExtraInfo : Option String := none
  deriving DecidableEq, Repr

structure ValidityWindow where
  beginOrder : CatalogOrderId
  endOrder : Option CatalogOrderId
  deriving DecidableEq, Repr

/-- Half open in the end order: the closing commit no longer sees the row. -/
def ValidityWindow.isVisibleAt (window : ValidityWindow) (snapshotOrder : CatalogOrderId) : Bool :=
  decide (window.beginOrder ≤ snapshotOrder) &&
    window.endOrder.all fun endOrder => decide (snapshotOrder < endOrder)

theorem ValidityWindow.isVisibleAt_iff {window : ValidityWindow} {snapshotOrder : CatalogOrderId} :
    window.isVisibleAt snapshotOrder = true ↔
      window.beginOrder ≤ snapshotOrder ∧ ∀ endOrder, window.endOrder = some endOrder → snapshotOrder < endOrder := by
  cases window with
  | mk beginOrder endOrder => cases endOrder <;> simp [isVisibleAt]

structure DataFileRow where
  dataFileId : DataFileId
  tableId : TableId
  path : String
  recordCount : Nat
  fileSizeBytes : Nat
  footerSize : Option Nat := none
  encryptionKey : String := ""
  rowIdStart : Nat := 0
  rowIdStartKnown : Bool := false
  mappingId : Option Nat := none
  maxPartialOrder : Option CatalogOrderId := none
  validity : ValidityWindow
  deriving DecidableEq, Repr

def DataFileRow.withEndOrder (row : DataFileRow) (endOrder : Option CatalogOrderId) : DataFileRow :=
  { row with validity := { row.validity with endOrder := endOrder } }

def DataFileRow.withBeginOrder (row : DataFileRow) (beginOrder : CatalogOrderId) : DataFileRow :=
  { row with validity := { row.validity with beginOrder := beginOrder } }

/-- One past the last row id, as every range check of the store computes it. -/
def DataFileRow.rowIdEnd (row : DataFileRow) : Nat :=
  saturatingAdd row.rowIdStart row.recordCount

structure DeleteFileRow where
  deleteFileId : DeleteFileId
  dataFileId : DataFileId
  path : String
  recordCount : Nat
  fileSizeBytes : Nat
  encryptionKey : String := ""
  validity : ValidityWindow
  maxPartialOrder : Option CatalogOrderId := none
  deriving DecidableEq, Repr

def DeleteFileRow.withEndOrder (row : DeleteFileRow) (endOrder : Option CatalogOrderId) : DeleteFileRow :=
  { row with validity := { row.validity with endOrder := endOrder } }

def DeleteFileRow.withBeginOrder (row : DeleteFileRow) (beginOrder : CatalogOrderId) : DeleteFileRow :=
  { row with validity := { row.validity with beginOrder := beginOrder } }

structure FilePartitionValueRow where
  dataFileId : DataFileId
  tableId : TableId
  partitionKeyIndex : PartitionKeyIndex
  partitionValue : String
  deriving DecidableEq, Repr

structure FileColumnStatsRow where
  dataFileId : DataFileId
  tableId : TableId
  columnId : ColumnId
  valueCount : Option Nat := none
  nullCount : Nat := 0
  minValue : Option String := none
  maxValue : Option String := none
  extraStats : Option String := none
  deriving DecidableEq, Repr

structure InlineFileDeletionRow where
  tableId : TableId
  dataFileId : DataFileId
  rowId : Nat
  validity : ValidityWindow
  deriving DecidableEq, Repr

def InlineFileDeletionRow.withEndOrder (row : InlineFileDeletionRow) (endOrder : Option CatalogOrderId) :
    InlineFileDeletionRow :=
  { row with validity := { row.validity with endOrder := endOrder } }

structure TableColumnRow where
  columnId : ColumnId
  name : String
  columnType : String
  nullsAllowed : Bool
  parentId : Option ColumnId := none
  comment : Option String := none
  initialDefault : Option String := none
  defaultValue : Option String := none
  defaultValueType : String := ""
  createdWithTable : Bool := false
  deriving DecidableEq, Repr

structure InlinedTableRow where
  tableName : String
  schemaVersion : Nat
  deriving DecidableEq, Repr

structure TablePartitionFieldRow where
  partitionKeyIndex : Nat
  columnId : ColumnId
  transform : String
  deriving DecidableEq, Repr

structure TablePartitionRow where
  partitionId : Nat
  fields : List TablePartitionFieldRow
  deriving DecidableEq, Repr

structure TableSortFieldRow where
  sortKeyIndex : Nat
  expression : String
  dialect : String
  sortDirection : String
  nullOrder : String
  deriving DecidableEq, Repr

structure TableSortRow where
  sortId : Nat
  fields : List TableSortFieldRow
  deriving DecidableEq, Repr

structure TableRow where
  tableId : TableId
  schemaId : SchemaId := 0
  uuid : String := ""
  name : String
  path : String := ""
  comment : Option String := none
  columns : List TableColumnRow := []
  inlinedDataTables : List InlinedTableRow := []
  partition : Option TablePartitionRow := none
  sort : Option TableSortRow := none
  validity : ValidityWindow
  deriving DecidableEq, Repr

def TableRow.withEndOrder (row : TableRow) (endOrder : Option CatalogOrderId) : TableRow :=
  { row with validity := { row.validity with endOrder := endOrder } }

/-- One stored slice of an inline payload. -/
structure InlineTableChunkRow where
  tableId : TableId
  schemaId : SchemaId
  validity : ValidityWindow
  chunkIndex : Nat
  chunkCount : Nat
  payload : List UInt8
  deriving DecidableEq, Repr

inductive DataFileChangeKind where
  | added
  | removed
  deriving DecidableEq, Repr

inductive InlineRowChangeKind where
  | inserted
  | deleted
  deriving DecidableEq, Repr

inductive SnapshotOperationKind where
  | inlineFlush
  | rewriteDelete
  deriving DecidableEq, Repr

inductive ScheduledDataFileCleanupKind where
  | unreachableOnly
  | compactionReplacement
  deriving DecidableEq, Repr

end DucklakeCatalog
