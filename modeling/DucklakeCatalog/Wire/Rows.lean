import DucklakeCatalog.ByteCodec.SelfDelimiting

/-! The catalog rows at the widths of the source, with the bytes that `encode`
writes for them. -/
namespace DucklakeCatalog.Wire

open ByteCodec

def u32Bytes (value : UInt32) : Bytes := beBytes 4 value.toNat

def u64Bytes (value : UInt64) : Bytes := beBytes 8 value.toNat

@[simp]
theorem length_u64Bytes (value : UInt64) : (u64Bytes value).length = 8 := beBytes_length ..

def boolByte (value : Bool) : Bytes := [if value then 1 else 0]

def utf8 (value : String) : Bytes := value.toByteArray.data.toList

/-- `len as u32`, big-endian, then the bytes of the string. -/
def encodeString (value : String) : Bytes := sizedBytes 4 (utf8 value)

/-- The optional strings of table rows: nothing follows the absent marker. -/
def encodeOptionalString (value : Option String) : Bytes := optionBytes [] encodeString value

/-- The optional strings of column statistics: the absent marker keeps a zero length. -/
def encodeOptionalStatsString (value : Option String) : Bytes := optionBytes (beBytes 4 0) encodeString value

def encodeOptionalU64 (value : Option UInt64) : Bytes := optionBytes (beBytes 8 0) u64Bytes value

inductive CatalogOrderKind
  | fdbVersionstamp
  | uuidV7
  deriving DecidableEq

structure CatalogOrderId where
  kind : CatalogOrderKind
  bytes : Vector UInt8 16
  deriving DecidableEq

def CatalogOrderKind.code : CatalogOrderKind → UInt8
  | .fdbVersionstamp => 1
  | .uuidV7 => 2

def CatalogOrderId.zero : CatalogOrderId := ⟨.uuidV7, Vector.replicate 16 0⟩

def encodeStoredOrder (order : CatalogOrderId) : Bytes := order.kind.code :: order.bytes.toList

def encodeOptionalOrder (order : Option CatalogOrderId) : Bytes :=
  optionBytes (encodeStoredOrder CatalogOrderId.zero) encodeStoredOrder order

structure ValidityWindow where
  beginOrder : CatalogOrderId
  endOrder : Option CatalogOrderId
  deriving DecidableEq

def ValidityWindow.encode (validity : ValidityWindow) : Bytes :=
  encodeStoredOrder validity.beginOrder ++ encodeOptionalOrder validity.endOrder

structure DataFileRow where
  dataFileId : UInt64
  tableId : UInt64
  path : String
  recordCount : UInt64
  fileSizeBytes : UInt64
  footerSize : Option UInt64
  encryptionKey : String
  rowIdStart : UInt64
  rowIdStartKnown : Bool
  mappingId : Option UInt64
  maxPartialOrder : Option CatalogOrderId
  validity : ValidityWindow
  deriving DecidableEq

def DataFileRow.encode (row : DataFileRow) : Bytes :=
  8 :: u64Bytes row.dataFileId ++ u64Bytes row.tableId ++ u64Bytes row.recordCount ++
    u64Bytes row.fileSizeBytes ++ u64Bytes row.rowIdStart ++ boolByte row.rowIdStartKnown ++
    encodeOptionalU64 row.mappingId ++ row.validity.encode ++ encodeOptionalOrder row.maxPartialOrder ++
    encodeOptionalU64 row.footerSize ++ encodeString row.encryptionKey ++ utf8 row.path

structure DeleteFileRow where
  deleteFileId : UInt64
  dataFileId : UInt64
  path : String
  recordCount : UInt64
  fileSizeBytes : UInt64
  encryptionKey : String
  validity : ValidityWindow
  maxPartialOrder : Option CatalogOrderId
  deriving DecidableEq

def DeleteFileRow.encode (row : DeleteFileRow) : Bytes :=
  4 :: u64Bytes row.deleteFileId ++ u64Bytes row.dataFileId ++ u64Bytes row.recordCount ++
    u64Bytes row.fileSizeBytes ++ row.validity.encode ++ encodeOptionalOrder row.maxPartialOrder ++
    encodeString row.encryptionKey ++ utf8 row.path

structure FilePartitionValueRow where
  dataFileId : UInt64
  tableId : UInt64
  partitionKeyIndex : UInt32
  partitionValue : String
  deriving DecidableEq

def FilePartitionValueRow.encode (row : FilePartitionValueRow) : Bytes :=
  1 :: u64Bytes row.dataFileId ++ u64Bytes row.tableId ++ u32Bytes row.partitionKeyIndex ++
    encodeString row.partitionValue

structure InlineFileDeletionRow where
  tableId : UInt64
  dataFileId : UInt64
  rowId : UInt64
  validity : ValidityWindow
  deriving DecidableEq

def InlineFileDeletionRow.encode (row : InlineFileDeletionRow) : Bytes :=
  2 :: u64Bytes row.tableId ++ u64Bytes row.dataFileId ++ u64Bytes row.rowId ++ row.validity.encode

structure FileColumnStatsRow where
  dataFileId : UInt64
  tableId : UInt64
  columnId : UInt64
  valueCount : Option UInt64
  nullCount : UInt64
  minValue : Option String
  maxValue : Option String
  extraStats : Option String
  deriving DecidableEq

def FileColumnStatsRow.encode (row : FileColumnStatsRow) : Bytes :=
  3 :: u64Bytes row.dataFileId ++ u64Bytes row.tableId ++ u64Bytes row.columnId ++
    encodeOptionalU64 row.valueCount ++ u64Bytes row.nullCount ++ encodeOptionalStatsString row.minValue ++
    encodeOptionalStatsString row.maxValue ++ encodeOptionalStatsString row.extraStats

structure TableColumnRow where
  columnId : UInt64
  name : String
  columnType : String
  nullsAllowed : Bool
  parentId : Option UInt64
  comment : Option String
  initialDefault : Option String
  defaultValue : Option String
  defaultValueType : String
  createdWithTable : Bool
  deriving DecidableEq

def TableColumnRow.encode (column : TableColumnRow) : Bytes :=
  u64Bytes column.columnId ++ boolByte column.nullsAllowed ++ encodeOptionalU64 column.parentId ++
    encodeString column.name ++ encodeString column.columnType ++ encodeOptionalString column.comment ++
    encodeOptionalString column.initialDefault ++ encodeOptionalString column.defaultValue ++
    encodeString column.defaultValueType ++ boolByte column.createdWithTable

structure InlinedTableRow where
  tableName : String
  schemaVersion : UInt64
  deriving DecidableEq

def InlinedTableRow.encode (table : InlinedTableRow) : Bytes :=
  encodeString table.tableName ++ u64Bytes table.schemaVersion

structure TablePartitionFieldRow where
  partitionKeyIndex : UInt64
  columnId : UInt64
  transform : String
  deriving DecidableEq

def TablePartitionFieldRow.encode (field : TablePartitionFieldRow) : Bytes :=
  u64Bytes field.partitionKeyIndex ++ u64Bytes field.columnId ++ encodeString field.transform

structure TablePartitionRow where
  partitionId : UInt64
  fields : List TablePartitionFieldRow
  deriving DecidableEq

def TablePartitionRow.encode (partition : TablePartitionRow) : Bytes :=
  u64Bytes partition.partitionId ++ countedBytes 4 TablePartitionFieldRow.encode partition.fields

structure TableSortFieldRow where
  sortKeyIndex : UInt64
  expression : String
  dialect : String
  sortDirection : String
  nullOrder : String
  deriving DecidableEq

def TableSortFieldRow.encode (field : TableSortFieldRow) : Bytes :=
  u64Bytes field.sortKeyIndex ++ encodeString field.expression ++ encodeString field.dialect ++
    encodeString field.sortDirection ++ encodeString field.nullOrder

structure TableSortRow where
  sortId : UInt64
  fields : List TableSortFieldRow
  deriving DecidableEq

def TableSortRow.encode (sort : TableSortRow) : Bytes :=
  u64Bytes sort.sortId ++ countedBytes 4 TableSortFieldRow.encode sort.fields

structure TableRow where
  tableId : UInt64
  schemaId : UInt64
  uuid : String
  name : String
  path : String
  comment : Option String
  columns : List TableColumnRow
  inlinedDataTables : List InlinedTableRow
  partition : Option TablePartitionRow
  sort : Option TableSortRow
  validity : ValidityWindow
  deriving DecidableEq

def TableRow.encode (table : TableRow) : Bytes :=
  8 :: u64Bytes table.tableId ++ u64Bytes table.schemaId ++ table.validity.encode ++
    encodeString table.uuid ++ encodeString table.name ++ encodeString table.path ++
    encodeOptionalString table.comment ++ countedBytes 4 TableColumnRow.encode table.columns ++
    countedBytes 4 InlinedTableRow.encode table.inlinedDataTables ++
    optionBytes [] TablePartitionRow.encode table.partition ++ optionBytes [] TableSortRow.encode table.sort

/-! ## Reading the encodings back -/

theorem utf8_inj {left right : String} (same : utf8 left = utf8 right) : left = right := by
  have arrays : left.toByteArray = right.toByteArray := by
    apply ByteArray.ext
    exact Array.toList_inj.mp same
  exact String.toByteArray_inj.mp arrays

theorem u32Bytes_delimits : SelfDelimitingOn Set.univ u32Bytes :=
  (beBytes_delimits 4).comp (fun value _ => value.toNat_lt) (fun _ _ _ _ same => UInt32.toNat_inj.mp same)

theorem u64Bytes_delimits : SelfDelimitingOn Set.univ u64Bytes :=
  (beBytes_delimits 8).comp (fun value _ => value.toNat_lt) (fun _ _ _ _ same => UInt64.toNat_inj.mp same)

theorem boolByte_delimits : SelfDelimitingOn Set.univ boolByte := by
  apply SelfDelimitingOn.ofFixedLength 1 (fun _ _ => rfl)
  intro left _ right _ same
  revert same
  cases left <;> cases right <;> decide

theorem encodeStoredOrder_delimits : SelfDelimitingOn Set.univ encodeStoredOrder := by
  apply SelfDelimitingOn.ofFixedLength 17
  · intro order _
    simp [encodeStoredOrder]
  · rintro ⟨leftKind, leftBytes⟩ _ ⟨rightKind, rightBytes⟩ _ same
    simp only [encodeStoredOrder, List.cons.injEq] at same
    obtain ⟨code, bytes⟩ := same
    have kinds : leftKind = rightKind := by
      revert code
      cases leftKind <;> cases rightKind <;> decide
    rw [kinds, Vector.toList_inj.mp bytes]

/-- A string whose length the four length bytes hold without truncation. -/
def ShortString (value : String) : Prop := (utf8 value).length < 256 ^ 4

instance (value : String) : Decidable (ShortString value) := inferInstanceAs (Decidable (_ < _))

def ShortOption (value : Option String) : Prop := ∀ held ∈ value, ShortString held

theorem encodeString_delimits : SelfDelimitingOn {value | ShortString value} encodeString :=
  (sizedBytes_delimits 4).comp (fun _ short => short) (fun _ _ _ _ same => utf8_inj same)

section Cuts

variable {afterLeft afterRight : Bytes}

@[simp]
theorem u32Bytes_cut {left right : UInt32} :
    u32Bytes left ++ afterLeft = u32Bytes right ++ afterRight ↔ left = right ∧ afterLeft = afterRight :=
  u32Bytes_delimits.cut trivial trivial

@[simp]
theorem u64Bytes_cut {left right : UInt64} :
    u64Bytes left ++ afterLeft = u64Bytes right ++ afterRight ↔ left = right ∧ afterLeft = afterRight :=
  u64Bytes_delimits.cut trivial trivial

@[simp]
theorem boolByte_cut {left right : Bool} :
    boolByte left ++ afterLeft = boolByte right ++ afterRight ↔ left = right ∧ afterLeft = afterRight :=
  boolByte_delimits.cut trivial trivial

@[simp]
theorem encodeOptionalU64_cut {left right : Option UInt64} :
    encodeOptionalU64 left ++ afterLeft = encodeOptionalU64 right ++ afterRight ↔
      left = right ∧ afterLeft = afterRight :=
  (optionBytes_delimits _ u64Bytes_delimits).cut (fun _ _ => trivial) (fun _ _ => trivial)

@[simp]
theorem encodeOptionalOrder_cut {left right : Option CatalogOrderId} :
    encodeOptionalOrder left ++ afterLeft = encodeOptionalOrder right ++ afterRight ↔
      left = right ∧ afterLeft = afterRight :=
  (optionBytes_delimits _ encodeStoredOrder_delimits).cut (fun _ _ => trivial) (fun _ _ => trivial)

@[simp]
theorem ValidityWindow.encode_cut {left right : ValidityWindow} :
    left.encode ++ afterLeft = right.encode ++ afterRight ↔ left = right ∧ afterLeft = afterRight := by
  rcases left with ⟨leftBegin, leftEnd⟩
  rcases right with ⟨rightBegin, rightEnd⟩
  simp only [ValidityWindow.encode, List.append_assoc, encodeStoredOrder_delimits.cut (Set.mem_univ _) (Set.mem_univ _),
    encodeOptionalOrder_cut, ValidityWindow.mk.injEq, and_assoc]

theorem encodeString_cut {left right : String} (leftShort : ShortString left) (rightShort : ShortString right) :
    encodeString left ++ afterLeft = encodeString right ++ afterRight ↔ left = right ∧ afterLeft = afterRight :=
  encodeString_delimits.cut leftShort rightShort

theorem encodeOptionalString_cut {left right : Option String} (leftShort : ShortOption left)
    (rightShort : ShortOption right) :
    encodeOptionalString left ++ afterLeft = encodeOptionalString right ++ afterRight ↔
      left = right ∧ afterLeft = afterRight :=
  (optionBytes_delimits _ encodeString_delimits).cut leftShort rightShort

theorem encodeOptionalStatsString_cut {left right : Option String} (leftShort : ShortOption left)
    (rightShort : ShortOption right) :
    encodeOptionalStatsString left ++ afterLeft = encodeOptionalStatsString right ++ afterRight ↔
      left = right ∧ afterLeft = afterRight :=
  (optionBytes_delimits _ encodeString_delimits).cut leftShort rightShort

end Cuts

/-- The path closes the row and needs no length; only the key in front of it has one. -/
theorem DataFileRow.encode_injOn : Set.InjOn DataFileRow.encode {row | ShortString row.encryptionKey} := by
  intro left leftShort right rightShort same
  simp only [DataFileRow.encode, List.append_assoc, List.cons_append, List.cons.injEq, u64Bytes_cut, boolByte_cut,
    encodeOptionalU64_cut, ValidityWindow.encode_cut, encodeOptionalOrder_cut,
    encodeString_cut leftShort rightShort] at same
  obtain ⟨_, id, table, records, size, start, known, mapping, validity, partialOrder, footer, key, path⟩ := same
  cases left
  cases right
  simp only [DataFileRow.mk.injEq]
  exact ⟨id, table, utf8_inj path, records, size, footer, key, start, known, mapping, partialOrder, validity⟩

theorem DeleteFileRow.encode_injOn : Set.InjOn DeleteFileRow.encode {row | ShortString row.encryptionKey} := by
  intro left leftShort right rightShort same
  simp only [DeleteFileRow.encode, List.append_assoc, List.cons_append, List.cons.injEq, u64Bytes_cut,
    ValidityWindow.encode_cut, encodeOptionalOrder_cut, encodeString_cut leftShort rightShort] at same
  obtain ⟨_, id, file, records, size, validity, partialOrder, key, path⟩ := same
  cases left
  cases right
  simp only [DeleteFileRow.mk.injEq]
  exact ⟨id, file, utf8_inj path, records, size, key, validity, partialOrder⟩

theorem FilePartitionValueRow.encode_delimits :
    SelfDelimitingOn {row | ShortString row.partitionValue} FilePartitionValueRow.encode := by
  intro left leftShort right rightShort afterLeft afterRight same
  simp only [FilePartitionValueRow.encode, List.append_assoc, List.cons_append, List.cons.injEq, u64Bytes_cut,
    u32Bytes_cut, encodeString_cut leftShort rightShort] at same
  obtain ⟨_, file, table, index, value, after⟩ := same
  cases left
  cases right
  simp only [FilePartitionValueRow.mk.injEq]
  exact ⟨⟨file, table, index, value⟩, after⟩

theorem InlineFileDeletionRow.encode_delimits : SelfDelimitingOn Set.univ InlineFileDeletionRow.encode := by
  intro left _ right _ afterLeft afterRight same
  simp only [InlineFileDeletionRow.encode, List.append_assoc, List.cons_append, List.cons.injEq, u64Bytes_cut,
    ValidityWindow.encode_cut] at same
  obtain ⟨_, table, file, row, validity, after⟩ := same
  cases left
  cases right
  simp only [InlineFileDeletionRow.mk.injEq]
  exact ⟨⟨table, file, row, validity⟩, after⟩

structure FileColumnStatsRow.Short (row : FileColumnStatsRow) : Prop where
  minValue : ShortOption row.minValue
  maxValue : ShortOption row.maxValue
  extraStats : ShortOption row.extraStats

theorem FileColumnStatsRow.encode_delimits :
    SelfDelimitingOn {row | FileColumnStatsRow.Short row} FileColumnStatsRow.encode := by
  intro left leftShort right rightShort afterLeft afterRight same
  simp only [FileColumnStatsRow.encode, List.append_assoc, List.cons_append, List.cons.injEq, u64Bytes_cut,
    encodeOptionalU64_cut, encodeOptionalStatsString_cut leftShort.minValue rightShort.minValue,
    encodeOptionalStatsString_cut leftShort.maxValue rightShort.maxValue,
    encodeOptionalStatsString_cut leftShort.extraStats rightShort.extraStats] at same
  obtain ⟨_, file, table, column, values, nulls, minimum, maximum, extra, after⟩ := same
  cases left
  cases right
  simp only [FileColumnStatsRow.mk.injEq]
  exact ⟨⟨file, table, column, values, nulls, minimum, maximum, extra⟩, after⟩

structure TableColumnRow.Short (column : TableColumnRow) : Prop where
  name : ShortString column.name
  columnType : ShortString column.columnType
  comment : ShortOption column.comment
  initialDefault : ShortOption column.initialDefault
  defaultValue : ShortOption column.defaultValue
  defaultValueType : ShortString column.defaultValueType

theorem TableColumnRow.encode_delimits :
    SelfDelimitingOn {column | TableColumnRow.Short column} TableColumnRow.encode := by
  intro left leftShort right rightShort afterLeft afterRight same
  simp only [TableColumnRow.encode, List.append_assoc, u64Bytes_cut, boolByte_cut, encodeOptionalU64_cut,
    encodeString_cut leftShort.name rightShort.name, encodeString_cut leftShort.columnType rightShort.columnType,
    encodeOptionalString_cut leftShort.comment rightShort.comment,
    encodeOptionalString_cut leftShort.initialDefault rightShort.initialDefault,
    encodeOptionalString_cut leftShort.defaultValue rightShort.defaultValue,
    encodeString_cut leftShort.defaultValueType rightShort.defaultValueType] at same
  obtain ⟨id, nulls, parent, name, type, comment, initial, default, defaultType, created, after⟩ := same
  cases left
  cases right
  simp only [TableColumnRow.mk.injEq]
  exact ⟨⟨id, name, type, nulls, parent, comment, initial, default, defaultType, created⟩, after⟩

theorem InlinedTableRow.encode_delimits :
    SelfDelimitingOn {table | ShortString table.tableName} InlinedTableRow.encode := by
  intro left leftShort right rightShort afterLeft afterRight same
  simp only [InlinedTableRow.encode, List.append_assoc, u64Bytes_cut, encodeString_cut leftShort rightShort] at same
  obtain ⟨name, version, after⟩ := same
  cases left
  cases right
  simp only [InlinedTableRow.mk.injEq]
  exact ⟨⟨name, version⟩, after⟩

theorem TablePartitionFieldRow.encode_delimits :
    SelfDelimitingOn {field | ShortString field.transform} TablePartitionFieldRow.encode := by
  intro left leftShort right rightShort afterLeft afterRight same
  simp only [TablePartitionFieldRow.encode, List.append_assoc, u64Bytes_cut,
    encodeString_cut leftShort rightShort] at same
  obtain ⟨index, column, transform, after⟩ := same
  cases left
  cases right
  simp only [TablePartitionFieldRow.mk.injEq]
  exact ⟨⟨index, column, transform⟩, after⟩

structure TableSortFieldRow.Short (field : TableSortFieldRow) : Prop where
  expression : ShortString field.expression
  dialect : ShortString field.dialect
  sortDirection : ShortString field.sortDirection
  nullOrder : ShortString field.nullOrder

theorem TableSortFieldRow.encode_delimits :
    SelfDelimitingOn {field | TableSortFieldRow.Short field} TableSortFieldRow.encode := by
  intro left leftShort right rightShort afterLeft afterRight same
  simp only [TableSortFieldRow.encode, List.append_assoc, u64Bytes_cut,
    encodeString_cut leftShort.expression rightShort.expression,
    encodeString_cut leftShort.dialect rightShort.dialect,
    encodeString_cut leftShort.sortDirection rightShort.sortDirection,
    encodeString_cut leftShort.nullOrder rightShort.nullOrder] at same
  obtain ⟨index, expression, dialect, direction, nulls, after⟩ := same
  cases left
  cases right
  simp only [TableSortFieldRow.mk.injEq]
  exact ⟨⟨index, expression, dialect, direction, nulls⟩, after⟩

/-- Lists whose length fits four bytes and whose elements are short themselves. -/
def ShortList {α : Type} (short : α → Prop) (values : List α) : Prop :=
  values.length < 256 ^ 4 ∧ ∀ value ∈ values, short value

theorem TablePartitionRow.encode_delimits :
    SelfDelimitingOn {partition | ShortList (fun field => ShortString field.transform) partition.fields}
      TablePartitionRow.encode := by
  intro left leftShort right rightShort afterLeft afterRight same
  simp only [TablePartitionRow.encode, List.append_assoc, u64Bytes_cut,
    (countedBytes_delimits 4 TablePartitionFieldRow.encode_delimits).cut leftShort rightShort] at same
  obtain ⟨id, fields, after⟩ := same
  cases left
  cases right
  simp only [TablePartitionRow.mk.injEq]
  exact ⟨⟨id, fields⟩, after⟩

theorem TableSortRow.encode_delimits :
    SelfDelimitingOn {sort | ShortList TableSortFieldRow.Short sort.fields} TableSortRow.encode := by
  intro left leftShort right rightShort afterLeft afterRight same
  simp only [TableSortRow.encode, List.append_assoc, u64Bytes_cut,
    (countedBytes_delimits 4 TableSortFieldRow.encode_delimits).cut leftShort rightShort] at same
  obtain ⟨id, fields, after⟩ := same
  cases left
  cases right
  simp only [TableSortRow.mk.injEq]
  exact ⟨⟨id, fields⟩, after⟩

structure TableRow.Short (table : TableRow) : Prop where
  uuid : ShortString table.uuid
  name : ShortString table.name
  path : ShortString table.path
  comment : ShortOption table.comment
  columns : ShortList TableColumnRow.Short table.columns
  inlinedDataTables : ShortList (fun inlined => ShortString inlined.tableName) table.inlinedDataTables
  partition : ∀ held ∈ table.partition, ShortList (fun field => ShortString field.transform) held.fields
  sort : ∀ held ∈ table.sort, ShortList TableSortFieldRow.Short held.fields

theorem TableRow.encode_delimits : SelfDelimitingOn {table | TableRow.Short table} TableRow.encode := by
  intro left leftShort right rightShort afterLeft afterRight same
  simp only [TableRow.encode, List.append_assoc, List.cons_append, List.cons.injEq, u64Bytes_cut,
    ValidityWindow.encode_cut, encodeString_cut leftShort.uuid rightShort.uuid,
    encodeString_cut leftShort.name rightShort.name, encodeString_cut leftShort.path rightShort.path,
    encodeOptionalString_cut leftShort.comment rightShort.comment,
    (countedBytes_delimits 4 TableColumnRow.encode_delimits).cut leftShort.columns rightShort.columns,
    (countedBytes_delimits 4 InlinedTableRow.encode_delimits).cut leftShort.inlinedDataTables
      rightShort.inlinedDataTables,
    (optionBytes_delimits _ TablePartitionRow.encode_delimits).cut leftShort.partition rightShort.partition,
    (optionBytes_delimits _ TableSortRow.encode_delimits).cut leftShort.sort rightShort.sort] at same
  obtain ⟨_, id, schema, validity, uuid, name, path, comment, columns, inlined, partition, sort, after⟩ := same
  cases left
  cases right
  simp only [TableRow.mk.injEq]
  exact ⟨⟨id, schema, uuid, name, path, comment, columns, inlined, partition, sort, validity⟩, after⟩

end DucklakeCatalog.Wire
