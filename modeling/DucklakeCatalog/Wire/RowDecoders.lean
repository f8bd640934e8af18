import DucklakeCatalog.ByteCodec.Overwrite
import DucklakeCatalog.ByteCodec.Readers
import DucklakeCatalog.Wire.RuntimeFrames

/-! Reading the rows of files and tables back. Where the source slices at positions it has
computed, the bytes that are left are handed on from field to field; the position that the
standard library adds to the error of text that is not UTF-8 is left out. -/
namespace DucklakeCatalog.Wire

open ByteCodec

/-! ## Fields -/

def truncated (field : String) : CatalogError := .decode s!"{field} is truncated"

def readU32 (short : CatalogError) : Reader CatalogError UInt32 := fun bytes => do
  let (value, bytes) ← readBytes short 4 bytes
  .ok (UInt32.ofNat (beNumber value), bytes)

def readU64 (short : CatalogError) : Reader CatalogError UInt64 := fun bytes => do
  let (value, bytes) ← readBytes short 8 bytes
  .ok (UInt64.ofNat (beNumber value), bytes)

def readMarker (short : CatalogError) (invalid : UInt8 → CatalogError) : Reader CatalogError Bool
  | [] => .error short
  | marker :: bytes =>
    if marker = 0 then .ok (false, bytes)
    else if marker = 1 then .ok (true, bytes)
    else .error (invalid marker)

def decodeText (invalid : CatalogError) (bytes : Bytes) : CatalogResult String :=
  if isUtf8 bytes then .ok (textOf bytes) else .error invalid

/-- Text behind its length. -/
def readText (shortLength shortText invalid : CatalogError) : Reader CatalogError String := fun bytes => do
  let (length, bytes) ← readU32 shortLength bytes
  let (text, bytes) ← readBytes shortText length.toNat bytes
  let text ← decodeText invalid text
  .ok (text, bytes)

def decodeU32 (field : String) : Reader CatalogError UInt32 := readU32 (truncated field)

def decodeU64 (field : String) : Reader CatalogError UInt64 := readU64 (truncated field)

def decodeBool (field : String) : Reader CatalogError Bool :=
  readMarker (truncated field) fun other => .decode s!"{field} has invalid bool marker {other}"

def decodeString (field : String) : Reader CatalogError String :=
  readText (truncated field) (truncated field) (.decode s!"{field} is not utf8")

def decodeOptionalString (field : String) : Reader CatalogError (Option String) := fun bytes => do
  let (present, bytes) ← decodeBool field bytes
  if present then
    let (value, bytes) ← decodeString field bytes
    .ok (some value, bytes)
  else .ok (none, bytes)

/-- A number that is written, as zero, even where it is absent. -/
def readOptionalU64 (field : String) (marker : Reader CatalogError Bool) : Reader CatalogError (Option UInt64) :=
  fun bytes => do
    let (present, bytes) ← marker bytes
    let (value, bytes) ← decodeU64 field bytes
    .ok (if present then some value else none, bytes)

def CatalogOrderKind.ofCode (field : String) (code : UInt8) : CatalogResult CatalogOrderKind :=
  if code = 1 then .ok .fdbVersionstamp
  else if code = 2 then .ok .uuidV7
  else .error (.decode s!"unsupported {field} order kind {code}")

def storedOrderLen : Nat := 1 + 16

def decodeStoredOrder (field : String) (bytes : Bytes) : CatalogResult CatalogOrderId :=
  if sized : bytes.length = storedOrderLen then do
    let kind ← CatalogOrderKind.ofCode field (bytes.headD 0)
    .ok ⟨kind, ⟨bytes.tail.toArray, by simp [sized, storedOrderLen]⟩⟩
  else .error (truncated field)

def readStoredOrder (field : String) : Reader CatalogError CatalogOrderId := fun bytes => do
  let (stored, bytes) ← readBytes (truncated field) storedOrderLen bytes
  let order ← decodeStoredOrder field stored
  .ok (order, bytes)

/-- An order that is written, as zero, even where it is absent. -/
def readOptionalOrder (field : String) (marker : Reader CatalogError Bool) :
    Reader CatalogError (Option CatalogOrderId) := fun bytes => do
  let (present, bytes) ← marker bytes
  if present then
    let (order, bytes) ← readStoredOrder field bytes
    .ok (some order, bytes)
  else
    let (_, bytes) ← readBytes (truncated field) storedOrderLen bytes
    .ok (none, bytes)

/-- A field that older versions of a row do not hold. -/
def readIf {α : Type} (stored : Bool) (absent : α) (decode : Reader CatalogError α) : Reader CatalogError α := fun bytes =>
  if stored then decode bytes else .ok (absent, bytes)

/-! ## Files -/

namespace DataFileRow

def VERSION : UInt8 := 8
def VERSION_WITH_ROW_ID_KNOWN : UInt8 := 7

def minimumLen (version : UInt8) : Nat :=
  1 + 8 + 8 + 8 + 8 + 8 + (if VERSION_WITH_ROW_ID_KNOWN ≤ version then 1 else 0) + (if 4 ≤ version then 1 + 8 else 0) +
    storedOrderLen + 1 + storedOrderLen + (if 5 ≤ version then 1 + storedOrderLen else 0) +
    (if 6 ≤ version then 1 + 8 else 0) + (if VERSION ≤ version then 4 else 0)

def readDataFileMarker (kind : String) : Reader CatalogError Bool :=
  readMarker (truncated kind) fun other => .decode s!"invalid data file {kind} marker {other}"

def decodeFields (version : UInt8) (bytes : Bytes) : CatalogResult DataFileRow := do
  let (dataFileId, bytes) ← decodeU64 "data file id" bytes
  let (tableId, bytes) ← decodeU64 "table id" bytes
  let (recordCount, bytes) ← decodeU64 "record count" bytes
  let (fileSizeBytes, bytes) ← decodeU64 "file size" bytes
  let (rowIdStart, bytes) ← decodeU64 "row id start" bytes
  let (rowIdStartKnown, bytes) ←
    readIf (VERSION_WITH_ROW_ID_KNOWN ≤ version) false (readDataFileMarker "row-id-known") bytes
  let (mappingId, bytes) ←
    readIf (4 ≤ version) none (readOptionalU64 "mapping id" (readDataFileMarker "mapping")) bytes
  let (beginOrder, bytes) ← readStoredOrder "begin_order" bytes
  let (endOrder, bytes) ← readOptionalOrder "end_order" (readDataFileMarker "end-order") bytes
  let (maxPartialOrder, bytes) ←
    readIf (5 ≤ version) none (readOptionalOrder "max_partial_order" (readDataFileMarker "max-partial")) bytes
  let (footerSize, bytes) ←
    readIf (6 ≤ version) none (readOptionalU64 "footer size" (readDataFileMarker "footer-size")) bytes
  let (encryptionKey, bytes) ←
    readIf (VERSION ≤ version) "" (readText (truncated "data file encryption key length")
      (truncated "data file encryption key") (.decode "data file encryption key is not utf8")) bytes
  let path ← decodeText (.decode "data file path is not utf8") bytes
  .ok { dataFileId, tableId, path, recordCount, fileSizeBytes, footerSize, encryptionKey, rowIdStart, rowIdStartKnown,
        mappingId, maxPartialOrder, validity := ⟨beginOrder, endOrder⟩ }

def decode (bytes : Bytes) : CatalogResult DataFileRow :=
  match bytes with
  | [] => .error (.decode "data file row is too short: 0 bytes")
  | version :: fields =>
    if version < 3 ∨ VERSION < version then .error (.decode s!"unsupported data file row version {version}")
    else if bytes.length < minimumLen version then
      .error (.decode s!"data file row is too short: {bytes.length} bytes")
    else decodeFields version fields

def BEGIN_ORDER_BYTES_OFFSET : Nat := 1 + 8 + 8 + 8 + 8 + 8 + 1 + 1 + 8 + 1
def END_ORDER_BYTES_OFFSET : Nat := BEGIN_ORDER_BYTES_OFFSET + storedOrderLen + 1
def MAX_PARTIAL_ORDER_BYTES_OFFSET : Nat := END_ORDER_BYTES_OFFSET + storedOrderLen + 1

end DataFileRow

namespace DeleteFileRow

def VERSION : UInt8 := 4
def VERSION_WITH_MAX_PARTIAL_ORDER : UInt8 := 3
def VERSION_WITHOUT_MAX_PARTIAL_ORDER : UInt8 := 2

def minimumLen : Nat := 1 + 8 + 8 + 8 + 8 + storedOrderLen + 1 + storedOrderLen

def encryptionLengthStart (version : UInt8) : Nat :=
  if VERSION_WITH_MAX_PARTIAL_ORDER ≤ version then minimumLen + 1 + storedOrderLen else minimumLen

def readDeleteFileMarker (kind : String) : Reader CatalogError Bool :=
  readMarker (truncated kind) fun other => .decode s!"invalid delete file {kind} marker {other}"

def decodeFields (version : UInt8) (bytes : Bytes) : CatalogResult DeleteFileRow := do
  let (deleteFileId, bytes) ← decodeU64 "delete file id" bytes
  let (dataFileId, bytes) ← decodeU64 "data file id" bytes
  let (recordCount, bytes) ← decodeU64 "record count" bytes
  let (fileSizeBytes, bytes) ← decodeU64 "file size" bytes
  let (beginOrder, bytes) ← readStoredOrder "begin_order" bytes
  let (endOrder, bytes) ← readOptionalOrder "end_order" (readDeleteFileMarker "end-order") bytes
  let (maxPartialOrder, bytes) ←
    readIf (VERSION_WITH_MAX_PARTIAL_ORDER ≤ version) none
      (readOptionalOrder "max_partial_order" (readDeleteFileMarker "max-partial")) bytes
  let (encryptionKey, bytes) ←
    readIf (VERSION ≤ version) "" (readText (truncated "delete file encryption key length")
      (truncated "delete file encryption key") (.decode "delete file encryption key is not utf8")) bytes
  let path ← decodeText (.decode "delete file path is not utf8") bytes
  .ok { deleteFileId, dataFileId, path, recordCount, fileSizeBytes, encryptionKey,
        validity := ⟨beginOrder, endOrder⟩, maxPartialOrder }

def decode (bytes : Bytes) : CatalogResult DeleteFileRow :=
  match bytes with
  | [] => .error (.decode "delete file row is too short: 0 bytes")
  | version :: fields =>
    if version ≠ VERSION ∧ version ≠ VERSION_WITH_MAX_PARTIAL_ORDER ∧ version ≠ VERSION_WITHOUT_MAX_PARTIAL_ORDER then
      .error (.decode s!"unsupported delete file row version {version}")
    else if bytes.length < minimumLen then .error (.decode s!"delete file row is too short: {bytes.length} bytes")
    else if bytes.length < encryptionLengthStart version then
      .error (.decode s!"delete file row version {version} is too short: {bytes.length} bytes")
    else decodeFields version fields

def BEGIN_ORDER_BYTES_OFFSET : Nat := 1 + 8 + 8 + 8 + 8 + 1
def END_ORDER_BYTES_OFFSET : Nat := BEGIN_ORDER_BYTES_OFFSET + storedOrderLen + 1
def MAX_PARTIAL_ORDER_BYTES_OFFSET : Nat := END_ORDER_BYTES_OFFSET + storedOrderLen + 1

end DeleteFileRow

/-! ## Tables -/

def TableColumnRow.decode : Reader CatalogError TableColumnRow := fun bytes => do
  let (columnId, bytes) ← decodeU64 "column id" bytes
  let (nullsAllowed, bytes) ← decodeBool "column nulls_allowed" bytes
  let (parentId, bytes) ← readOptionalU64 "column parent id" (decodeBool "column parent marker") bytes
  let (name, bytes) ← decodeString "column name" bytes
  let (columnType, bytes) ← decodeString "column type" bytes
  let (comment, bytes) ← decodeOptionalString "column comment" bytes
  let (initialDefault, bytes) ← decodeOptionalString "column initial default" bytes
  let (defaultValue, bytes) ← decodeOptionalString "column default value" bytes
  let (defaultValueType, bytes) ← decodeString "column default value type" bytes
  let (createdWithTable, bytes) ← decodeBool "column created with table" bytes
  .ok ({ columnId, name, columnType, nullsAllowed, parentId, comment, initialDefault, defaultValue, defaultValueType,
         createdWithTable }, bytes)

def InlinedTableRow.decode : Reader CatalogError InlinedTableRow := fun bytes => do
  let (tableName, bytes) ← decodeString "inlined table name" bytes
  let (schemaVersion, bytes) ← decodeU64 "inlined table schema version" bytes
  .ok ({ tableName, schemaVersion }, bytes)

def TablePartitionFieldRow.decode : Reader CatalogError TablePartitionFieldRow := fun bytes => do
  let (partitionKeyIndex, bytes) ← decodeU64 "table partition key index" bytes
  let (columnId, bytes) ← decodeU64 "table partition column id" bytes
  let (transform, bytes) ← decodeString "table partition transform" bytes
  .ok ({ partitionKeyIndex, columnId, transform }, bytes)

def TablePartitionRow.decode : Reader CatalogError (Option TablePartitionRow) := fun bytes => do
  let (present, bytes) ← decodeBool "table partition marker" bytes
  if present then
    let (partitionId, bytes) ← decodeU64 "table partition id" bytes
    let (fieldCount, bytes) ← decodeU32 "table partition field count" bytes
    let (fields, bytes) ← readMany TablePartitionFieldRow.decode fieldCount.toNat bytes
    .ok (some { partitionId, fields }, bytes)
  else .ok (none, bytes)

def TableSortFieldRow.decode : Reader CatalogError TableSortFieldRow := fun bytes => do
  let (sortKeyIndex, bytes) ← decodeU64 "table sort key index" bytes
  let (expression, bytes) ← decodeString "table sort expression" bytes
  let (dialect, bytes) ← decodeString "table sort dialect" bytes
  let (sortDirection, bytes) ← decodeString "table sort direction" bytes
  let (nullOrder, bytes) ← decodeString "table sort null order" bytes
  .ok ({ sortKeyIndex, expression, dialect, sortDirection, nullOrder }, bytes)

def TableSortRow.decode : Reader CatalogError (Option TableSortRow) := fun bytes => do
  let (present, bytes) ← decodeBool "table sort marker" bytes
  if present then
    let (sortId, bytes) ← decodeU64 "table sort id" bytes
    let (fieldCount, bytes) ← decodeU32 "table sort field count" bytes
    let (fields, bytes) ← readMany TableSortFieldRow.decode fieldCount.toNat bytes
    .ok (some { sortId, fields }, bytes)
  else .ok (none, bytes)

namespace TableRow

def VERSION : UInt8 := 8

def minimumLen : Nat := 1 + 8 + 8 + storedOrderLen + 1 + storedOrderLen

def decodeFields (bytes : Bytes) : CatalogResult TableRow := do
  let (tableId, bytes) ← decodeU64 "table id" bytes
  let (schemaId, bytes) ← decodeU64 "schema id" bytes
  let (beginOrder, bytes) ← readStoredOrder "begin_order" bytes
  let (endOrder, bytes) ← readOptionalOrder "end_order" (readMarker (truncated "end-order") fun other =>
    .decode s!"invalid table end-order marker {other}") bytes
  let (uuid, bytes) ← decodeString "table uuid" bytes
  let (name, bytes) ← decodeString "table name" bytes
  let (path, bytes) ← decodeString "table path" bytes
  let (comment, bytes) ← decodeOptionalString "table comment" bytes
  let (columnCount, bytes) ← decodeU32 "column count" bytes
  let (columns, bytes) ← readMany TableColumnRow.decode columnCount.toNat bytes
  let (inlinedTableCount, bytes) ← decodeU32 "inlined table count" bytes
  let (inlinedDataTables, bytes) ← readMany InlinedTableRow.decode inlinedTableCount.toNat bytes
  let (partition, bytes) ← TablePartitionRow.decode bytes
  let (sort, _) ← TableSortRow.decode bytes
  .ok { tableId, schemaId, uuid, name, path, comment, columns, inlinedDataTables, partition, sort,
        validity := ⟨beginOrder, endOrder⟩ }

def decode (bytes : Bytes) : CatalogResult TableRow :=
  match bytes with
  | [] => .error (.decode "table row is too short: 0 bytes")
  | version :: fields =>
    if version ≠ VERSION then .error (.decode s!"unsupported table row version {version}")
    else if bytes.length < minimumLen then .error (.decode s!"table row is too short: {bytes.length} bytes")
    else decodeFields fields

def BEGIN_ORDER_BYTES_OFFSET : Nat := 1 + 8 + 8 + 1
def END_ORDER_BYTES_OFFSET : Nat := BEGIN_ORDER_BYTES_OFFSET + storedOrderLen + 1

end TableRow

end DucklakeCatalog.Wire
