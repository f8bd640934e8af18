import DucklakeCatalog.Wire.RowDecoders

/-! What a row was written from is what its decoder finds in it. -/
namespace DucklakeCatalog.Wire

open ByteCodec KeyedStore

/-! ## Fields -/

section Fields

variable {rest : Bytes}

theorem readU32_beBytes (short : CatalogError) {value : Nat} (fits : value < 256 ^ 4) :
    readU32 short (beBytes 4 value ++ rest) = .ok (UInt32.ofNat value, rest) := by
  simp only [readU32, readBytes_append short (beBytes_length 4 value), ok_bind, beNumber_beBytes fits]

theorem toNat_count {count : Nat} (few : count < 256 ^ 4) : (UInt32.ofNat count).toNat = count :=
  UInt32.toNat_ofNat_of_lt few

theorem readU32_u32Bytes (short : CatalogError) (value : UInt32) :
    readU32 short (u32Bytes value ++ rest) = .ok (value, rest) := by
  rw [u32Bytes, readU32_beBytes short value.toNat_lt, UInt32.ofNat_toNat]

theorem readU64_u64Bytes (short : CatalogError) (value : UInt64) :
    readU64 short (u64Bytes value ++ rest) = .ok (value, rest) := by
  have fits : value.toNat < 256 ^ 8 := value.toNat_lt
  simp only [readU64, u64Bytes, readBytes_append short (beBytes_length 8 value.toNat), ok_bind, beNumber_beBytes fits,
    UInt64.ofNat_toNat]

theorem readMarker_zero (short : CatalogError) (invalid : UInt8 → CatalogError) :
    readMarker short invalid (0 :: rest) = .ok (false, rest) := rfl

theorem readMarker_one (short : CatalogError) (invalid : UInt8 → CatalogError) :
    readMarker short invalid (1 :: rest) = .ok (true, rest) := rfl

theorem decodeBool_one (field : String) : decodeBool field (1 :: rest) = .ok (true, rest) := rfl

theorem readMarker_boolByte (short : CatalogError) (invalid : UInt8 → CatalogError) (value : Bool) :
    readMarker short invalid (boolByte value ++ rest) = .ok (value, rest) := by
  cases value
  · exact readMarker_zero short invalid
  · exact readMarker_one short invalid

theorem decodeText_utf8 (invalid : CatalogError) (text : String) : decodeText invalid (utf8 text) = .ok text := by
  have valid : isUtf8 (utf8 text) = true := ByteArray.validateUTF8_eq_true_iff.mpr text.isValidUTF8
  rw [decodeText, if_pos valid, textOf_utf8]

theorem readText_encodeString (shortLength shortText invalid : CatalogError) {text : String} (short : ShortString text) :
    readText shortLength shortText invalid (encodeString text ++ rest) = .ok (text, rest) := by
  have counted : (utf8 text).length < 256 ^ 4 := short
  rw [readText, encodeString, sizedBytes, List.append_assoc, readU32_beBytes shortLength counted, ok_bind]
  simp only [toNat_count counted, readBytes_append shortText rfl, ok_bind, decodeText_utf8]

theorem readOptionalU64_encode (field : String) (short : CatalogError) (invalid : UInt8 → CatalogError)
    (value : Option UInt64) :
    readOptionalU64 field (readMarker short invalid) (encodeOptionalU64 value ++ rest) = .ok (value, rest) := by
  cases value with
  | none =>
    have padding : readU64 (truncated field) (beBytes 8 0 ++ rest) = .ok (0, rest) := readU64_u64Bytes _ 0
    simp only [readOptionalU64, encodeOptionalU64, optionBytes, List.cons_append, readMarker_zero, ok_bind, decodeU64,
      padding, Bool.false_eq_true, if_false]
  | some held =>
    simp only [readOptionalU64, encodeOptionalU64, optionBytes, List.cons_append, readMarker_one, ok_bind, decodeU64,
      readU64_u64Bytes, if_true]

theorem length_encodeStoredOrder (order : CatalogOrderId) : (encodeStoredOrder order).length = storedOrderLen := by
  simp [encodeStoredOrder, storedOrderLen]

theorem readStoredOrder_encode (field : String) (order : CatalogOrderId) :
    readStoredOrder field (encodeStoredOrder order ++ rest) = .ok (order, rest) := by
  have decoded : decodeStoredOrder field (encodeStoredOrder order) = .ok order := by
    rw [decodeStoredOrder, dif_pos (length_encodeStoredOrder order)]
    have kind : CatalogOrderKind.ofCode field order.kind.code = .ok order.kind := by cases order.kind <;> rfl
    simp only [encodeStoredOrder, List.headD_cons, kind, ok_bind]
    rfl
  simp only [readStoredOrder, readBytes_append _ (length_encodeStoredOrder order), ok_bind, decoded]

/-- What stands in for an absent order is skipped, whatever it is. -/
theorem readOptionalOrder_optionBytes (field : String) (short : CatalogError) (invalid : UInt8 → CatalogError)
    {filler : Bytes} (length : filler.length = storedOrderLen) (order : Option CatalogOrderId) :
    readOptionalOrder field (readMarker short invalid) (optionBytes filler encodeStoredOrder order ++ rest) =
      .ok (order, rest) := by
  cases order with
  | none =>
    simp only [readOptionalOrder, optionBytes, List.cons_append, readMarker_zero, ok_bind, Bool.false_eq_true, if_false,
      readBytes_append _ length]
  | some held =>
    simp only [readOptionalOrder, optionBytes, List.cons_append, readMarker_one, ok_bind, if_true,
      readStoredOrder_encode]

theorem readOptionalOrder_encode (field : String) (short : CatalogError) (invalid : UInt8 → CatalogError)
    (order : Option CatalogOrderId) :
    readOptionalOrder field (readMarker short invalid) (encodeOptionalOrder order ++ rest) = .ok (order, rest) :=
  readOptionalOrder_optionBytes field short invalid (length_encodeStoredOrder .zero) order

theorem decodeU64_u64Bytes (field : String) (value : UInt64) : decodeU64 field (u64Bytes value ++ rest) = .ok (value, rest) :=
  readU64_u64Bytes _ value

theorem decodeBool_boolByte (field : String) (value : Bool) : decodeBool field (boolByte value ++ rest) = .ok (value, rest) :=
  readMarker_boolByte _ _ value

theorem readOptionalU64_decodeBool (field marker : String) (value : Option UInt64) :
    readOptionalU64 field (decodeBool marker) (encodeOptionalU64 value ++ rest) = .ok (value, rest) :=
  readOptionalU64_encode _ _ _ value

theorem decodeString_encode (field : String) {text : String} (short : ShortString text) :
    decodeString field (encodeString text ++ rest) = .ok (text, rest) :=
  readText_encodeString _ _ _ short

theorem decodeOptionalString_encode (field : String) {text : Option String} (short : ShortOption text) :
    decodeOptionalString field (encodeOptionalString text ++ rest) = .ok (text, rest) := by
  cases text with
  | none => rfl
  | some held =>
    simp only [decodeOptionalString, encodeOptionalString, optionBytes, List.cons_append, decodeBool_one, ok_bind,
      if_true, decodeString_encode field (short held rfl)]

/-- The count comes back as the number of values; what follows are the values themselves. -/
theorem decodeU32_countedBytes {α : Type} {values : List α} (few : values.length < 256 ^ 4) (field : String)
    (encode : α → Bytes) :
    decodeU32 field (countedBytes 4 encode values ++ rest) =
      .ok (UInt32.ofNat values.length, values.flatMap encode ++ rest) := by
  rw [countedBytes, List.append_assoc, decodeU32, readU32_beBytes _ few]

end Fields

/-! ## Files -/

theorem readIf_of_le {α : Type} {since version : UInt8} (stored : since ≤ version) (absent : α)
    (decode : Reader CatalogError α) (bytes : Bytes) : readIf (since ≤ version) absent decode bytes = decode bytes := by
  rw [readIf, if_pos (decide_eq_true stored)]

theorem DataFileRow.decodeFields_encode {row : DataFileRow} (short : ShortString row.encryptionKey) :
    DataFileRow.decodeFields VERSION (row.encode.drop 1) = .ok row := by
  have known : VERSION_WITH_ROW_ID_KNOWN ≤ VERSION := by decide
  have mapping : (4 : UInt8) ≤ VERSION := by decide
  have maxPartial : (5 : UInt8) ≤ VERSION := by decide
  have footer : (6 : UInt8) ≤ VERSION := by decide
  have encryption : VERSION ≤ VERSION := by decide
  simp only [encode, List.cons_append, List.drop_succ_cons, List.drop_zero, List.append_assoc, ValidityWindow.encode,
    decodeFields, readDataFileMarker, ok_bind, decodeU64_u64Bytes, readIf_of_le known, readMarker_boolByte,
    readIf_of_le mapping, readOptionalU64_encode, readStoredOrder_encode, readOptionalOrder_encode,
    readIf_of_le maxPartial, readIf_of_le footer, readIf_of_le encryption, readText_encodeString _ _ _ short,
    decodeText_utf8]

theorem length_encodeOptionalU64 (value : Option UInt64) : (encodeOptionalU64 value).length = 1 + 8 := by
  cases value <;> simp [encodeOptionalU64, optionBytes, u64Bytes]

theorem length_encodeOptionalOrder (order : Option CatalogOrderId) :
    (encodeOptionalOrder order).length = 1 + storedOrderLen := by
  cases order <;> simp [encodeOptionalOrder, optionBytes, length_encodeStoredOrder, Nat.add_comm]

theorem DataFileRow.decode_supported {version : UInt8} {fields : Bytes} (supported : 3 ≤ version ∧ version ≤ VERSION)
    (long : minimumLen version ≤ (version :: fields).length) :
    DataFileRow.decode (version :: fields) = decodeFields version fields := by
  have known : ¬ (version < 3 ∨ VERSION < version) := by
    rw [not_or, UInt8.not_lt, UInt8.not_lt]
    exact supported
  simp only [decode, if_neg known, if_neg (Nat.not_lt.mpr long)]

theorem DataFileRow.decode_encode {row : DataFileRow} (short : ShortString row.encryptionKey) :
    DataFileRow.decode row.encode = .ok row := by
  have long : minimumLen VERSION ≤ row.encode.length := by
    have least : minimumLen VERSION = 117 := by decide
    simp only [encode, List.cons_append, List.length_cons, List.length_append, length_u64Bytes,
      length_encodeOptionalU64, length_encodeOptionalOrder, ValidityWindow.encode, length_encodeStoredOrder,
      encodeString, sizedBytes, beBytes_length, boolByte, List.length_nil, least, storedOrderLen]
    omega
  have starts : row.encode = VERSION :: row.encode.drop 1 := rfl
  rw [starts, decode_supported (by decide) (starts ▸ long)]
  exact decodeFields_encode short

theorem DeleteFileRow.decodeFields_encode {row : DeleteFileRow} (short : ShortString row.encryptionKey) :
    DeleteFileRow.decodeFields VERSION (row.encode.drop 1) = .ok row := by
  have maxPartial : VERSION_WITH_MAX_PARTIAL_ORDER ≤ VERSION := by decide
  have encryption : VERSION ≤ VERSION := by decide
  simp only [encode, List.cons_append, List.drop_succ_cons, List.drop_zero, List.append_assoc, ValidityWindow.encode,
    decodeFields, readDeleteFileMarker, ok_bind, decodeU64_u64Bytes, readStoredOrder_encode, readOptionalOrder_encode,
    readIf_of_le maxPartial, readIf_of_le encryption, readText_encodeString _ _ _ short, decodeText_utf8]

theorem DeleteFileRow.decode_current {fields : Bytes} (long : 86 ≤ (VERSION :: fields).length) :
    DeleteFileRow.decode (VERSION :: fields) = decodeFields VERSION fields := by
  have known : ¬ (VERSION ≠ VERSION ∧ VERSION ≠ VERSION_WITH_MAX_PARTIAL_ORDER ∧
      VERSION ≠ VERSION_WITHOUT_MAX_PARTIAL_ORDER) := by decide
  have least : ¬ (VERSION :: fields).length < minimumLen := by
    have length : minimumLen = 68 := by decide
    omega
  have complete : ¬ (VERSION :: fields).length < encryptionLengthStart VERSION := by
    have length : encryptionLengthStart VERSION = 86 := by decide
    omega
  simp only [decode, if_neg known, if_neg least, if_neg complete]

theorem DeleteFileRow.decode_encode {row : DeleteFileRow} (short : ShortString row.encryptionKey) :
    DeleteFileRow.decode row.encode = .ok row := by
  have long : 86 ≤ row.encode.length := by
    simp only [encode, List.cons_append, List.length_cons, List.length_append, length_u64Bytes,
      length_encodeOptionalOrder, ValidityWindow.encode, length_encodeStoredOrder, encodeString, sizedBytes,
      beBytes_length, storedOrderLen]
    omega
  have starts : row.encode = VERSION :: row.encode.drop 1 := rfl
  rw [starts, decode_current (starts ▸ long)]
  exact decodeFields_encode short

/-! ## Tables -/

theorem TableColumnRow.decode_reads : Reads {column | TableColumnRow.Short column} encode decode := by
  intro column short rest
  simp only [encode, decode, List.append_assoc, decodeU64_u64Bytes, ok_bind, decodeBool_boolByte,
    readOptionalU64_decodeBool, decodeString_encode _ short.name, decodeString_encode _ short.columnType,
    decodeOptionalString_encode _ short.comment, decodeOptionalString_encode _ short.initialDefault,
    decodeOptionalString_encode _ short.defaultValue, decodeString_encode _ short.defaultValueType]

theorem InlinedTableRow.decode_reads : Reads {table | ShortString table.tableName} encode decode := by
  intro table short rest
  simp only [encode, decode, List.append_assoc, decodeString_encode _ short, ok_bind, decodeU64_u64Bytes]

theorem TablePartitionFieldRow.decode_reads : Reads {field | ShortString field.transform} encode decode := by
  intro field short rest
  simp only [encode, decode, List.append_assoc, decodeString_encode _ short, ok_bind, decodeU64_u64Bytes]

theorem TableSortFieldRow.decode_reads : Reads {field | TableSortFieldRow.Short field} encode decode := by
  intro field short rest
  simp only [encode, decode, List.append_assoc, decodeU64_u64Bytes, ok_bind, decodeString_encode _ short.expression,
    decodeString_encode _ short.dialect, decodeString_encode _ short.sortDirection,
    decodeString_encode _ short.nullOrder]

theorem TablePartitionRow.decode_encode {partition : Option TablePartitionRow}
    (short : ∀ held ∈ partition, ShortList (fun field => ShortString field.transform) held.fields) (rest : Bytes) :
    decode (optionBytes [] encode partition ++ rest) = .ok (partition, rest) := by
  cases partition with
  | none => rfl
  | some held =>
    obtain ⟨few, inside⟩ := short held rfl
    simp only [decode, optionBytes, List.cons_append, decodeBool_one, ok_bind, if_true, encode, List.append_assoc,
      decodeU64_u64Bytes, decodeU32_countedBytes few, toNat_count few, TablePartitionFieldRow.decode_reads.many inside]

theorem TableSortRow.decode_encode {sort : Option TableSortRow}
    (short : ∀ held ∈ sort, ShortList TableSortFieldRow.Short held.fields) (rest : Bytes) :
    decode (optionBytes [] encode sort ++ rest) = .ok (sort, rest) := by
  cases sort with
  | none => rfl
  | some held =>
    obtain ⟨few, inside⟩ := short held rfl
    simp only [decode, optionBytes, List.cons_append, decodeBool_one, ok_bind, if_true, encode, List.append_assoc,
      decodeU64_u64Bytes, decodeU32_countedBytes few, toNat_count few, TableSortFieldRow.decode_reads.many inside]

theorem TableRow.decodeFields_encode {table : TableRow} (short : table.Short) :
    TableRow.decodeFields (table.encode.drop 1) = .ok table := by
  obtain ⟨fewColumns, columns⟩ := short.columns
  obtain ⟨fewInlined, inlined⟩ := short.inlinedDataTables
  have sorted := TableSortRow.decode_encode short.sort []
  rw [List.append_nil] at sorted
  simp only [encode, List.cons_append, List.drop_succ_cons, List.drop_zero, List.append_assoc, ValidityWindow.encode,
    decodeFields, decodeU64_u64Bytes, ok_bind, readStoredOrder_encode, readOptionalOrder_encode,
    decodeString_encode _ short.uuid, decodeString_encode _ short.name, decodeString_encode _ short.path,
    decodeOptionalString_encode _ short.comment, decodeU32_countedBytes fewColumns, toNat_count fewColumns,
    TableColumnRow.decode_reads.many columns, decodeU32_countedBytes fewInlined, toNat_count fewInlined,
    InlinedTableRow.decode_reads.many inlined, TablePartitionRow.decode_encode short.partition, sorted]

theorem TableRow.decode_current {fields : Bytes} (long : minimumLen ≤ (VERSION :: fields).length) :
    TableRow.decode (VERSION :: fields) = decodeFields fields := by
  have known : ¬ VERSION ≠ VERSION := by decide
  simp only [decode, if_neg known, if_neg (Nat.not_lt.mpr long)]

theorem TableRow.decode_encode {table : TableRow} (short : table.Short) : TableRow.decode table.encode = .ok table := by
  have long : minimumLen ≤ table.encode.length := by
    have least : minimumLen = 52 := by decide
    simp only [encode, List.cons_append, List.length_cons, List.length_append, length_u64Bytes,
      length_encodeOptionalOrder, ValidityWindow.encode, length_encodeStoredOrder, storedOrderLen, least]
    omega
  have starts : table.encode = VERSION :: table.encode.drop 1 := rfl
  rw [starts, decode_current (starts ▸ long)]
  exact decodeFields_encode short

/-! ## Stamped orders -/

def CatalogOrderId.restamp (order : CatalogOrderId) (stamp : Vector UInt8 16) : CatalogOrderId :=
  { order with bytes := stamp }

def ValidityWindow.restampBegin (validity : ValidityWindow) (stamp : Vector UInt8 16) : ValidityWindow :=
  { validity with beginOrder := validity.beginOrder.restamp stamp }

def ValidityWindow.restampEnd (validity : ValidityWindow) (stamp : Vector UInt8 16) : ValidityWindow :=
  { validity with endOrder := validity.endOrder.map (·.restamp stamp) }

section Stamps

variable (stamp : Vector UInt8 16) (rest : Bytes)

/-- The bytes of an order stand behind the byte of its kind. -/
theorem overwrite_storedOrder (order : CatalogOrderId) :
    overwrite 1 stamp.toList (encodeStoredOrder order ++ rest) = encodeStoredOrder (order.restamp stamp) ++ rest := by
  have stamped := @overwrite_middle _ [order.kind.code] order.bytes.toList stamp.toList rest (by simp)
  simpa [encodeStoredOrder, CatalogOrderId.restamp] using stamped

theorem overwrite_optionalOrder {order : Option CatalogOrderId} (present : order.isSome) :
    overwrite 2 stamp.toList (encodeOptionalOrder order ++ rest) =
      encodeOptionalOrder (order.map (·.restamp stamp)) ++ rest := by
  obtain ⟨held, rfl⟩ := Option.isSome_iff_exists.mp present
  have stamped := overwrite_append [1] stamp.toList (encodeStoredOrder held ++ rest) 1
  rw [overwrite_storedOrder] at stamped
  exact stamped

theorem ValidityWindow.overwrite_begin (validity : ValidityWindow) :
    overwrite 1 stamp.toList (validity.encode ++ rest) = (validity.restampBegin stamp).encode ++ rest := by
  simp only [ValidityWindow.encode, List.append_assoc, overwrite_storedOrder, restampBegin]

theorem ValidityWindow.overwrite_end {validity : ValidityWindow} (present : validity.endOrder.isSome) :
    overwrite (storedOrderLen + 2) stamp.toList (validity.encode ++ rest) =
      (validity.restampEnd stamp).encode ++ rest := by
  rw [ValidityWindow.encode, List.append_assoc, ← length_encodeStoredOrder validity.beginOrder, overwrite_append,
    overwrite_optionalOrder _ _ present, restampEnd, ValidityWindow.encode, List.append_assoc]

theorem length_validity (validity : ValidityWindow) : validity.encode.length = storedOrderLen + (1 + storedOrderLen) := by
  rw [ValidityWindow.encode, List.length_append, length_encodeStoredOrder, length_encodeOptionalOrder]

/-- The optional order behind a validity window, as both kinds of file rows have it. -/
theorem overwrite_maxPartial (validity : ValidityWindow) {order : Option CatalogOrderId} (present : order.isSome) :
    overwrite (storedOrderLen + (1 + storedOrderLen) + 2) stamp.toList
        (validity.encode ++ (encodeOptionalOrder order ++ rest)) =
      validity.encode ++ (encodeOptionalOrder (order.map (·.restamp stamp)) ++ rest) := by
  rw [← length_validity validity, overwrite_append, overwrite_optionalOrder _ _ present]

end Stamps

namespace DataFileRow

def front (row : DataFileRow) : Bytes :=
  8 :: u64Bytes row.dataFileId ++ u64Bytes row.tableId ++ u64Bytes row.recordCount ++ u64Bytes row.fileSizeBytes ++
    u64Bytes row.rowIdStart ++ boolByte row.rowIdStartKnown ++ encodeOptionalU64 row.mappingId

theorem length_front (row : DataFileRow) : row.front.length = 51 := by
  simp [front, boolByte, length_encodeOptionalU64]

def back (row : DataFileRow) : Bytes :=
  encodeOptionalU64 row.footerSize ++ encodeString row.encryptionKey ++ utf8 row.path

theorem encode_eq (row : DataFileRow) :
    row.encode = row.front ++ (row.validity.encode ++ (encodeOptionalOrder row.maxPartialOrder ++ row.back)) := by
  simp [encode, front, back]

variable (row : DataFileRow) (stamp : Vector UInt8 16)

theorem overwrite_begin :
    overwrite BEGIN_ORDER_BYTES_OFFSET stamp.toList row.encode =
      encode { row with validity := row.validity.restampBegin stamp } := by
  have position : BEGIN_ORDER_BYTES_OFFSET = row.front.length + 1 := by rw [length_front]; rfl
  rw [encode_eq, position, overwrite_append, ValidityWindow.overwrite_begin, encode_eq]
  rfl

theorem overwrite_end (present : row.validity.endOrder.isSome) :
    overwrite END_ORDER_BYTES_OFFSET stamp.toList row.encode =
      encode { row with validity := row.validity.restampEnd stamp } := by
  have position : END_ORDER_BYTES_OFFSET = row.front.length + (storedOrderLen + 2) := by rw [length_front]; rfl
  rw [encode_eq, position, overwrite_append, ValidityWindow.overwrite_end _ _ present, encode_eq]
  rfl

theorem overwrite_maxPartial (present : row.maxPartialOrder.isSome) :
    overwrite MAX_PARTIAL_ORDER_BYTES_OFFSET stamp.toList row.encode =
      encode { row with maxPartialOrder := row.maxPartialOrder.map (·.restamp stamp) } := by
  have position : MAX_PARTIAL_ORDER_BYTES_OFFSET = row.front.length + (storedOrderLen + (1 + storedOrderLen) + 2) := by
    rw [length_front]
    rfl
  rw [encode_eq, position, overwrite_append, Wire.overwrite_maxPartial _ _ _ present, encode_eq]
  rfl

end DataFileRow

namespace DeleteFileRow

def front (row : DeleteFileRow) : Bytes :=
  4 :: u64Bytes row.deleteFileId ++ u64Bytes row.dataFileId ++ u64Bytes row.recordCount ++ u64Bytes row.fileSizeBytes

theorem length_front (row : DeleteFileRow) : row.front.length = 33 := by
  simp [front]

def back (row : DeleteFileRow) : Bytes := encodeString row.encryptionKey ++ utf8 row.path

theorem encode_eq (row : DeleteFileRow) :
    row.encode = row.front ++ (row.validity.encode ++ (encodeOptionalOrder row.maxPartialOrder ++ row.back)) := by
  simp [encode, front, back]

variable (row : DeleteFileRow) (stamp : Vector UInt8 16)

theorem overwrite_begin :
    overwrite BEGIN_ORDER_BYTES_OFFSET stamp.toList row.encode =
      encode { row with validity := row.validity.restampBegin stamp } := by
  have position : BEGIN_ORDER_BYTES_OFFSET = row.front.length + 1 := by rw [length_front]; rfl
  rw [encode_eq, position, overwrite_append, ValidityWindow.overwrite_begin, encode_eq]
  rfl

theorem overwrite_end (present : row.validity.endOrder.isSome) :
    overwrite END_ORDER_BYTES_OFFSET stamp.toList row.encode =
      encode { row with validity := row.validity.restampEnd stamp } := by
  have position : END_ORDER_BYTES_OFFSET = row.front.length + (storedOrderLen + 2) := by rw [length_front]; rfl
  rw [encode_eq, position, overwrite_append, ValidityWindow.overwrite_end _ _ present, encode_eq]
  rfl

theorem overwrite_maxPartial (present : row.maxPartialOrder.isSome) :
    overwrite MAX_PARTIAL_ORDER_BYTES_OFFSET stamp.toList row.encode =
      encode { row with maxPartialOrder := row.maxPartialOrder.map (·.restamp stamp) } := by
  have position : MAX_PARTIAL_ORDER_BYTES_OFFSET = row.front.length + (storedOrderLen + (1 + storedOrderLen) + 2) := by
    rw [length_front]
    rfl
  rw [encode_eq, position, overwrite_append, Wire.overwrite_maxPartial _ _ _ present, encode_eq]
  rfl

end DeleteFileRow

namespace TableRow

def front (table : TableRow) : Bytes := 8 :: u64Bytes table.tableId ++ u64Bytes table.schemaId

theorem length_front (table : TableRow) : table.front.length = 17 := by
  simp [front]

def back (table : TableRow) : Bytes :=
  encodeString table.uuid ++ encodeString table.name ++ encodeString table.path ++
    encodeOptionalString table.comment ++ countedBytes 4 TableColumnRow.encode table.columns ++
    countedBytes 4 InlinedTableRow.encode table.inlinedDataTables ++
    optionBytes [] TablePartitionRow.encode table.partition ++ optionBytes [] TableSortRow.encode table.sort

theorem encode_eq (table : TableRow) : table.encode = table.front ++ (table.validity.encode ++ table.back) := by
  simp [encode, front, back]

variable (table : TableRow) (stamp : Vector UInt8 16)

theorem overwrite_begin :
    overwrite BEGIN_ORDER_BYTES_OFFSET stamp.toList table.encode =
      encode { table with validity := table.validity.restampBegin stamp } := by
  have position : BEGIN_ORDER_BYTES_OFFSET = table.front.length + 1 := by rw [length_front]; rfl
  rw [encode_eq, position, overwrite_append, ValidityWindow.overwrite_begin, encode_eq]
  rfl

theorem overwrite_end (present : table.validity.endOrder.isSome) :
    overwrite END_ORDER_BYTES_OFFSET stamp.toList table.encode =
      encode { table with validity := table.validity.restampEnd stamp } := by
  have position : END_ORDER_BYTES_OFFSET = table.front.length + (storedOrderLen + 2) := by rw [length_front]; rfl
  rw [encode_eq, position, overwrite_append, ValidityWindow.overwrite_end _ _ present, encode_eq]
  rfl

end TableRow

/-- Every row that keeps its strings and lists below four bytes of length comes back as it
was written, and the offsets hit exactly the bytes of the orders they are named after. -/
theorem rows_readBack_and_stamp :
    ((∀ row : DataFileRow, ShortString row.encryptionKey → DataFileRow.decode row.encode = .ok row) ∧
      (∀ row : DeleteFileRow, ShortString row.encryptionKey → DeleteFileRow.decode row.encode = .ok row) ∧
      ∀ table : TableRow, table.Short → TableRow.decode table.encode = .ok table) ∧
    (∀ (row : DataFileRow) (stamp : Vector UInt8 16),
      overwrite DataFileRow.BEGIN_ORDER_BYTES_OFFSET stamp.toList row.encode =
          DataFileRow.encode { row with validity := row.validity.restampBegin stamp } ∧
        (row.validity.endOrder.isSome → overwrite DataFileRow.END_ORDER_BYTES_OFFSET stamp.toList row.encode =
          DataFileRow.encode { row with validity := row.validity.restampEnd stamp }) ∧
        (row.maxPartialOrder.isSome → overwrite DataFileRow.MAX_PARTIAL_ORDER_BYTES_OFFSET stamp.toList row.encode =
          DataFileRow.encode { row with maxPartialOrder := row.maxPartialOrder.map (·.restamp stamp) })) ∧
    (∀ (row : DeleteFileRow) (stamp : Vector UInt8 16),
      overwrite DeleteFileRow.BEGIN_ORDER_BYTES_OFFSET stamp.toList row.encode =
          DeleteFileRow.encode { row with validity := row.validity.restampBegin stamp } ∧
        (row.validity.endOrder.isSome → overwrite DeleteFileRow.END_ORDER_BYTES_OFFSET stamp.toList row.encode =
          DeleteFileRow.encode { row with validity := row.validity.restampEnd stamp }) ∧
        (row.maxPartialOrder.isSome → overwrite DeleteFileRow.MAX_PARTIAL_ORDER_BYTES_OFFSET stamp.toList row.encode =
          DeleteFileRow.encode { row with maxPartialOrder := row.maxPartialOrder.map (·.restamp stamp) })) ∧
    (∀ (table : TableRow) (stamp : Vector UInt8 16),
      overwrite TableRow.BEGIN_ORDER_BYTES_OFFSET stamp.toList table.encode =
          TableRow.encode { table with validity := table.validity.restampBegin stamp } ∧
        (table.validity.endOrder.isSome → overwrite TableRow.END_ORDER_BYTES_OFFSET stamp.toList table.encode =
          TableRow.encode { table with validity := table.validity.restampEnd stamp })) := by
  refine ⟨⟨?_, ?_, ?_⟩, ?_, ?_, ?_⟩
  · intro row short
    exact DataFileRow.decode_encode short
  · intro row short
    exact DeleteFileRow.decode_encode short
  · intro table short
    exact TableRow.decode_encode short
  · intro row stamp
    exact ⟨row.overwrite_begin stamp, row.overwrite_end stamp, row.overwrite_maxPartial stamp⟩
  · intro row stamp
    exact ⟨row.overwrite_begin stamp, row.overwrite_end stamp, row.overwrite_maxPartial stamp⟩
  · intro table stamp
    exact ⟨table.overwrite_begin stamp, table.overwrite_end stamp⟩

/-- A closed data file that was merged up to a later order, without footer or mapping. -/
def mergedFile : DataFileRow where
  dataFileId := 3
  tableId := 1
  path := "a.parquet"
  recordCount := 10
  fileSizeBytes := 100
  footerSize := none
  encryptionKey := "k"
  rowIdStart := 0
  rowIdStartKnown := true
  mappingId := none
  maxPartialOrder := some ⟨.uuidV7, Vector.replicate 16 2⟩
  validity := ⟨⟨.fdbVersionstamp, Vector.replicate 16 1⟩, some ⟨.fdbVersionstamp, Vector.replicate 16 3⟩⟩

def sortedTable : TableRow where
  tableId := 1
  schemaId := 0
  uuid := "u"
  name := "t"
  path := "p"
  comment := none
  columns := [⟨4, "c", "int64", true, none, some "note", none, none, "literal", true⟩]
  inlinedDataTables := [⟨"ducklake_inlined_data_1_0", 0⟩]
  partition := none
  sort := some ⟨7, [⟨0, "c", "duckdb", "ASC", "NULLS LAST"⟩]⟩
  validity := ⟨⟨.fdbVersionstamp, Vector.replicate 16 1⟩, none⟩

theorem shortOption_none : ShortOption none := by
  intro held member
  cases member

theorem shortOption_some {text : String} (short : ShortString text) : ShortOption (some text) := by
  intro held member
  cases member
  exact short

theorem sortedTable_short : sortedTable.Short where
  uuid := by decide
  name := by decide
  path := by decide
  comment := shortOption_none
  columns := by
    refine ⟨by decide, ?_⟩
    intro column member
    obtain rfl := List.mem_singleton.mp member
    exact ⟨by decide, by decide, shortOption_some (by decide), shortOption_none, shortOption_none, by decide⟩
  inlinedDataTables := by
    refine ⟨by decide, ?_⟩
    intro inlined member
    obtain rfl := List.mem_singleton.mp member
    decide
  partition := by
    intro held member
    cases member
  sort := by
    intro held member
    cases member
    refine ⟨by decide, ?_⟩
    intro field listed
    obtain rfl := List.mem_singleton.mp listed
    exact ⟨by decide, by decide, by decide, by decide⟩

theorem rows_readBack_and_stamp_sample :
    DataFileRow.decode mergedFile.encode = .ok mergedFile ∧ TableRow.decode sortedTable.encode = .ok sortedTable ∧
      overwrite DataFileRow.END_ORDER_BYTES_OFFSET (Vector.replicate 16 9).toList mergedFile.encode =
        DataFileRow.encode { mergedFile with validity := mergedFile.validity.restampEnd (Vector.replicate 16 9) } := by
  obtain ⟨⟨files, _, tables⟩, stamps, _⟩ := rows_readBack_and_stamp
  exact ⟨files mergedFile (by decide), tables sortedTable sortedTable_short, (stamps mergedFile _).2.1 rfl⟩

end DucklakeCatalog.Wire
