import DucklakeCatalog.Inline.Assembly
import DucklakeCatalog.Wire.RowRoundTrips

/-! The stored chunks of an inline payload: their bytes, and the payload that any reader of
the stored rows puts together again. -/
namespace DucklakeCatalog.Wire

open ByteCodec KeyedStore

structure InlineTableChunkRow where
  tableId : UInt64
  schemaId : UInt64
  validity : ValidityWindow
  chunkIndex : UInt32
  chunkCount : UInt32
  payload : Bytes
  deriving DecidableEq

def encodeInlineEndOrder (validity : ValidityWindow) : Bytes :=
  optionBytes (List.replicate storedOrderLen 0) encodeStoredOrder validity.endOrder

namespace InlineTableChunkRow

def VERSION : UInt8 := 1
def HEADER_LEN : Nat := 1 + 8 + 8 + storedOrderLen + 1 + storedOrderLen + 4 + 4 + 4

def encode (row : InlineTableChunkRow) : Bytes :=
  VERSION :: u64Bytes row.tableId ++ u64Bytes row.schemaId ++ encodeStoredOrder row.validity.beginOrder ++
    encodeInlineEndOrder row.validity ++ u32Bytes row.chunkIndex ++ u32Bytes row.chunkCount ++
    sizedBytes 4 row.payload

def decodeFields (bytes : Bytes) : CatalogResult InlineTableChunkRow := do
  let (tableId, bytes) ← decodeU64 "inline table id" bytes
  let (schemaId, bytes) ← decodeU64 "inline schema id" bytes
  let (beginOrder, bytes) ← readStoredOrder "inline begin order" bytes
  let (endOrder, bytes) ← readOptionalOrder "inline end order" (readMarker (truncated "inline end-order flag")
    fun other => .decode s!"unsupported inline end-order flag {other}") bytes
  let (chunkIndex, bytes) ← decodeU32 "inline chunk index" bytes
  let (chunkCount, bytes) ← decodeU32 "inline chunk count" bytes
  let (_, payload) ← decodeU32 "inline payload length" bytes
  .ok { tableId, schemaId, validity := ⟨beginOrder, endOrder⟩, chunkIndex, chunkCount, payload }

/-- The length of the payload is checked against the row before any field is read. -/
def decode (bytes : Bytes) : CatalogResult InlineTableChunkRow :=
  if bytes.length < HEADER_LEN then .error (.decode s!"inline table chunk row is too short: {bytes.length} bytes")
  else if bytes.headD 0 ≠ VERSION then
    .error (.decode s!"unsupported inline table chunk row version {bytes.headD 0}")
  else
    let payloadLen := beNumber ((bytes.drop (HEADER_LEN - 4)).take 4)
    if bytes.length ≠ HEADER_LEN + payloadLen then
      .error (.decode s!"inline table chunk payload must be {payloadLen} bytes, got {bytes.length - HEADER_LEN}")
    else decodeFields (bytes.drop 1)

end InlineTableChunkRow

/-- A finished payload cut into rows of at most `inlineChunkBytes` bytes. -/
def inlineTableChunks (tableId schemaId : UInt64) (beginOrder : CatalogOrderId) (payload : Bytes) :
    CatalogResult (List InlineTableChunkRow) := do
  let count ← chunkCount payload.length
  .ok ((List.range count).map fun chunkIndex =>
    { tableId, schemaId, validity := ⟨beginOrder, none⟩, chunkIndex := UInt32.ofNat chunkIndex,
      chunkCount := UInt32.ofNat count, payload := chunkPayload payload chunkIndex })

/-- The row the rest of the development works with: numbers without a width, and orders as
the numbers their bytes spell. -/
def InlineTableChunkRow.toRow (row : InlineTableChunkRow) : DucklakeCatalog.InlineTableChunkRow where
  tableId := row.tableId.toNat
  schemaId := row.schemaId.toNat
  validity := ⟨beNumber row.validity.beginOrder.bytes.toList,
    row.validity.endOrder.map fun order => beNumber order.bytes.toList⟩
  chunkIndex := row.chunkIndex.toNat
  chunkCount := row.chunkCount.toNat
  payload := row.payload

/-- What a reader of stored rows does: each row is decoded, then the payload is assembled. -/
def readInlinePayload (stored : List Bytes) : CatalogResult (List UInt8) := do
  let rows ← stored.mapM InlineTableChunkRow.decode
  assembleInlinePayload (rows.map InlineTableChunkRow.toRow)

/-! ## Rows -/

namespace InlineTableChunkRow

def front (row : InlineTableChunkRow) : Bytes :=
  VERSION :: u64Bytes row.tableId ++ u64Bytes row.schemaId ++ encodeStoredOrder row.validity.beginOrder ++
    encodeInlineEndOrder row.validity ++ u32Bytes row.chunkIndex ++ u32Bytes row.chunkCount

theorem length_front (row : InlineTableChunkRow) : row.front.length = HEADER_LEN - 4 := by
  have endOrder : (encodeInlineEndOrder row.validity).length = 1 + storedOrderLen := by
    cases ended : row.validity.endOrder <;>
      simp [encodeInlineEndOrder, ended, optionBytes, length_encodeStoredOrder, Nat.add_comm]
  simp [front, endOrder, length_encodeStoredOrder, u32Bytes, HEADER_LEN, storedOrderLen]

theorem encode_eq (row : InlineTableChunkRow) :
    row.encode = row.front ++ (beBytes 4 row.payload.length ++ row.payload) := by
  simp [encode, front, sizedBytes]

theorem decodeFields_encode {row : InlineTableChunkRow} (short : row.payload.length < 256 ^ 4) :
    decodeFields (row.encode.drop 1) = .ok row := by
  have filler : (List.replicate storedOrderLen (0 : UInt8)).length = storedOrderLen := List.length_replicate
  simp only [encode, List.cons_append, List.drop_succ_cons, List.drop_zero, List.append_assoc, decodeFields,
    decodeU64_u64Bytes, ok_bind, readStoredOrder_encode, encodeInlineEndOrder,
    readOptionalOrder_optionBytes _ _ _ filler, decodeU32, readU32_u32Bytes, sizedBytes, readU32_beBytes _ short]

theorem decode_encode {row : InlineTableChunkRow} (short : row.payload.length < 256 ^ 4) :
    decode row.encode = .ok row := by
  have length : row.encode.length = HEADER_LEN + row.payload.length := by
    rw [encode_eq, List.length_append, length_front, List.length_append, beBytes_length, ← Nat.add_assoc]
    rfl
  have announced : beNumber ((row.encode.drop (HEADER_LEN - 4)).take 4) = row.payload.length := by
    rw [encode_eq, ← length_front row, List.drop_left, List.take_left' (beBytes_length 4 _), beNumber_beBytes short]
  have header : ¬ row.encode.length < HEADER_LEN := by omega
  have version : ¬ row.encode.headD 0 ≠ VERSION := not_not.mpr rfl
  rw [decode, if_neg header, if_neg version]
  simp only [announced, length, ne_eq, not_true_eq_false, if_false]
  exact decodeFields_encode short

end InlineTableChunkRow

/-! ## Payloads -/

/-- The stored rows are the rows of the model at the widths of the source. -/
theorem inlineTableChunks_toRow (tableId schemaId : UInt64) (beginOrder : CatalogOrderId) {payload : Bytes}
    {count : Nat} (counted : chunkCount payload.length = .ok count) :
    ∃ rows, inlineTableChunks tableId schemaId beginOrder payload = .ok rows ∧
      DucklakeCatalog.inlineTableChunks tableId.toNat schemaId.toNat (beNumber beginOrder.bytes.toList) payload =
        .ok (rows.map InlineTableChunkRow.toRow) := by
  have few : count < 2 ^ 32 := Nat.lt_succ_of_le (chunkCount_le counted)
  simp only [inlineTableChunks, DucklakeCatalog.inlineTableChunks, counted, ok_bind]
  refine ⟨_, rfl, ?_⟩
  rw [List.map_map]
  apply congrArg Except.ok
  apply List.map_congr_left
  intro chunkIndex listed
  have index : chunkIndex < 2 ^ 32 := (List.mem_range.mp listed).trans few
  simp only [Function.comp_apply, InlineTableChunkRow.toRow, toNat_count few, toNat_count index, Option.map_none]

theorem length_chunkPayload_le (payload : Bytes) (chunkIndex : Nat) :
    (chunkPayload payload chunkIndex).length ≤ inlineChunkBytes :=
  List.length_take_le _ _

theorem length_inlineTableChunks {tableId schemaId : UInt64} {beginOrder : CatalogOrderId} {payload : Bytes}
    {rows : List InlineTableChunkRow} (chunked : inlineTableChunks tableId schemaId beginOrder payload = .ok rows)
    {row : InlineTableChunkRow} (member : row ∈ rows) : row.payload.length < 256 ^ 4 := by
  rw [inlineTableChunks, bind_eq_ok] at chunked
  obtain ⟨count, _, rowsEq⟩ := chunked
  cases rowsEq
  obtain ⟨chunkIndex, _, rfl⟩ := List.mem_map.mp member
  exact Nat.lt_of_le_of_lt (length_chunkPayload_le payload chunkIndex) (by decide)

theorem mapM_decode {stored : List InlineTableChunkRow} (short : ∀ row ∈ stored, row.payload.length < 256 ^ 4) :
    (stored.map InlineTableChunkRow.encode).mapM InlineTableChunkRow.decode = .ok stored := by
  induction stored with
  | nil => rfl
  | cons row rest ih =>
    have first := InlineTableChunkRow.decode_encode (short row (List.mem_cons_self ..))
    have later := ih fun other member => short other (List.mem_cons_of_mem _ member)
    rw [List.map_cons, List.mapM_cons, first, later]
    rfl

/-- Whatever was accepted for writing is read back, from its stored rows in any order. -/
theorem readInlinePayload_chunks (tableId schemaId : UInt64) (beginOrder : CatalogOrderId) {payload : Bytes}
    (fits : validateInlineTableRowsFitFdb payload = .ok ()) {count : Nat}
    (counted : chunkCount payload.length = .ok count) :
    ∃ rows, inlineTableChunks tableId schemaId beginOrder payload = .ok rows ∧
      ∀ stored : List InlineTableChunkRow, stored.Perm rows →
        readInlinePayload (stored.map InlineTableChunkRow.encode) = .ok payload := by
  obtain ⟨rows, chunked, model⟩ := inlineTableChunks_toRow tableId schemaId beginOrder counted
  refine ⟨rows, chunked, ?_⟩
  intro stored permuted
  have short : ∀ row ∈ stored, row.payload.length < 256 ^ 4 :=
    fun row member => length_inlineTableChunks chunked (permuted.mem_iff.mp member)
  have numbered : ((rows.map InlineTableChunkRow.toRow).map DucklakeCatalog.InlineTableChunkRow.chunkIndex).Nodup := by
    obtain ⟨chunks, _, _, same⟩ := inlineTableChunks_ok model
    rw [same, List.map_map]
    exact List.nodup_range.map fun _ _ equal => equal
  rw [readInlinePayload, mapM_decode short, ok_bind,
    assembleInlinePayload_perm (permuted.map InlineTableChunkRow.toRow) numbered]
  exact assembleInlinePayload_chunks fits model

theorem readInlinePayload_chunks_unterminated :
    ∃ rows, inlineTableChunks 1 0 .zero [114, 111, 119] = .ok rows ∧
      ∀ stored : List InlineTableChunkRow, stored.Perm rows →
        readInlinePayload (stored.map InlineTableChunkRow.encode) = .ok [114, 111, 119] :=
  @readInlinePayload_chunks 1 0 .zero [114, 111, 119] (by decide) 1 (by decide)

end DucklakeCatalog.Wire
