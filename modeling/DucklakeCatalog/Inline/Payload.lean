import DucklakeCatalog.Kv.Rows
import Mathlib.Data.List.Sort

namespace DucklakeCatalog

def newline : UInt8 := 10
def carriageReturn : UInt8 := 13
def tab : UInt8 := 9

def inlinePayloadLimitBytes : Nat := 90 * 1024
def inlineChunkBytes : Nat := 16 * 1024
def u32Max : Nat := 2 ^ 32 - 1

/-! ## Lines of a payload -/

/-- `split_inclusive` on the newline byte: every fragment but the last ends with it. -/
def splitInclusive : List UInt8 → List (List UInt8)
  | [] => []
  | byte :: rest =>
    if byte = newline then [byte] :: splitInclusive rest
    else
      match splitInclusive rest with
      | [] => [[byte]]
      | fragment :: fragments => (byte :: fragment) :: fragments

/-- `str::lines` drops a newline and a carriage return before it, but never a lone carriage return. -/
def stripLineEnd (fragment : List UInt8) : List UInt8 :=
  if fragment.getLast? = some newline then
    let line := fragment.dropLast
    if line.getLast? = some carriageReturn then line.dropLast else line
  else
    fragment

def payloadLines (payload : List UInt8) : List (List UInt8) :=
  (splitInclusive payload).map stripLineEnd

def isUtf8 (payload : List UInt8) : Bool :=
  ByteArray.validateUTF8 ⟨payload.toArray⟩

def textOf (bytes : List UInt8) : String :=
  (String.fromUTF8? ⟨bytes.toArray⟩).getD ""

/-! ## Row ids -/

def digitValue (byte : UInt8) : Option Nat :=
  if 48 ≤ byte.toNat ∧ byte.toNat ≤ 57 then some (byte.toNat - 48) else none

def parseDigits (digits : List UInt8) : Option Nat :=
  digits.foldlM (fun value byte => (digitValue byte).map fun digit => value * 10 + digit) 0

/-- `str::parse::<u64>`: one optional plus sign, then digits that fit 64 bits. -/
def parseU64 (text : List UInt8) : Option Nat := do
  let digits := if text.head? = some 43 then text.tail else text
  if digits = [] then none
  else
    let value ← parseDigits digits
    if value ≤ u64Max then some value else none

def rowTag : List UInt8 := [114, 111, 119]

inductive InlinePayloadError where
  | notUtf8
  | invalidShape (line : List UInt8)
  | invalidRowId (text : List UInt8)
  deriving DecidableEq, Repr

def InlinePayloadError.toCatalogError : InlinePayloadError → CatalogError
  | .notUtf8 => .decode "inline payload is not utf-8"
  | .invalidShape line => .decode s!"inline payload row has invalid shape: {textOf line}"
  | .invalidRowId text => .decode s!"inline row id {textOf text} is invalid"

def inlineRowId (line : List UInt8) : Except InlinePayloadError Nat :=
  match line.splitOn tab with
  | tag :: rowId :: _ =>
    if tag = rowTag then (parseU64 rowId).elim (.error (.invalidRowId rowId)) .ok
    else .error (.invalidShape line)
  | _ => .error (.invalidShape line)

/-- Ids and bytes of the non-empty lines. -/
def inlinePayloadRows (payload : List UInt8) : Except InlinePayloadError (List (Nat × List UInt8)) :=
  if isUtf8 payload then
    ((payloadLines payload).filter fun line => line ≠ []).mapM fun line => do
      let rowId ← inlineRowId line
      return (rowId, line)
  else
    .error .notUtf8

/-- Payloads that are not row text have no row ids; a malformed id is still an error. -/
def optionalInlinePayloadRows (payload : List UInt8) : CatalogResult (List (Nat × List UInt8)) :=
  match inlinePayloadRows payload with
  | .ok rows => .ok rows
  | .error .notUtf8 => .ok []
  | .error (.invalidShape _) => .ok []
  | .error failure => .error failure.toCatalogError

def inlinePayloadRowIdLine (line : List UInt8) : Except InlinePayloadError Nat :=
  if line.take 4 = rowTag ++ [tab] then
    let rowId := ((line.drop 4).splitOn tab).headD []
    (parseU64 rowId).elim (.error (.invalidRowId rowId)) .ok
  else
    .error (.invalidShape line)

/-- The set of row ids the duplicate check walks. -/
def inlinePayloadRowIds (payload : List UInt8) : CatalogResult (List Nat) :=
  if isUtf8 payload then
    match (payloadLines payload).mapM inlinePayloadRowIdLine with
    | .ok rowIds => .ok (rowIds.dedup.insertionSort (· ≤ ·))
    | .error failure => .error failure.toCatalogError
  else
    .error InlinePayloadError.notUtf8.toCatalogError

/-- The ids come from a set, so the check can only fail on a payload it cannot read. -/
def rejectDuplicateInlineRowIdsInPayload (payload : List UInt8) : CatalogResult Unit := do
  let rowIds ← inlinePayloadRowIds payload
  match rowIds.find? fun rowId => 1 < rowIds.count rowId with
  | some rowId => .error (.invalidMutation s!"inline row id {rowId} appears more than once in one payload")
  | none => .ok ()

/-- The line holding the wanted row id, with its newline put back. -/
def inlinePayloadRow (payload : List UInt8) (wantedRowId : Nat) : CatalogResult (Option (List UInt8)) :=
  if isUtf8 payload then search (payloadLines payload)
  else .error InlinePayloadError.notUtf8.toCatalogError
where
  search : List (List UInt8) → CatalogResult (Option (List UInt8))
    | [] => .ok none
    | line :: rest =>
      match inlineRowId line with
      | .error failure => .error failure.toCatalogError
      | .ok rowId => if rowId = wantedRowId then .ok (some (line ++ [newline])) else search rest

/-! ## Chunks of a payload -/

def validateInlineTableRowsFitFdb (payload : List UInt8) : CatalogResult Unit :=
  (payload.splitOn newline).forM fun row =>
    if row = [] then .ok ()
    else if row.length + 1 > inlinePayloadLimitBytes then
      .error (.invalidMutation s!"inline row is {row.length + 1} bytes, over {inlinePayloadLimitBytes} byte limit")
    else .ok ()

def chunkCount (payloadLen : Nat) : CatalogResult Nat :=
  let count := if payloadLen = 0 then 1 else (payloadLen + (inlineChunkBytes - 1)) / inlineChunkBytes
  if count ≤ u32Max then .ok count else .error (.invalidMutation "inline payload has too many chunks")

def chunkPayload (payload : List UInt8) (chunkIndex : Nat) : List UInt8 :=
  (payload.drop (chunkIndex * inlineChunkBytes)).take inlineChunkBytes

def inlineTableChunks (tableId : TableId) (schemaId : SchemaId) (beginOrder : CatalogOrderId)
    (payload : List UInt8) : CatalogResult (List InlineTableChunkRow) := do
  let count ← chunkCount payload.length
  return (List.range count).map fun chunkIndex =>
    { tableId, schemaId, validity := ⟨beginOrder, none⟩, chunkIndex, chunkCount := count,
      payload := chunkPayload payload chunkIndex }

def validateContiguousChunks (observedLen chunkCount : Nat) : CatalogResult Unit :=
  if observedLen = chunkCount then .ok ()
  else .error (.decode s!"inline payload expected {chunkCount} chunk(s), got {observedLen}")

def validateRowBytes (bytes : Nat) : CatalogResult Unit :=
  if bytes > inlinePayloadLimitBytes then
    .error (.invalidMutation s!"inline row is {bytes} bytes, over {inlinePayloadLimitBytes} byte limit")
  else .ok ()

/-- Bytes of the line still open after the fragment; a finished line must fit the limit. -/
def countLineBytes (lineBytes : Nat) (fragment : List UInt8) : CatalogResult Nat :=
  let lineBytes := lineBytes + fragment.length
  if fragment.getLast? = some newline then do
    validateRowBytes lineBytes
    return 0
  else .ok lineBytes

def validatePayloadChunks (rows : List InlineTableChunkRow) : CatalogResult Unit :=
  match rows with
  | [] => .error (.decode "inline payload has no chunks")
  | first :: _ => do
    validateContiguousChunks rows.length first.chunkCount
    let lineBytes ← rows.zipIdx.foldlM
      (fun lineBytes (row, index) =>
        if row.chunkCount ≠ first.chunkCount ∨ row.chunkIndex ≠ index then
          .error (.decode "inline payload chunks are not contiguous")
        else (splitInclusive row.payload).foldlM countLineBytes lineBytes)
      0
    if 0 < lineBytes then validateRowBytes (lineBytes + 1) else .ok ()

def assembleInlinePayload (rows : List InlineTableChunkRow) : CatalogResult (List UInt8) := do
  let rows := rows.insertionSort fun left right => left.chunkIndex ≤ right.chunkIndex
  validatePayloadChunks rows
  return rows.flatMap InlineTableChunkRow.payload

end DucklakeCatalog
