import DucklakeCatalog.File.InsertionFeed
import DucklakeCatalog.Inline.Tables

namespace DucklakeCatalog

open KeyedStore

structure InlineRowPayloadChange where
  change : InlineRowChange
  payload : List UInt8
  deriving DecidableEq, Repr

structure InlinePayloadChunks where
  beginOrder : CatalogOrderId
  endOrder : Option CatalogOrderId
  chunks : List InlineTableChunkRow
  deriving DecidableEq, Repr

structure InlinePayloadChangeContext where
  kind : InlineRowChangeKind
  insertionFiles : List DataFileRow
  payloads : List InlinePayloadChunks

/-- Payloads begun by the end of the feed; the end order of a payload is that of its last chunk. -/
def loadInlinePayloadChunks (kv : CatalogKv) (tableId : TableId) (schemaId : SchemaId) (feedEndOrder : CatalogOrderId)
    (endOrders : InlineTableEndOrders) : List InlinePayloadChunks :=
  (groupChunksByBegin ((inlineTableChunkRows kv tableId schemaId).filter fun row =>
    row.validity.beginOrder ≤ feedEndOrder)).map fun (beginOrder, chunks) =>
      { beginOrder, endOrder := chunks.getLast?.bind fun row => inlineChunkEndOrder row endOrders, chunks }

def InlinePayloadChangeContext.load (kv : CatalogKv) (tableId : TableId) (schemaId : SchemaId)
    (feedEndOrder : CatalogOrderId) (kind : InlineRowChangeKind) : InlinePayloadChangeContext where
  kind
  insertionFiles := if kind = .inserted then insertionDataFilesThrough kv tableId feedEndOrder else []
  payloads := loadInlinePayloadChunks kv tableId schemaId feedEndOrder
    (inlineTableEndOrdersAt kv tableId schemaId feedEndOrder)

def dataFileCoversInlineBegin (file : DataFileRow) (inlineBeginOrder : CatalogOrderId) : Bool :=
  dataFileCoversSnapshotOrder file inlineBeginOrder

/-- A deletion is asked of the payloads before it, an insertion also of the one it came with. -/
def InlinePayloadChunks.visibleAtChange (payload : InlinePayloadChunks) (kind : InlineRowChangeKind)
    (changeOrder : CatalogOrderId) : Bool :=
  (match kind with
    | .inserted => decide (payload.beginOrder ≤ changeOrder)
    | .deleted => decide (payload.beginOrder < changeOrder)) &&
    payload.endOrder.all fun endOrder => decide (changeOrder ≤ endOrder)

/-- The row in the first payload that holds it. -/
def findInlinePayloadRow (rowId : Nat) : List InlinePayloadChunks → CatalogResult (Option (List UInt8))
  | [] => .ok none
  | payload :: rest => do
    let assembled ← assembleInlinePayload payload.chunks
    let found ← inlinePayloadRow assembled rowId
    found.elim (findInlinePayloadRow rowId rest) fun row => .ok (some row)

def InlinePayloadChangeContext.payloadAtChange (context : InlinePayloadChangeContext) (rowId : Nat)
    (changeOrder : CatalogOrderId) : CatalogResult (Option (List UInt8)) :=
  if context.kind = .inserted ∧
      (context.insertionFiles.any fun file => dataFileCoversInlineBegin file changeOrder) = true then
    .ok none
  else
    findInlinePayloadRow rowId
      (context.payloads.reverse.filter fun payload => payload.visibleAtChange context.kind changeOrder)

def listInlineRowPayloadChanges (kv : CatalogKv) (tableId : TableId) (schemaId : SchemaId)
    (startOrder endOrder : CatalogOrderId) (kind : InlineRowChangeKind) :
    CatalogResult (List InlineRowPayloadChange) := do
  let context := InlinePayloadChangeContext.load kv tableId schemaId endOrder kind
  let changes ← listInlineRowChanges kv tableId startOrder endOrder
  (changes.filter fun change => change.schemaId = schemaId ∧ change.kind = kind).foldlM
    (fun rows change => do
      let payload ← context.payloadAtChange change.rowId change.order
      match payload with
      | some payload => .ok (rows ++ [⟨change, payload⟩])
      | none =>
        if kind = .inserted then .ok rows
        else .error (.decode s!"inline row {change.rowId} is missing at change order {change.order}"))
    []

/-! ## Rows of a registered payload -/

/-- Lines the duplicate check reads are row text for the feed as well. -/
theorem inlineRowId_of_rowIdLine {line : List UInt8} {rowId : Nat} (read : inlinePayloadRowIdLine line = .ok rowId) :
    inlineRowId line = .ok rowId ∧ line ≠ [] := by
  unfold inlinePayloadRowIdLine at read
  split at read
  · rename_i tagged
    have shape : line = rowTag ++ tab :: line.drop 4 := by
      have whole := List.take_append_drop 4 line
      rw [tagged] at whole
      rw [← whole]
      simp [rowTag]
    refine ⟨?_, by rw [shape]; simp [rowTag]⟩
    have fields : line.splitOn tab = rowTag :: (line.drop 4).splitOn tab := by
      conv_lhs => rw [shape]
      simp [rowTag, List.splitOn_cons_eq_if_modifyHead, tab]
    unfold inlineRowId
    rw [fields]
    cases rest : (line.drop 4).splitOn tab with
    | nil => exact absurd rest (List.splitOn_ne_nil _ _)
    | cons first others =>
      rw [rest] at read
      simpa using read
  · simp at read

/-- Every line of the payload is row text. -/
def RowText (payload : List UInt8) : Prop :=
  isUtf8 payload = true ∧ ∀ line ∈ payloadLines payload, line ≠ [] ∧ ∃ rowId, inlineRowId line = .ok rowId

theorem rowText_of_validated {payload : List UInt8} (valid : validateInlineTablePayload payload = .ok ()) :
    RowText payload := by
  unfold validateInlineTablePayload rejectDuplicateInlineRowIdsInPayload inlinePayloadRowIds at valid
  simp only [bind_eq_ok] at valid
  obtain ⟨_, _, rowIds, read, _⟩ := valid
  split at read
  · rename_i utf8
    split at read
    · rename_i ids lines
      refine ⟨utf8, ?_⟩
      intro line member
      obtain ⟨rowId, _, read⟩ := mapM_accepts lines member
      exact ⟨(inlineRowId_of_rowIdLine read).2, rowId, (inlineRowId_of_rowIdLine read).1⟩
    · simp at read
  · simp at read

/-- Row ids and lines of a payload, as far as it is row text. -/
def insertedRows (payload : List UInt8) : List (Nat × List UInt8) :=
  (inlinePayloadRows payload).toOption.getD []

theorem insertedRows_lines {payload : List UInt8} (text : RowText payload) :
    List.Forall₂ (fun line row => inlineRowId line = .ok row.1 ∧ row.2 = line) (payloadLines payload)
        (insertedRows payload) ∧
      inlinePayloadRows payload = .ok (insertedRows payload) := by
  obtain ⟨utf8, lines⟩ := text
  have nonempty : ((payloadLines payload).filter fun line => line ≠ []) = payloadLines payload := by
    refine List.filter_eq_self.mpr ?_
    intro line member
    simpa using (lines line member).1
  have reads : ∃ rows : List (Nat × List UInt8),
      List.Forall₂ (fun line row => inlineRowId line = .ok row.1 ∧ row.2 = line) (payloadLines payload) rows := by
    generalize payloadLines payload = all at lines
    induction all with
    | nil => exact ⟨[], .nil⟩
    | cons line rest ih =>
      obtain ⟨rows, related⟩ := ih fun other member => lines other (List.mem_cons_of_mem _ member)
      obtain ⟨_, rowId, read⟩ := lines line List.mem_cons_self
      exact ⟨(rowId, line) :: rows, .cons ⟨read, rfl⟩ related⟩
  obtain ⟨rows, related⟩ := reads
  have read : inlinePayloadRows payload = .ok rows := by
    unfold inlinePayloadRows
    rw [if_pos utf8, nonempty, mapM_eq_ok_iff]
    refine related.imp ?_
    rintro line ⟨rowId, _⟩ ⟨read, rfl⟩
    rw [bind_eq_ok]
    exact ⟨rowId, read, rfl⟩
  have same : insertedRows payload = rows := by simp [insertedRows, read, Except.toOption]
  rw [same]
  exact ⟨related, read⟩

/-- The feed answers with the first line that has the row id. -/
theorem inlinePayloadRow_eq {payload : List UInt8} (text : RowText payload) (rowId : Nat) :
    inlinePayloadRow payload rowId =
      .ok (((insertedRows payload).find? fun row => row.1 = rowId).map fun row => row.2 ++ [newline]) := by
  unfold inlinePayloadRow
  rw [if_pos text.1]
  have related := (insertedRows_lines text).1
  generalize payloadLines payload = lines at related
  generalize insertedRows payload = rows at related
  induction related with
  | nil => rfl
  | @cons line row lines rows related _ ih =>
    obtain ⟨read, same⟩ := related
    unfold inlinePayloadRow.search
    rw [read]
    by_cases wanted : row.1 = rowId
    · simp [wanted, same]
    · simp only [wanted, if_false, List.find?_cons, decide_false]
      exact ih

end DucklakeCatalog
