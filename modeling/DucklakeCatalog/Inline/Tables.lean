import DucklakeCatalog.Inline.FileDeletes
import DucklakeCatalog.Inline.Payload
import DucklakeCatalog.Table.Store

namespace DucklakeCatalog

open KeyedStore

structure InlineTablePayloadRow where
  tableId : TableId
  schemaId : SchemaId
  beginOrder : CatalogOrderId
  payload : List UInt8
  deriving DecidableEq, Repr

structure InlineFlushWatermark where
  maxBeginOrder : CatalogOrderId
  endOrder : CatalogOrderId
  deriving DecidableEq, Repr

/-- Per-row end markers plus range watermarks for one inline table and schema. -/
structure InlineTableEndOrders where
  rows : OrderedMap CatalogOrderId CatalogOrderId
  watermarks : List InlineFlushWatermark

/-- Earliest end order that hides a chunk beginning at `beginOrder`. -/
def InlineTableEndOrders.endOrderFor (endOrders : InlineTableEndOrders) (beginOrder : CatalogOrderId) :
    Option CatalogOrderId :=
  let watermark := ((endOrders.watermarks.filter fun watermark => beginOrder ≤ watermark.maxBeginOrder).map
    InlineFlushWatermark.endOrder).min?
  match endOrders.rows.get? beginOrder, watermark with
  | some row, some watermark => some (min row watermark)
  | some row, none => some row
  | none, some watermark => some watermark
  | none, none => none

def inlineTableEndOrders (kv : CatalogKv) (tableId : TableId) (schemaId : SchemaId)
    (snapshotOrder : CatalogOrderId) (onlyEndedAtOrBeforeSnapshot : Bool) : InlineTableEndOrders :=
  let counts (markerSchemaId : SchemaId) (endOrder : CatalogOrderId) : Bool :=
    decide (markerSchemaId = schemaId) && (!onlyEndedAtOrBeforeSnapshot || decide (endOrder ≤ snapshotOrder))
  { rows :=
      (kv.inlineTableEnd.scan fun key => key.tableId = tableId && counts key.schemaId key.endOrder).foldl
        (fun rows entry => rows.insert entry.1.beginOrder entry.1.endOrder) .empty
    watermarks :=
      (kv.inlineFlushWatermark.scan fun key => key.tableId = tableId && counts key.schemaId key.endOrder).map
        fun entry => ⟨entry.1.maxBeginOrder, entry.1.endOrder⟩ }

def inlineTableEndOrdersAt (kv : CatalogKv) (tableId : TableId) (schemaId : SchemaId)
    (snapshotOrder : CatalogOrderId) : InlineTableEndOrders :=
  inlineTableEndOrders kv tableId schemaId snapshotOrder true

def inlineChunkEndOrder (row : InlineTableChunkRow) (endOrders : InlineTableEndOrders) : Option CatalogOrderId :=
  row.validity.endOrder.or (endOrders.endOrderFor row.validity.beginOrder)

def inlineChunkVisibleAt (row : InlineTableChunkRow) (endOrders : InlineTableEndOrders)
    (snapshotOrder : CatalogOrderId) : Bool :=
  decide (row.validity.beginOrder ≤ snapshotOrder) &&
    (inlineChunkEndOrder row endOrders).all fun endOrder => decide (snapshotOrder < endOrder)

/-- The begin order of a stored chunk is the one its key names. -/
def decodeInlineTableItem (entry : InlineTableChunkKey × InlineTableChunkRow) : InlineTableChunkRow :=
  { entry.2 with validity := { entry.2.validity with beginOrder := entry.1.beginOrder } }

def inlineTableChunkRows (kv : CatalogKv) (tableId : TableId) (schemaId : SchemaId) : List InlineTableChunkRow :=
  (kv.inlineTable.scan fun key => key.tableId = tableId && key.schemaId = schemaId).map decodeInlineTableItem

/-! ## Flushes -/

def stageSnapshotOperation (batch : KvBatch) (order : CatalogOrderId) (kind : SnapshotOperationKind)
    (tableId : TableId) : KvBatch :=
  { batch with snapshotOperation := batch.snapshotOperation.put ⟨order, kind, tableId⟩ () }

/-- The chunks a flush ends. A chunk ended before the flush snapshot is skipped; one ended after it makes
the flush stale. -/
def flushInlineTablePayloadRowsAtSnapshotOrder (kv : CatalogKv) (flush : InlineTableFlush)
    (flushSnapshotOrder endOrder : CatalogOrderId) : CatalogResult (List InlineTableChunkRow) :=
  let endOrders := inlineTableEndOrdersAt kv flush.tableId flush.schemaId endOrder
  (inlineTableChunkRows kv flush.tableId flush.schemaId).foldlM
    (fun rows row =>
      if flushSnapshotOrder < row.validity.beginOrder then .ok rows
      else
        match inlineChunkEndOrder row endOrders with
        | some existingEnd =>
          if flushSnapshotOrder < existingEnd then
            .error (.invalidMutation
              s!"inline flush for table {flush.tableId} schema {flush.schemaId} at snapshot {flush.flushSnapshotSequence} is stale; row beginning at {row.validity.beginOrder} was already ended at {existingEnd}")
          else .ok rows
        | none => .ok (rows ++ [{ row with validity := ⟨row.validity.beginOrder, some endOrder⟩ }]))
    []

def flushInlineTablePayloadRows (kv : CatalogKv) (flush : InlineTableFlush) (endOrder : CatalogOrderId) :
    CatalogResult (List InlineTableChunkRow) :=
  match snapshotByRawSequence kv flush.flushSnapshotSequence with
  | none => .error (.invalidMutation s!"inline flush references missing snapshot {flush.flushSnapshotSequence}")
  | some flushSnapshot => flushInlineTablePayloadRowsAtSnapshotOrder kv flush flushSnapshot.order endOrder

def stageFlushInlineTablePayloads (kv : CatalogKv) (batch : KvBatch) (flush : InlineTableFlush)
    (endOrder : CatalogOrderId) : CatalogResult KvBatch := do
  let batch ← stageFlushInlineFileDeletions kv batch flush endOrder
  if flush.flushInlineData then do
    let batch := stageSnapshotOperation batch endOrder .inlineFlush flush.tableId
    let flushed ← flushInlineTablePayloadRows kv flush endOrder
    let batch := (flushed.map fun row => row.validity.beginOrder).max?.elim batch fun maxBeginOrder =>
      { batch with
        inlineFlushWatermark :=
          batch.inlineFlushWatermark.put ⟨flush.tableId, endOrder, flush.schemaId, maxBeginOrder⟩ () }
    return stageMaxFileIdWatermark kv batch flush.flushSnapshotSequence
  else
    return batch

variable {kv : CatalogKv} {batch next : KvBatch} {schemaId : SchemaId} {order : CatalogOrderId} {payload : List UInt8}
variable {endOrder : CatalogOrderId} {tableId : TableId} {now : Int} {rows : List InlineTableChunkRow}

theorem stageFlushInlineTablePayloads_changes {flush : InlineTableFlush}
    (success : stageFlushInlineTablePayloads kv batch flush endOrder = .ok next) :
    batch.ChangesInlineEnds next := by
  unfold stageFlushInlineTablePayloads stageFlushInlineFileDeletions at success
  simp only [bind_eq_ok, pure, Except.pure, Except.ok.injEq] at success
  obtain ⟨_, ⟨rows, _, rfl⟩, success⟩ := success
  obtain ⟨_, ended⟩ := stageEndInlineFileDeletions_changes batch rows endOrder
  rw [ended] at success
  split at success
  · rw [bind_eq_ok] at success
    obtain ⟨flushed, _, success⟩ := success
    cases newest : (flushed.map fun row => row.validity.beginOrder).max? with
    | none
    | some maxBeginOrder =>
      simp only [newest, Option.elim, Except.ok.injEq] at success
      exact ⟨_, _, _, _, success.symm⟩
  · simp only [Except.ok.injEq] at success
    exact ⟨_, _, _, _, success.symm⟩

theorem foldlM_stageFlushInlineTablePayloads_changes {flushes : List InlineTableFlush}
    (success : flushes.foldlM (fun batch flush => stageFlushInlineTablePayloads kv batch flush endOrder) batch =
      .ok next) : batch.ChangesInlineEnds next :=
  foldlM_relates KvBatch.ChangesInlineEnds.refl (fun left right => left.trans right)
    (fun _ _ _ taken => stageFlushInlineTablePayloads_changes taken) success

/-! ## Registration -/

def stageInlineRowChangeKey (batch : KvBatch) (tableId : TableId) (schemaId : SchemaId) (order : CatalogOrderId)
    (kind : InlineRowChangeKind) (rowId : Nat) : KvBatch :=
  { batch with
    tableInlineRowChange := batch.tableInlineRowChange.put ⟨tableId, order, kind, schemaId, rowId⟩ ()
    schemaKindInlineRowChange :=
      if kind = .deleted then
        batch.schemaKindInlineRowChange.put ⟨tableId, schemaId, kind, order, rowId⟩ ()
      else batch.schemaKindInlineRowChange }

def stageInlineTableChange (batch : KvBatch) (tableId : TableId) (order : CatalogOrderId)
    (kind : InlineRowChangeKind) : KvBatch :=
  { batch with inlineTableChange := batch.inlineTableChange.put ⟨order, kind, tableId⟩ () }

def stageInlineRowChangesForPayload (batch : KvBatch) (tableId : TableId) (schemaId : SchemaId)
    (order : CatalogOrderId) (kind : InlineRowChangeKind) (payload : List UInt8) : CatalogResult KvBatch := do
  let rows ← optionalInlinePayloadRows payload
  let batch := if rows = [] then batch else stageInlineTableChange batch tableId order kind
  return rows.foldl (fun batch row => stageInlineRowChangeKey batch tableId schemaId order kind row.1) batch

/-- The batches agree outside the inline row change keys. -/
def KvBatch.ChangesInlineRows (before after : KvBatch) : Prop :=
  ∃ rows schemaRows tables, after = { before with
    tableInlineRowChange := rows, schemaKindInlineRowChange := schemaRows, inlineTableChange := tables }

theorem KvBatch.ChangesInlineRows.trans {first second third : KvBatch} (left : first.ChangesInlineRows second)
    (right : second.ChangesInlineRows third) : first.ChangesInlineRows third := by
  obtain ⟨_, _, _, rfl⟩ := left
  obtain ⟨_, _, _, rfl⟩ := right
  exact ⟨_, _, _, rfl⟩

theorem stageInlineRowChangesForPayload_changes {kind : InlineRowChangeKind}
    (success : stageInlineRowChangesForPayload batch tableId schemaId order kind payload = .ok next) :
    batch.ChangesInlineRows next := by
  unfold stageInlineRowChangesForPayload at success
  rw [bind_eq_ok] at success
  obtain ⟨rows, _, success⟩ := success
  simp only [pure_eq_ok] at success
  subst success
  have keys (start : KvBatch) : start.ChangesInlineRows (rows.foldl
      (fun batch row => stageInlineRowChangeKey batch tableId schemaId order kind row.1) start) :=
    foldl_relates (fun _ => ⟨_, _, _, rfl⟩) (fun left right => left.trans right) (fun _ _ => ⟨_, _, _, rfl⟩) _ _
  refine KvBatch.ChangesInlineRows.trans ?_ (keys _)
  split
  · exact ⟨_, _, _, rfl⟩
  · exact ⟨_, _, _, rfl⟩

def stageInlineTableChunks (batch : KvBatch) (tableId : TableId) (schemaId : SchemaId) (order : CatalogOrderId)
    (rows : List InlineTableChunkRow) : KvBatch :=
  { batch with
    inlineTable := rows.foldl
      (fun staged row => staged.put ⟨tableId, schemaId, order, row.chunkIndex⟩ row) batch.inlineTable }

def stageInlineTablePayload (kv : CatalogKv) (now : Int) (tableId : TableId) (schemaId : SchemaId)
    (payload : List UInt8) (order : CatalogOrderId) : CatalogResult (List InlineTableChunkRow × KvBatch) := do
  let snapshot := snapshotRowForNextSequence (latestSnapshot kv) order now
  let batch ← stageInlineRowChangesForPayload (stageSnapshot {} snapshot) tableId schemaId order .inserted payload
  let rows ← inlineTableChunks tableId schemaId order payload
  let batch := stageInlineTableChunks batch tableId schemaId order rows
  return (rows, stageMaxFileIdWatermark kv batch snapshot.sequence)

def validateInlineTablePayload (payload : List UInt8) : CatalogResult Unit := do
  validateInlineTableRowsFitFdb payload
  rejectDuplicateInlineRowIdsInPayload payload

def registerInlineTablePayload (kv : CatalogKv) (now : Int) (tableId : TableId) (schemaId : SchemaId)
    (payload : List UInt8) : CatalogResult (List InlineTableChunkRow) × CatalogKv :=
  match validateInlineTablePayload payload with
  | .error failure => (.error failure, kv)
  | .ok () => commitWith kv (stageInlineTablePayload kv now tableId schemaId payload)

/-- The sequence an inline commit asks for must be the latest one or its successor. -/
def inlineCommitSequence (latest : SnapshotRow) (commitSnapshot : Option RawSnapshotSequence) :
    CatalogResult RawSnapshotSequence :=
  match commitSnapshot with
  | none => .ok (latest.sequence + 1)
  | some commitSnapshot =>
    if commitSnapshot ≠ latest.sequence ∧ commitSnapshot ≠ latest.sequence + 1 then
      .error (.invalidMutation
        s!"inline commit snapshot {commitSnapshot} does not match latest DuckLake snapshot {latest.sequence} or next DuckLake snapshot {latest.sequence + 1}")
    else .ok commitSnapshot

/-- The table version the registration replaces and the sequence of its snapshot. -/
def inlineTableVersionToReplace (kv : CatalogKv) (table : TableRow) (payload : List UInt8)
    (commitSnapshot : Option RawSnapshotSequence) : CatalogResult (TableRow × RawSnapshotSequence) := do
  validateInlineTablePayload payload
  let latest ← (latestSnapshot kv).elim (.error (.notFound "catalog snapshot")) .ok
  let previousTable ← (kv.currentTableRow.get? table.tableId).elim (.error (.notFound "table")) .ok
  let sequence ← inlineCommitSequence latest commitSnapshot
  return (previousTable, sequence)

def stageInlineTablePayloadWithTable (kv : CatalogKv) (now : Int) (table previousTable : TableRow)
    (schemaId : SchemaId) (payload : List UInt8) (sequence : RawSnapshotSequence) (order : CatalogOrderId) :
    CatalogResult (List InlineTableChunkRow × KvBatch) := do
  let closedTable := previousTable.withEndOrder (some order)
  let nextTable := { previousTable with
    schemaId := table.schemaId, inlinedDataTables := table.inlinedDataTables, validity := ⟨order, none⟩ }
  let batch := stageSnapshot {} (SnapshotRow.new order sequence now)
  let batch ← stageInlineRowChangesForPayload batch table.tableId schemaId order .inserted payload
  let rows ← inlineTableChunks table.tableId schemaId order payload
  let batch := stageTableVersion batch order closedTable nextTable
  let batch := stageInlineTableChunks batch table.tableId schemaId order rows
  let batch := { batch with currentTableRow := batch.currentTableRow.put nextTable.tableId nextTable }
  let batch := stageMaxCatalogIdWatermark kv batch nextTable.tableId
  return (rows, stageMaxFileIdWatermark kv batch sequence)

/-- The batches agree outside inline registrations and table metadata. -/
def KvBatch.ChangesInlineTables (before after : KvBatch) : Prop :=
  ∃ rows schemaRows changes chunks objects visibility current catalogIds fileIds, after = { before with
    tableInlineRowChange := rows, schemaKindInlineRowChange := schemaRows, inlineTableChange := changes
    inlineTable := chunks, tableObject := objects, tableVisibility := visibility, currentTableRow := current
    conflictMaxCatalogId := catalogIds, conflictMaxFileId := fileIds }

theorem stageInlineTablePayload_changes
    (staged : stageInlineTablePayload kv now tableId schemaId payload order = .ok (rows, batch)) :
    (stageSnapshot {} (snapshotRowForNextSequence (latestSnapshot kv) order now)).ChangesInlineTables batch := by
  simp only [stageInlineTablePayload, bind_eq_ok, pure_eq_ok, Prod.mk.injEq] at staged
  obtain ⟨changed, changes, _, _, rfl, rfl⟩ := staged
  obtain ⟨_, _, _, rfl⟩ := stageInlineRowChangesForPayload_changes changes
  exact ⟨_, _, _, _, _, _, _, _, _, rfl⟩

theorem stageInlineTablePayloadWithTable_changes {table previousTable : TableRow} {sequence : RawSnapshotSequence}
    (staged : stageInlineTablePayloadWithTable kv now table previousTable schemaId payload sequence order =
      .ok (rows, batch)) :
    (stageSnapshot {} (SnapshotRow.new order sequence now)).ChangesInlineTables batch := by
  simp only [stageInlineTablePayloadWithTable, bind_eq_ok, pure_eq_ok,
    Prod.mk.injEq] at staged
  obtain ⟨changed, changes, _, _, rfl, rfl⟩ := staged
  obtain ⟨_, _, _, same⟩ := stageTableVersion_changes changed order (previousTable.withEndOrder (some order))
    { previousTable with
      schemaId := table.schemaId, inlinedDataTables := table.inlinedDataTables, validity := ⟨order, none⟩ }
  rw [same]
  obtain ⟨_, _, _, rfl⟩ := stageInlineRowChangesForPayload_changes changes
  exact ⟨_, _, _, _, _, _, _, _, _, rfl⟩

/-- Registration that also moves the table to a new version carrying its inlined table list. -/
def registerInlineTablePayloadWithTableAtSnapshot (kv : CatalogKv) (now : Int) (table : TableRow)
    (schemaId : SchemaId) (payload : List UInt8) (commitSnapshot : Option RawSnapshotSequence) :
    CatalogResult (List InlineTableChunkRow) × CatalogKv :=
  match inlineTableVersionToReplace kv table payload commitSnapshot with
  | .error failure => (.error failure, kv)
  | .ok (previousTable, sequence) =>
    commitWith kv (stageInlineTablePayloadWithTable kv now table previousTable schemaId payload sequence)

/-! ## Listing -/

def groupChunksByBegin (rows : List InlineTableChunkRow) : List (CatalogOrderId × List InlineTableChunkRow) :=
  ((rows.map fun row => row.validity.beginOrder).dedup.insertionSort (· ≤ ·)).map fun beginOrder =>
    (beginOrder, rows.filter fun row => row.validity.beginOrder = beginOrder)

def listInlineTablePayloadsAt (kv : CatalogKv) (tableId : TableId) (schemaId : SchemaId)
    (snapshotOrder : CatalogOrderId) : CatalogResult (List InlineTablePayloadRow) :=
  let endOrders := inlineTableEndOrdersAt kv tableId schemaId snapshotOrder
  let visible := (inlineTableChunkRows kv tableId schemaId).filter fun row =>
    inlineChunkVisibleAt row endOrders snapshotOrder
  (groupChunksByBegin visible).mapM fun (beginOrder, rows) => do
    let payload ← assembleInlinePayload rows
    return { tableId, schemaId, beginOrder, payload }

structure InlineRowChange where
  tableId : TableId
  schemaId : SchemaId
  order : CatalogOrderId
  kind : InlineRowChangeKind
  rowId : Nat
  deriving DecidableEq, Repr

def listInlineRowChanges (kv : CatalogKv) (tableId : TableId) (startOrder endOrder : CatalogOrderId) :
    CatalogResult (List InlineRowChange) :=
  if endOrder < startOrder then
    .error (.invalidMutation "inline change-feed end order cannot precede start order")
  else
    .ok ((kv.tableInlineRowChange.scan fun key =>
      key.tableId = tableId && startOrder ≤ key.order && key.order ≤ endOrder).map fun entry =>
        ⟨tableId, entry.1.schemaId, entry.1.order, entry.1.kind, entry.1.rowId⟩)

end DucklakeCatalog
