import DucklakeCatalog.Inline.Tables

namespace DucklakeCatalog

open KeyedStore

structure InlineTableCleanupId where
  tableId : TableId
  schemaId : SchemaId
  beginOrder : CatalogOrderId
  deriving DecidableEq, Repr

structure InlineTableCleanupRow where
  id : InlineTableCleanupId
  chunkCount : Nat
  deriving DecidableEq, Repr

/-! ## Payloads that may be cleaned up -/

/-- The keys of the chunks stored for one payload. -/
def InlineTableCleanupId.names (id : InlineTableCleanupId) (key : InlineTableChunkKey) : Bool :=
  decide (key.tableId = id.tableId) && decide (key.schemaId = id.schemaId) && decide (key.beginOrder = id.beginOrder)

def inlineTablePayloadChunks (kv : CatalogKv) (id : InlineTableCleanupId) : List InlineTableChunkRow :=
  (kv.inlineTable.scan id.names).map decodeInlineTableItem

/-- No retained snapshot reads an ended chunk; no chunk at all is nothing to clean up. -/
def inlineChunksAreUnreachable (chunks : List InlineTableChunkRow) (snapshots : List SnapshotRow) : Bool :=
  !chunks.isEmpty && chunks.all fun chunk =>
    chunk.validity.endOrder.isSome && !snapshots.any fun snapshot => chunk.validity.isVisibleAt snapshot.order

/-- What the listing has seen and what it lists. -/
structure InlineCleanupListing where
  seen : List InlineTableCleanupId := []
  rows : List InlineTableCleanupRow := []

/-- A payload with its own end marker is judged by the end order of the marker. -/
def InlineCleanupListing.noteEndMarker (kv : CatalogKv) (snapshots : List SnapshotRow)
    (listing : InlineCleanupListing) (key : InlineTableEndKey) : InlineCleanupListing :=
  let id : InlineTableCleanupId := ⟨key.tableId, key.schemaId, key.beginOrder⟩
  if id ∈ listing.seen then listing
  else
    let chunks := (inlineTablePayloadChunks kv id).map fun chunk =>
      { chunk with validity := { chunk.validity with endOrder := some key.endOrder } }
    { seen := listing.seen ++ [id]
      rows :=
        if inlineChunksAreUnreachable chunks snapshots then listing.rows ++ [⟨id, chunks.length⟩] else listing.rows }

/-- How many chunks each payload begun up to an order has, in begin order. -/
def chunkCountsUpTo (kv : CatalogKv) (tableId : TableId) (schemaId : SchemaId) (maxBeginOrder : CatalogOrderId) :
    List (CatalogOrderId × Nat) :=
  (groupChunksByBegin ((inlineTableChunkRows kv tableId schemaId).filter fun row =>
    row.validity.beginOrder ≤ maxBeginOrder)).map fun group => (group.1, group.2.length)

def InlineCleanupListing.addUnseen (listing : InlineCleanupListing) (row : InlineTableCleanupRow) :
    InlineCleanupListing :=
  if row.id ∈ listing.seen then listing
  else { seen := listing.seen ++ [row.id], rows := listing.rows ++ [row] }

/-- Everything under a watermark is judged by one window, from its oldest payload to the end order. -/
def InlineCleanupListing.noteWatermark (kv : CatalogKv) (snapshots : List SnapshotRow)
    (listing : InlineCleanupListing) (key : InlineFlushWatermarkKey) : InlineCleanupListing :=
  let counts := chunkCountsUpTo kv key.tableId key.schemaId key.maxBeginOrder
  match counts.head? with
  | none => listing
  | some (minBeginOrder, _) =>
    let synthetic : InlineTableChunkRow :=
      { tableId := key.tableId, schemaId := key.schemaId, validity := ⟨minBeginOrder, some key.endOrder⟩
        chunkIndex := 0, chunkCount := 1, payload := [] }
    if inlineChunksAreUnreachable [synthetic] snapshots then
      counts.foldl (fun listing count => listing.addUnseen ⟨⟨key.tableId, key.schemaId, count.1⟩, count.2⟩) listing
    else listing

def listOldInlineTablePayloadsForCleanup (kv : CatalogKv) : CatalogResult (List InlineTableCleanupRow) := do
  let snapshots ← listSnapshots kv
  let ended := (kv.inlineTableEnd.entries.map Prod.fst).foldl
    (fun listing key => listing.noteEndMarker kv snapshots key) ({} : InlineCleanupListing)
  let flushed := (kv.inlineFlushWatermark.entries.map Prod.fst).foldl
    (fun listing key => listing.noteWatermark kv snapshots key) ended
  return flushed.rows

/-! ## Removing payloads -/

/-- The end marker to delete is named by the end order stored in the last chunk. -/
def stageRemoveInlineTablePayload (kv : CatalogKv) (batch : KvBatch) (id : InlineTableCleanupId) : KvBatch :=
  let endOrder := (inlineTablePayloadChunks kv id).getLast?.bind fun chunk => chunk.validity.endOrder
  { batch with
    inlineTable := batch.inlineTable.deleteAll ((kv.inlineTable.scan id.names).map Prod.fst)
    inlineTableEnd := endOrder.elim batch.inlineTableEnd fun order =>
      batch.inlineTableEnd.delete ⟨id.tableId, order, id.schemaId, id.beginOrder⟩ }

/-- The stored payloads a watermark reaches. -/
def watermarkCovered (kv : CatalogKv) (key : InlineFlushWatermarkKey) : List InlineTableCleanupId :=
  ((inlineTableChunkRows kv key.tableId key.schemaId).filter fun row =>
    row.validity.beginOrder ≤ key.maxBeginOrder).map fun row => ⟨key.tableId, key.schemaId, row.validity.beginOrder⟩

/-- A watermark goes once everything it reaches is removed. -/
def stageRemoveCoveredWatermark (kv : CatalogKv) (removed : List InlineTableCleanupId) (batch : KvBatch)
    (key : InlineFlushWatermarkKey) : KvBatch :=
  let covered := watermarkCovered kv key
  if covered ≠ [] ∧ ∀ id ∈ covered, id ∈ removed then
    { batch with inlineFlushWatermark := batch.inlineFlushWatermark.delete key }
  else batch

def stageRemoveOldInlineTablePayloads (kv : CatalogKv) (inlineIds : List InlineTableCleanupId) :
    CatalogResult (List InlineTableCleanupRow × KvBatch) := do
  let cleanupRows ← listOldInlineTablePayloadsForCleanup kv
  let rows := cleanupRows.filter fun row => row.id ∈ inlineIds
  let removed := rows.map InlineTableCleanupRow.id
  let batch := removed.foldl (stageRemoveInlineTablePayload kv) {}
  return (rows, (kv.inlineFlushWatermark.entries.map Prod.fst).foldl (stageRemoveCoveredWatermark kv removed) batch)

def removeOldInlineTablePayloads (kv : CatalogKv) (inlineIds : List InlineTableCleanupId) :
    CatalogResult (List InlineTableCleanupRow × CatalogKv) :=
  if inlineIds = [] then
    .ok ([], kv)
  else do
    let (rows, batch) ← stageRemoveOldInlineTablePayloads kv inlineIds
    return (rows, kv.commit batch)

end DucklakeCatalog
