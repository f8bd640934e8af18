import DucklakeCatalog.Fdb.Staging

/-! Inline flushes of a FoundationDB data mutation. What a flush ends is read
before its transaction; only the table's flush fence is read inside it. -/
namespace DucklakeCatalog.Fdb

open KeyedStore

structure PreparedInlineFlush where
  flush : InlineTableFlush
  fenceValue : Option Nat
  tableChunkCount : Nat := 0
  inlineFileDeletions : List InlineFileDeletionRow
  maxBeginOrder : Option CatalogOrderId := none
  currentRowIds : List Nat := []

def listInlineCurrentRows (store : FdbStore) (tableId : TableId) (schemaId : SchemaId) :
    List (Nat × InlineCurrentRow) :=
  (store.inlineCurrentRow.scan fun key => key.tableId = tableId && key.schemaId = schemaId).map fun entry =>
    (entry.1.rowId, entry.2)

/-- The chunks a flush will end. The order of its commit is not known yet, so
every recorded end counts, also one after the flush snapshot. -/
def flushableInlineChunks (kv : CatalogKv) (flush : InlineTableFlush) (flushSnapshotOrder : CatalogOrderId) :
    CatalogResult (List InlineTableChunkRow) :=
  let endOrders := inlineTableEndOrders kv flush.tableId flush.schemaId flushSnapshotOrder false
  (inlineTableChunkRows kv flush.tableId flush.schemaId).foldlM
    (fun rows row =>
      if flushSnapshotOrder < row.validity.beginOrder then .ok rows
      else
        match inlineChunkEndOrder row endOrders with
        | some existingEnd =>
          if flushSnapshotOrder < existingEnd then
            .error (.invalidMutation
              s!"inline flush for table {flush.tableId} schema {flush.schemaId} at snapshot {flush.flushSnapshotSequence} is stale; row beginning at {row.validity.beginOrder} was already ended at {existingEnd}")
          else .ok rows
        | none => .ok (rows ++ [row]))
    []

def prepareInlineFlush (seen : FdbStore) (flush : InlineTableFlush) : CatalogResult PreparedInlineFlush :=
  let fenceValue := seen.inlineFlushFence.get? flush.tableId
  match snapshotByRawSequence seen.kv flush.flushSnapshotSequence with
  | none => .error (.invalidMutation s!"inline flush references missing snapshot {flush.flushSnapshotSequence}")
  | some flushSnapshot =>
    let inlineFileDeletions := listInlineFileDeletionRowsForTableAt seen.kv flush.tableId flushSnapshot.order
    if flush.flushInlineData then do
      let flushed ← flushableInlineChunks seen.kv flush flushSnapshot.order
      return {
        flush, fenceValue, inlineFileDeletions
        tableChunkCount := flushed.length
        maxBeginOrder := (flushed.map fun row => row.validity.beginOrder).max?
        currentRowIds := ((listInlineCurrentRows seen flush.tableId flush.schemaId).filter fun row =>
          row.2.beginOrder ≤ flushSnapshot.order).map Prod.fst }
    else .ok { flush, fenceValue, inlineFileDeletions }

/-- One flush per table, schema and kind, at the highest sequence asked for. -/
def coalesceInlineFlushes (flushes : List InlineTableFlush) : List InlineTableFlush :=
  let scopes := (flushes.map fun flush => toLex (flush.tableId, toLex (flush.schemaId, flush.flushInlineData))).dedup
  (scopes.insertionSort (· ≤ ·)).filterMap fun scope =>
    let members := flushes.filter fun flush => toLex (flush.tableId, toLex (flush.schemaId, flush.flushInlineData)) = scope
    (members.map InlineTableFlush.flushSnapshotSequence).max?.map fun sequence =>
      { tableId := (ofLex scope).1
        schemaId := (ofLex (ofLex scope).2).1
        flushSnapshotSequence := sequence
        flushInlineData := (ofLex (ofLex scope).2).2 }

def prepareInlineFlushes (seen : FdbStore) (flushes : List InlineTableFlush) :
    CatalogResult (List PreparedInlineFlush) :=
  (coalesceInlineFlushes flushes).mapM (prepareInlineFlush seen)

/-- Nothing is returned when another flush of the table has completed since the preparation. -/
def stageInlineFlushFence (store : FdbStore) (prepared : PreparedInlineFlush) : Option FdbStore :=
  let value := store.inlineFlushFence.get? prepared.flush.tableId
  if value ≠ prepared.fenceValue then none
  else some { store with
    inlineFlushFence := store.inlineFlushFence.insert prepared.flush.tableId (saturatingAdd (value.getD 0) 1) }

def stagePayloadWatermark (order : CatalogOrderId) (kv : CatalogKv) (prepared : PreparedInlineFlush) : CatalogKv :=
  prepared.maxBeginOrder.elim kv fun maxBeginOrder =>
    { kv with
      inlineFlushWatermark := kv.inlineFlushWatermark.insert
        ⟨prepared.flush.tableId, order, prepared.flush.schemaId, maxBeginOrder⟩ () }

def clearObservedCurrentRows (store : FdbStore) (prepared : PreparedInlineFlush) : FdbStore :=
  { store with
    inlineCurrentRow := prepared.currentRowIds.foldl
      (fun rows rowId => rows.erase ⟨prepared.flush.tableId, prepared.flush.schemaId, rowId⟩)
      store.inlineCurrentRow }

def stageInlineFlush (order : CatalogOrderId) (store : FdbStore) (prepared : PreparedInlineFlush) : FdbStore :=
  let store := { store with kv := prepared.inlineFileDeletions.foldl (stageFileDeletionEnd order) store.kv }
  let store :=
    if prepared.flush.flushInlineData then
      let store := { store with kv := stagePayloadWatermark order store.kv prepared }
      let store := clearObservedCurrentRows store prepared
      { store with kv := stageSnapshotOperation order store.kv (.inlineFlush, prepared.flush.tableId) }
    else store
  { store with kv := stageMaxFileIdWatermark store.kv prepared.flush.flushSnapshotSequence }

/-- One flush of a mutation; the fence of its table is staged at the first of them. -/
def stageFencedInlineFlush (order : CatalogOrderId) (state : FdbStore × List TableId × Nat)
    (prepared : PreparedInlineFlush) : Option (FdbStore × List TableId × Nat) :=
  let fenced := if prepared.flush.tableId ∈ state.2.1 then some state.1 else stageInlineFlushFence state.1 prepared
  fenced.map fun store =>
    (stageInlineFlush order store prepared, prepared.flush.tableId :: state.2.1,
      state.2.2 + (prepared.tableChunkCount + prepared.inlineFileDeletions.length))

/-- The store with all flushes staged and the number of rows they end. -/
def stagePreparedInlineFlushes (order : CatalogOrderId) (store : FdbStore) (prepared : List PreparedInlineFlush) :
    Option (FdbStore × Nat) :=
  (prepared.foldlM (stageFencedInlineFlush order) (store, [], 0)).map fun state => (state.1, state.2.2)

end DucklakeCatalog.Fdb
