import DucklakeCatalog.Fdb.Staging

/-! Inline rows of the FoundationDB backend. The rows a commit inserts or
deletes are checked against the live rows before its transaction starts. -/
namespace DucklakeCatalog.Fdb

open KeyedStore

structure InlineTablePayload where
  tableId : TableId
  schemaId : SchemaId
  payload : List UInt8
  deriving DecidableEq

structure InlineTableDeletePayload where
  tableId : TableId
  schemaId : SchemaId
  rowIds : List Nat
  deriving DecidableEq

structure FdbInlineMutation where
  tables : List TableRow := []
  payloads : List InlineTablePayload := []
  deletes : List InlineTableDeletePayload := []
  deriving DecidableEq

def FdbInlineMutation.isEmpty (mutation : FdbInlineMutation) : Bool :=
  mutation.tables.isEmpty && mutation.payloads.isEmpty && mutation.deletes.isEmpty

structure PreparedInlinePayload where
  tableId : TableId
  schemaId : SchemaId
  chunks : List InlineTableChunkRow
  changedRowIds : List Nat
  currentRows : List (Nat × List UInt8)

structure PreparedInlineDelete where
  tableId : TableId
  schemaId : SchemaId
  rowIds : List Nat

structure PreparedInlineMutation where
  sequence : RawSnapshotSequence
  replacements : List (TableRow × TableRow)
  payloads : List PreparedInlinePayload
  deletes : List PreparedInlineDelete

/-- Chunks keep the placeholder in their value; the key of a chunk names its begin order. -/
def prepareInlinePayload (payload : InlineTablePayload) : CatalogResult PreparedInlinePayload := do
  let currentRows ← (inlinePayloadRows payload.payload).mapError InlinePayloadError.toCatalogError
  let chunks ← inlineTableChunks payload.tableId payload.schemaId autoOrder payload.payload
  let changed ← optionalInlinePayloadRows payload.payload
  return { tableId := payload.tableId, schemaId := payload.schemaId, chunks, currentRows
           changedRowIds := changed.map Prod.fst }

def PreparedInlinePayload.rowKeys (payload : PreparedInlinePayload) : List InlineRowKey :=
  payload.changedRowIds.map fun rowId => ⟨payload.tableId, payload.schemaId, rowId⟩

def InlineTableDeletePayload.rowKeys (delete : InlineTableDeletePayload) : List InlineRowKey :=
  delete.rowIds.map fun rowId => ⟨delete.tableId, delete.schemaId, rowId⟩

/-- The live rows are only looked up once every inserted row id is known to be distinct. -/
def rejectRepeatedInlineRowIds (payloads : List PreparedInlinePayload) : CatalogResult Unit := do
  let _ ← (payloads.flatMap PreparedInlinePayload.rowKeys).foldlM
    (fun seen key =>
      if key ∈ seen then
        .error (.invalidMutation
          s!"inline row id {key.rowId} is inserted more than once for table {key.tableId} schema {key.schemaId}")
      else .ok (key :: seen))
    ([] : List InlineRowKey)
  return ()

def rejectExistingInlineRowIds (seen : FdbStore) (payloads : List PreparedInlinePayload)
    (deletes : List InlineTableDeletePayload) : CatalogResult Unit :=
  let replacements := deletes.flatMap InlineTableDeletePayload.rowKeys
  (payloads.flatMap PreparedInlinePayload.rowKeys).forM fun key =>
    if key ∉ replacements ∧ (seen.inlineLiveRow.get? key).isSome then
      .error (.invalidMutation
        s!"inline row id {key.rowId} is already live for table {key.tableId} schema {key.schemaId}")
    else .ok ()

/-- Row ids that are not live before the commit's sequence are left out without an error. -/
def prepareInlineDelete (seen : FdbStore) (targetSequence : RawSnapshotSequence)
    (delete : InlineTableDeletePayload) : PreparedInlineDelete where
  tableId := delete.tableId
  schemaId := delete.schemaId
  rowIds := (delete.rowIds.dedup.insertionSort (· ≤ ·)).filter fun rowId =>
    (seen.inlineLiveRow.get? ⟨delete.tableId, delete.schemaId, rowId⟩).any fun sequence =>
      decide (sequence < targetSequence)

def validateInlineCommitSnapshot (latest : Option SnapshotRow) (commitSnapshot readSnapshot : Option RawSnapshotSequence) :
    CatalogResult Unit :=
  match commitSnapshot with
  | none => .ok ()
  | some commitSnapshot =>
    match latest with
    | none => .error (.notFound "catalog snapshot")
    | some latest =>
      let next := saturatingAdd latest.sequence 1
      if (readSnapshot.isNone ∧ commitSnapshot = latest.sequence) ∨ commitSnapshot = next then .ok ()
      else
        .error (.invalidMutation
          s!"conflict committing inline rows: proposed commit snapshot {commitSnapshot} does not match latest DuckLake snapshot {latest.sequence} or next DuckLake snapshot {next}")

def prepareTableReplacement (seen : FdbStore) (table : TableRow) : CatalogResult (TableRow × TableRow) :=
  match latestSnapshot seen.kv with
  | none => .error (.notFound "catalog snapshot")
  | some _ =>
    match seen.kv.currentTableRow.get? table.tableId with
    | none => .error (.notFound "table")
    | some previous => .ok (previous, { table with validity := ⟨autoOrder, none⟩ })

def inlineCommitSequence (latest : Option SnapshotRow) (commitSnapshot : Option RawSnapshotSequence) :
    RawSnapshotSequence :=
  match commitSnapshot with
  | some commitSnapshot => commitSnapshot
  | none => latest.elim 0 fun snapshot => saturatingAdd snapshot.sequence 1

def prepareInlineTableMutation (seen : FdbStore) (mutation : FdbInlineMutation)
    (commitSnapshot readSnapshot : Option RawSnapshotSequence) : CatalogResult PreparedInlineMutation := do
  mutation.payloads.forM fun payload => validateInlineTableRowsFitFdb payload.payload
  let latest := latestSnapshot seen.kv
  validateInlineCommitSnapshot latest commitSnapshot readSnapshot
  let sequence := inlineCommitSequence latest commitSnapshot
  let replacements ← mutation.tables.mapM (prepareTableReplacement seen)
  let payloads ← mutation.payloads.mapM prepareInlinePayload
  rejectRepeatedInlineRowIds payloads
  rejectExistingInlineRowIds seen payloads mutation.deletes
  return { sequence, replacements, payloads
           deletes := mutation.deletes.map (prepareInlineDelete seen sequence) }

/-! ## Staging -/

def stageInlineTableReplacement (order : CatalogOrderId) (kv : CatalogKv) (replacement : TableRow × TableRow) :
    CatalogKv :=
  let previous := replacement.1.withEndOrder (some order)
  let next := replacement.2
  let stamped := next.withBeginOrder order
  let kv := { kv with
    tableObject := (kv.tableObject.insert ⟨previous.tableId, previous.validity.beginOrder⟩ previous).insert
      ⟨next.tableId, order⟩ next
    currentTableRow := kv.currentTableRow.insert next.tableId stamped
    tableVisibility := (kv.tableVisibility.insert ⟨previous.validity.beginOrder, previous.tableId⟩ previous).insert
      ⟨order, next.tableId⟩ next }
  stageMaxCatalogIdWatermark kv next.tableId

def stageInlineTableChange (order : CatalogOrderId) (kv : CatalogKv) (tableId : TableId) (kind : InlineRowChangeKind) :
    CatalogKv :=
  { kv with inlineTableChange := kv.inlineTableChange.insert ⟨order, kind, tableId⟩ () }

/-- The marks of one deleted row; it is then neither live nor current. -/
def stageDeletedInlineRow (order : CatalogOrderId) (store : FdbStore) (key : InlineRowKey) : FdbStore :=
  { store with
    kv := { store.kv with
      tableInlineRowChange := store.kv.tableInlineRowChange.insert
        ⟨key.tableId, order, .deleted, key.schemaId, key.rowId⟩ ()
      schemaKindInlineRowChange := store.kv.schemaKindInlineRowChange.insert
        ⟨key.tableId, key.schemaId, .deleted, order, key.rowId⟩ () }
    inlineLiveRow := store.inlineLiveRow.erase key
    inlineCurrentRow := store.inlineCurrentRow.erase key }

def stageInlineDelete (order : CatalogOrderId) (store : FdbStore) (delete : PreparedInlineDelete) : FdbStore :=
  if delete.rowIds = [] then store
  else
    delete.rowIds.foldl
      (fun store rowId => stageDeletedInlineRow order store ⟨delete.tableId, delete.schemaId, rowId⟩)
      { store with kv := stageInlineTableChange order store.kv delete.tableId .deleted }

def stageInsertedInlineRow (order : CatalogOrderId) (sequence : RawSnapshotSequence) (payload : PreparedInlinePayload)
    (store : FdbStore) (key : InlineRowKey) : CatalogResult FdbStore :=
  match payload.currentRows.reverse.lookup key.rowId with
  | none => .error (.invalidMutation s!"inline row id {key.rowId} is missing its current-row payload")
  | some line =>
    .ok { store with
      kv := { store.kv with
        tableInlineRowChange := store.kv.tableInlineRowChange.insert
          ⟨key.tableId, order, .inserted, key.schemaId, key.rowId⟩ () }
      inlineLiveRow := store.inlineLiveRow.insert key sequence
      inlineCurrentRow := store.inlineCurrentRow.insert key ⟨order, sequence, line⟩
      inlineNextRowId := raiseTo store.inlineNextRowId (toLex (key.tableId, key.schemaId))
        (saturatingAdd key.rowId 1) }

def stageInlinePayload (order : CatalogOrderId) (sequence : RawSnapshotSequence) (store : FdbStore)
    (payload : PreparedInlinePayload) : CatalogResult FdbStore :=
  let kv := { store.kv with
    inlineTable := payload.chunks.foldl
      (fun chunks chunk => chunks.insert ⟨payload.tableId, payload.schemaId, order, chunk.chunkIndex⟩ chunk)
      store.kv.inlineTable }
  let kv := if payload.changedRowIds = [] then kv else stageInlineTableChange order kv payload.tableId .inserted
  payload.rowKeys.foldlM (stageInsertedInlineRow order sequence payload) { store with kv }

def stagePreparedInlineMutation (order : CatalogOrderId) (store : FdbStore) (prepared : PreparedInlineMutation) :
    CatalogResult FdbStore := do
  let store := { store with kv := prepared.replacements.foldl (stageInlineTableReplacement order) store.kv }
  let store := prepared.deletes.foldl (stageInlineDelete order) store
  let store ← prepared.payloads.foldlM (stageInlinePayload order prepared.sequence) store
  return { store with kv := stageMaxFileIdWatermark store.kv prepared.sequence }

end DucklakeCatalog.Fdb
