import DucklakeCatalog.Snapshot.ChangesMade

namespace DucklakeCatalog

open KeyedStore

/-! ## Which snapshots are listed -/

structure ListSnapshotsPayload where
  olderThanMicros : Option Int := none
  requestedDucklakeIds : Option (List RawSnapshotSequence) := none
  protectLatest : Bool := false
  deriving DecidableEq, Repr

/-- The timestamp index is scanned in its own order up to the bound. -/
def listSnapshotsOlderThan (kv : CatalogKv) (olderThanMicros : Int) : CatalogResult (List SnapshotRow) :=
  (kv.snapshotTimestamp.entries.takeWhile fun entry => entry.1.createdAtMicros < olderThanMicros).mapM
    decodeTimestampSnapshot

def isSelectedSnapshot (latest : Option SnapshotRow) (payload : ListSnapshotsPayload) (snapshot : SnapshotRow) : Bool :=
  payload.requestedDucklakeIds.all (fun requested => decide (snapshot.sequence ∈ requested)) &&
    !(payload.protectLatest && latest.any fun latest => decide (snapshot.sequence = latest.sequence))

def selectedSnapshots (kv : CatalogKv) (payload : ListSnapshotsPayload) : CatalogResult (List SnapshotRow) := do
  let snapshots ← payload.olderThanMicros.elim (listSnapshots kv) (listSnapshotsOlderThan kv)
  return snapshots.filter (isSelectedSnapshot (latestSnapshot kv) payload)

/-! ## Schema versions -/

def validityOrders (window : ValidityWindow) : List CatalogOrderId :=
  window.beginOrder :: window.endOrder.toList

/-- A version that only takes over the visible schema of its predecessor changes nothing. -/
def tableSchemaChangeOrders (tables : List TableRow) (table : TableRow) : List CatalogOrderId :=
  (if (endedTable tables table.validity.beginOrder table.tableId).any
      fun previous => previous.sameUserVisibleSchemaAs table then []
    else [table.validity.beginOrder]) ++
    table.validity.endOrder.toList.filter fun endOrder => (begunTable tables endOrder table.tableId).isNone

def catalogSchemaChangeOrders (metadata : CatalogMetadata) (tables : List TableRow) : List CatalogOrderId :=
  (metadata.schemas.flatMap (fun schema => validityOrders schema.validity) ++
    metadata.views.flatMap validityOrders ++ metadata.macros.flatMap validityOrders ++
    tables.flatMap (tableSchemaChangeOrders tables)).dedup.insertionSort (· ≤ ·)

/-- A group counts once, whatever changed in it; every change that is in no listed group counts by itself. -/
def schemaVersionsFrom (schemaVersion : Nat) (changeOrders : List CatalogOrderId) : List PublicSnapshot → List Nat
  | [] => []
  | snapshot :: rest =>
    let reached := changeOrders.takeWhile fun changeOrder => changeOrder ≤ snapshot.lastOrder
    let elsewhere := reached.filter fun changeOrder => changeOrder ∉ snapshot.orders
    let groupChangedSchema := reached.any fun changeOrder => decide (changeOrder ∈ snapshot.orders)
    let schemaVersion := schemaVersion + elsewhere.length + if groupChangedSchema then 1 else 0
    schemaVersion :: schemaVersionsFrom schemaVersion
      (changeOrders.dropWhile fun changeOrder => changeOrder ≤ snapshot.lastOrder) rest

def publicSchemaVersionsForGroups (snapshots : List PublicSnapshot) (context : PublicSnapshotCoalesceContext) :
    List Nat :=
  schemaVersionsFrom 0 (catalogSchemaChangeOrders context.metadata context.tables) snapshots

/-! ## The listing -/

/-- The rows of schemas, views and macros that a listing reads besides the ordered store. -/
structure SnapshotMetadataRows where
  schemas : List SchemaRow := []
  views : List ViewRow := []
  macros : List MacroRow := []
  deriving DecidableEq, Repr

def SnapshotMetadataRows.windows (rows : SnapshotMetadataRows) : CatalogMetadata where
  schemas := rows.schemas
  views := rows.views.map ViewRow.validity
  macros := rows.macros.map MacroRow.validity

def SnapshotMetadataRows.changeIndex (rows : SnapshotMetadataRows) (tables : List TableRow) :
    SnapshotMetadataChangeIndex :=
  { schemas := rows.schemas, tables, views := rows.views, macros := rows.macros }

structure ListedSnapshot where
  snapshotId : RawSnapshotSequence
  createdAtMicros : Int
  schemaVersion : Nat
  nextFileId : Nat
  changesMade : String
  author : String
  commitMessage : Option String
  commitExtraInfo : Option String
  deriving DecidableEq, Repr

/-- The first snapshot of a catalog creates its default schema without storing it. -/
def listedChangesMade (snapshot : PublicSnapshot) (changes : List SnapshotChange) : String :=
  if changes = [] ∧ snapshot.representative.sequence = 0 then "created_schema:\"main\"" else changesText changes

def snapshotAuthorField (snapshot : SnapshotRow) : String :=
  if snapshot.createdBy = "aux-ducklake" then "" else snapshot.createdBy

/-- The next file id of the catalog, whose watermarks must have been initialized. -/
def nextFileIdWatermark (kv : CatalogKv) : CatalogResult Nat :=
  if (kv.conflictWatermarksInitialized.get? ()).isSome then
    .ok ((kv.conflictMaxFileId.get? ()).elim 0 fun id => saturatingAdd id 1)
  else .error (.invalidKey "missing or invalid conflict watermarks initialized marker")

/-- An empty listing shows no watermark and needs none. -/
def listedNextFileId (kv : CatalogKv) (snapshots : List PublicSnapshot) : CatalogResult Nat :=
  if snapshots = [] then .ok 0 else nextFileIdWatermark kv

def listedSnapshot (kv : CatalogKv) (rows : SnapshotMetadataRows) (context : PublicSnapshotCoalesceContext)
    (nextFileId : Nat) (snapshot : PublicSnapshot) (schemaVersion : Nat) : ListedSnapshot where
  snapshotId := snapshot.representative.sequence
  createdAtMicros := snapshot.representative.createdAtMicros
  schemaVersion := schemaVersion
  nextFileId := nextFileId
  changesMade := listedChangesMade snapshot (publicSnapshotChangesMade snapshot (rows.changeIndex context.tables) context
    (kv.snapshotOperation.entries.map Prod.fst))
  author := snapshotAuthorField snapshot.representative
  commitMessage := snapshot.representative.commitMessage
  commitExtraInfo := snapshot.representative.commitExtraInfo

def listSnapshotsPayload (kv : CatalogKv) (rows : SnapshotMetadataRows) (payload : ListSnapshotsPayload) :
    CatalogResult (List ListedSnapshot) := do
  let selected ← selectedSnapshots kv payload
  let context := PublicSnapshotCoalesceContext.load kv rows.windows
  let snapshots := coalescedPublicSnapshotGroups context selected
  let nextFileId ← listedNextFileId kv snapshots
  return List.zipWith (listedSnapshot kv rows context nextFileId) snapshots
    (publicSchemaVersionsForGroups snapshots context)

end DucklakeCatalog
