import DucklakeCatalog.Table.Store

namespace DucklakeCatalog

open KeyedStore

/-! ## Sequences of data snapshots -/

/-- The sequence of a snapshot that is still in the timestamp index. -/
def activeSnapshotSequence (kv : CatalogKv) (order : CatalogOrderId) : Option RawSnapshotSequence := do
  let snapshot ← kv.snapshot.get? order
  let active ← kv.snapshotTimestamp.get? ⟨snapshot.createdAtMicros, order⟩
  return active.sequence

def activeDataSnapshotSequences (kv : CatalogKv) (orders : List CatalogOrderId) :
    List (CatalogOrderId × RawSnapshotSequence) :=
  orders.filterMap fun order => (activeSnapshotSequence kv order).map fun sequence => (order, sequence)

theorem lookup_activeDataSnapshotSequences (kv : CatalogKv) (orders : List CatalogOrderId) (order : CatalogOrderId) :
    (activeDataSnapshotSequences kv orders).lookup order =
      if order ∈ orders then activeSnapshotSequence kv order else none := by
  unfold activeDataSnapshotSequences
  induction orders with
  | nil => simp
  | cons first rest ih =>
    rw [List.filterMap_cons]
    by_cases same : order = first
    · subst same
      cases found : activeSnapshotSequence kv order with
      | some sequence => simp
      | none => simp [ih, found]
    · cases activeSnapshotSequence kv first with
      | none => simp [ih, same]
      | some sequence => simp [List.lookup_cons, beq_false_of_ne same, ih, same]

/-! ## Public groups -/

structure SchemaRow where
  schemaId : SchemaId
  name : String
  validity : ValidityWindow
  deriving DecidableEq, Repr

/-- Schema rows, and the windows of view and macro rows: what the grouping reads besides tables. -/
structure CatalogMetadata where
  schemas : List SchemaRow := []
  views : List ValidityWindow := []
  macros : List ValidityWindow := []
  deriving DecidableEq, Repr

structure PublicSnapshot where
  representative : SnapshotRow
  orders : List CatalogOrderId
  deriving DecidableEq, Repr

def ValidityWindow.touches (window : ValidityWindow) (orders : List CatalogOrderId) : Bool :=
  decide (window.beginOrder ∈ orders) || window.endOrder.any fun endOrder => decide (endOrder ∈ orders)

def TableRow.sameUserVisibleSchemaAs (left right : TableRow) : Bool :=
  decide ({ left with validity := right.validity, inlinedDataTables := [] } = { right with inlinedDataTables := [] })

structure PublicSnapshotCoalesceContext where
  metadata : CatalogMetadata
  tables : List TableRow
  dataChanges : List SnapshotDataFileChangeKey
  inlineRows : List InlineTableChangeKey
  inlineFileDeletions : List InlineFileDeletionRow
  deleteFileChanges : List OrderTableKey

namespace PublicSnapshotCoalesceContext

def load (kv : CatalogKv) (metadata : CatalogMetadata) : PublicSnapshotCoalesceContext where
  metadata := metadata
  tables := kv.tableObject.entries.map fun entry => entry.2.withBeginOrder entry.1.order
  dataChanges := kv.snapshotDataFileChange.entries.map Prod.fst
  inlineRows := kv.inlineTableChange.entries.map Prod.fst
  inlineFileDeletions := kv.inlineFileDeletion.entries.map Prod.snd
  deleteFileChanges := kv.orderDeleteFileChange.entries.map Prod.fst

def hasDataChangesAt (context : PublicSnapshotCoalesceContext) (order : CatalogOrderId) : Bool :=
  context.dataChanges.any (fun change => change.order = order) ||
    context.inlineRows.any (fun change => change.order = order) ||
    context.inlineFileDeletions.any (fun row => row.validity.beginOrder = order) ||
    context.deleteFileChanges.any (fun change => change.order = order)

def groupHasDataChanges (context : PublicSnapshotCoalesceContext) (group : PublicSnapshot) : Bool :=
  group.orders.any context.hasDataChangesAt

def groupHasMetadataChanges (context : PublicSnapshotCoalesceContext) (group : PublicSnapshot) : Bool :=
  context.metadata.schemas.any (fun schema => schema.validity.touches group.orders) ||
    context.tables.any (fun table => table.validity.touches group.orders) ||
    context.metadata.views.any (fun view => view.touches group.orders) ||
    context.metadata.macros.any (fun macroRow => macroRow.touches group.orders)

def createdTableIds (context : PublicSnapshotCoalesceContext) (group : PublicSnapshot) : List TableId :=
  (context.tables.filter fun table => table.validity.beginOrder ∈ group.orders).map TableRow.tableId

def insertedTableIds (context : PublicSnapshotCoalesceContext) (group : PublicSnapshot) : List TableId :=
  ((context.dataChanges.filter fun change =>
      decide (change.order ∈ group.orders) && decide (change.kind = .added)).map SnapshotDataFileChangeKey.tableId) ++
    (context.inlineRows.filter fun change =>
      decide (change.order ∈ group.orders) && decide (change.kind = .inserted)).map InlineTableChangeKey.tableId

def touchedTableIds (context : PublicSnapshotCoalesceContext) (group : PublicSnapshot) : List TableId :=
  (context.tables.filter fun table => table.validity.touches group.orders).map TableRow.tableId

def onlyCreatesDefaultMainSchema (context : PublicSnapshotCoalesceContext) (group : PublicSnapshot) : Bool :=
  match context.metadata.schemas.filter fun schema => schema.validity.beginOrder ∈ group.orders with
  | [schema] => decide (schema.schemaId = 0) && decide (schema.name = "main")
  | _ => false

/-- The table versions that begin or end at the order, each with a partner of the same visible schema. -/
def replacedAt (context : PublicSnapshotCoalesceContext) (order : CatalogOrderId) : List (TableRow × Bool) :=
  (context.tables.filter fun table =>
      decide (table.validity.beginOrder = order) || decide (table.validity.endOrder = some order)).map fun table =>
    (table,
      if table.validity.beginOrder = order then
        context.tables.any fun previous => decide (previous.tableId = table.tableId) &&
          decide (previous.validity.endOrder = some order) && previous.sameUserVisibleSchemaAs table
      else
        context.tables.any fun next => decide (next.tableId = table.tableId) &&
          decide (next.validity.beginOrder = order) && table.sameUserVisibleSchemaAs next)

def onlyReplacesTablesWithoutSchemaChange (context : PublicSnapshotCoalesceContext) (group : PublicSnapshot) : Bool :=
  let replaced := group.orders.flatMap context.replacedAt
  !context.metadata.schemas.any (fun schema => schema.validity.touches group.orders) &&
    !context.metadata.views.any (fun view => view.touches group.orders) &&
    replaced.all Prod.snd && !replaced.isEmpty

end PublicSnapshotCoalesceContext

section

variable (context : PublicSnapshotCoalesceContext) (previous current : PublicSnapshot)

def shouldMergeMetadataGroupsInSameDucklakeCommit : Bool :=
  decide (previous.representative.sequence = current.representative.sequence) &&
    !context.groupHasDataChanges previous && !context.groupHasDataChanges current &&
    context.groupHasMetadataChanges previous && context.groupHasMetadataChanges current

def shouldMergeMetadataWithCreatedTableGroup : Bool :=
  decide (previous.representative.sequence = current.representative.sequence) &&
    !context.groupHasDataChanges current &&
    (context.createdTableIds previous).any fun tableId => decide (tableId ∈ context.touchedTableIds current)

def shouldMergeDataWithCreatedTableGroup : Bool :=
  decide (previous.representative.sequence = current.representative.sequence) &&
    (context.createdTableIds previous).any fun tableId => decide (tableId ∈ context.insertedTableIds current)

def shouldMergeSchemaHelperTableGroup : Bool :=
  !context.groupHasDataChanges current &&
    (!context.groupHasMetadataChanges current || context.onlyReplacesTablesWithoutSchemaChange current ||
      (!context.groupHasDataChanges previous && context.onlyCreatesDefaultMainSchema previous &&
        !(context.createdTableIds current).isEmpty))

def shouldMergePublicSnapshotGroups : Bool :=
  shouldMergeMetadataGroupsInSameDucklakeCommit context previous current ||
    shouldMergeMetadataWithCreatedTableGroup context previous current ||
    shouldMergeDataWithCreatedTableGroup context previous current ||
    shouldMergeSchemaHelperTableGroup context previous current

end

/-- The groups so far, newest first. -/
def coalescePublicSnapshot (context : PublicSnapshotCoalesceContext) (groups : List PublicSnapshot)
    (snapshot : SnapshotRow) : List PublicSnapshot :=
  let current : PublicSnapshot := ⟨snapshot, [snapshot.order]⟩
  match groups with
  | [] => [current]
  | previous :: earlier =>
    if shouldMergePublicSnapshotGroups context previous current then
      { previous with orders := previous.orders ++ current.orders } :: earlier
    else current :: previous :: earlier

def coalescedPublicSnapshotGroups (context : PublicSnapshotCoalesceContext) (snapshots : List SnapshotRow) :
    List PublicSnapshot :=
  (snapshots.foldl (coalescePublicSnapshot context) []).reverse

def publicSnapshotSequencesByOrder (groups : List PublicSnapshot) : OrderedMap CatalogOrderId RawSnapshotSequence :=
  (groups.flatMap fun group => group.orders.map fun order => (order, group.representative.sequence)).foldl
    (fun sequences entry => sequences.insert entry.1 entry.2) .empty

def publicSnapshotSequenceForOrder (kv : CatalogKv) (metadata : CatalogMetadata) (order : CatalogOrderId) :
    CatalogResult (Option RawSnapshotSequence) := do
  let snapshots ← listSnapshots kv
  let groups := coalescedPublicSnapshotGroups (.load kv metadata) snapshots
  return (publicSnapshotSequencesByOrder groups).get? order

end DucklakeCatalog
