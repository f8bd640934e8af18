import DucklakeCatalog.Inline.FileDeletes
import DucklakeCatalog.KeyedStore.OrderedSet
import DucklakeCatalog.Snapshot.ReadContext

namespace DucklakeCatalog

open KeyedStore

/-! ## Changes of metadata -/

/-- Of a view the listing reads its place and its name. -/
structure ViewRow where
  viewId : Nat
  schemaId : SchemaId
  name : String
  validity : ValidityWindow
  deriving DecidableEq, Repr

/-- Of a macro the listing reads its place, its name and the types of its implementations. -/
structure MacroRow where
  macroId : Nat
  schemaId : SchemaId
  name : String
  macroTypes : List String
  validity : ValidityWindow
  deriving DecidableEq, Repr

/-- One entry of the text that describes a snapshot. -/
inductive SnapshotChange where
  | createdSchema (name : String)
  | droppedSchema (schemaId : SchemaId)
  | createdTable (schemaName name : String)
  | alteredTable (tableId : TableId)
  | droppedTable (tableId : TableId)
  | createdView (schemaName name : String)
  | alteredView (viewId : Nat)
  | droppedView (viewId : Nat)
  | createdMacro (isTable : Bool) (schemaName name : String)
  | droppedMacro (isTable : Bool) (macroId : Nat)
  | inlinedInsert (tableId : TableId)
  | inlinedDelete (tableId : TableId)
  | flushedInlined (tableId : TableId)
  | insertedIntoTable (tableId : TableId)
  | deletedFromTable (tableId : TableId)
  | mergeAdjacent (tableId : TableId)
  | rewriteDelete (tableId : TableId)
  deriving DecidableEq, Repr

def quotedValue (value : String) : String :=
  "\"" ++ value.replace "\"" "\"\"" ++ "\""

def SnapshotChange.text : SnapshotChange → String
  | createdSchema name => s!"created_schema:{quotedValue name}"
  | droppedSchema schemaId => s!"dropped_schema:{schemaId}"
  | createdTable schemaName name => s!"created_table:{quotedValue schemaName}.{quotedValue name}"
  | alteredTable tableId => s!"altered_table:{tableId}"
  | droppedTable tableId => s!"dropped_table:{tableId}"
  | createdView schemaName name => s!"created_view:{quotedValue schemaName}.{quotedValue name}"
  | alteredView viewId => s!"altered_view:{viewId}"
  | droppedView viewId => s!"dropped_view:{viewId}"
  | createdMacro true schemaName name => s!"created_table_macro:{quotedValue schemaName}.{quotedValue name}"
  | createdMacro false schemaName name => s!"created_scalar_macro:{quotedValue schemaName}.{quotedValue name}"
  | droppedMacro true macroId => s!"dropped_table_macro:{macroId}"
  | droppedMacro false macroId => s!"dropped_scalar_macro:{macroId}"
  | inlinedInsert tableId => s!"inlined_insert:{tableId}"
  | inlinedDelete tableId => s!"inlined_delete:{tableId}"
  | flushedInlined tableId => s!"flushed_inlined:{tableId}"
  | insertedIntoTable tableId => s!"inserted_into_table:{tableId}"
  | deletedFromTable tableId => s!"deleted_from_table:{tableId}"
  | mergeAdjacent tableId => s!"merge_adjacent:{tableId}"
  | rewriteDelete tableId => s!"rewrite_delete:{tableId}"

/-- The changes as the text a client reads. -/
def changesText (changes : List SnapshotChange) : String :=
  String.intercalate "," (changes.map SnapshotChange.text)

inductive MetadataEvent (α : Type) where
  | begins (row : α)
  | ends (row : α)

def metadataEventsAt {α : Type} (validity : α → ValidityWindow) (rows : List α) (order : CatalogOrderId) :
    List (MetadataEvent α) :=
  rows.flatMap fun row =>
    (if (validity row).beginOrder = order then [.begins row] else []) ++
      (if (validity row).endOrder = some order then [.ends row] else [])

/-- The version of a table that begins at an order; of several the last one counts. -/
def begunTable (tables : List TableRow) (order : CatalogOrderId) (tableId : TableId) : Option TableRow :=
  (tables.filter fun table => decide (table.validity.beginOrder = order) && decide (table.tableId = tableId)).getLast?

def endedTable (tables : List TableRow) (order : CatalogOrderId) (tableId : TableId) : Option TableRow :=
  (tables.filter fun table =>
    decide (table.validity.endOrder = some order) && decide (table.tableId = tableId)).getLast?

/-- The rows a change text is built from; both ways to read a snapshot's changes load the same ones. -/
structure SnapshotMetadataChangeIndex where
  schemas : List SchemaRow := []
  tables : List TableRow := []
  views : List ViewRow := []
  macros : List MacroRow := []

namespace SnapshotMetadataChangeIndex

variable (index : SnapshotMetadataChangeIndex) (order : CatalogOrderId)

/-- The default schema is not stored; one that is not found goes by its id. -/
def schemaNameAt (schemaId : SchemaId) : String :=
  if schemaId = 0 then "main"
  else
    match (index.schemas.filter fun schema =>
        decide (schema.schemaId = schemaId) && decide (schema.validity.beginOrder ≤ order)).getLast? with
    | none => toString schemaId
    | some schema => if schema.validity.isVisibleAt order then schema.name else toString schemaId

def schemaChange : MetadataEvent SchemaRow → SnapshotChange
  | .begins schema => .createdSchema schema.name
  | .ends schema => .droppedSchema schema.schemaId

def isAlteredTable (tableId : TableId) : Bool :=
  index.tables.any fun table => decide (table.validity.endOrder = some order) && decide (table.tableId = tableId) &&
    (begunTable index.tables order table.tableId).any fun next => !table.sameUserVisibleSchemaAs next

def isRenamedTable (tableId : TableId) : Bool :=
  index.tables.any fun table => decide (table.validity.beginOrder = order) && decide (table.tableId = tableId) &&
    (endedTable index.tables order table.tableId).any fun previous =>
      decide (previous.name ≠ table.name) || decide (previous.schemaId ≠ table.schemaId)

def tableChanges : MetadataEvent TableRow → List SnapshotChange
  | .begins table =>
    if (endedTable index.tables order table.tableId).any fun previous => previous.sameUserVisibleSchemaAs table then []
    else if index.isAlteredTable order table.tableId && !index.isRenamedTable order table.tableId then []
    else
      .createdTable (index.schemaNameAt order table.schemaId) table.name ::
        if !index.isRenamedTable order table.tableId && (table.partition.isSome || table.sort.isSome) then
          [.alteredTable table.tableId]
        else []
  | .ends table =>
    if index.isAlteredTable order table.tableId then [.alteredTable table.tableId]
    else if (begunTable index.tables order table.tableId).any fun next => table.sameUserVisibleSchemaAs next then []
    else [.droppedTable table.tableId]

def isAlteredView (viewId : Nat) : Bool :=
  (index.views.any fun view => decide (view.validity.endOrder = some order) && decide (view.viewId = viewId)) &&
    index.views.any fun view => decide (view.validity.beginOrder = order) && decide (view.viewId = viewId)

def viewChanges : MetadataEvent ViewRow → List SnapshotChange
  | .begins view =>
    if index.isAlteredView order view.viewId then []
    else [.createdView (index.schemaNameAt order view.schemaId) view.name]
  | .ends view =>
    if index.isAlteredView order view.viewId then [.alteredView view.viewId] else [.droppedView view.viewId]

def macroChange : MetadataEvent MacroRow → SnapshotChange
  | .begins row => .createdMacro (decide ("table" ∈ row.macroTypes)) (index.schemaNameAt order row.schemaId) row.name
  | .ends row => .droppedMacro (decide ("table" ∈ row.macroTypes)) row.macroId

def changesAt : List SnapshotChange :=
  (metadataEventsAt SchemaRow.validity index.schemas order).map schemaChange ++
    (metadataEventsAt TableRow.validity index.tables order).flatMap (index.tableChanges order) ++
    (metadataEventsAt ViewRow.validity index.views order).flatMap (index.viewChanges order) ++
    (metadataEventsAt MacroRow.validity index.macros order).map (index.macroChange order)

end SnapshotMetadataChangeIndex

/-! ## Changes of data -/

/-- A set of tables in the order the source keeps it. -/
def tableSet (tableIds : List TableId) : List TableId := tableIds.dedup.insertionSort (· ≤ ·)

theorem mem_tableSet {tableIds : List TableId} {tableId : TableId} : tableId ∈ tableSet tableIds ↔ tableId ∈ tableIds :=
  mem_orderedSet

structure SnapshotChangeFacts where
  dataFileChanges : List SnapshotDataFileChangeKey
  deleteMarked : List TableId
  inlinedInserted : List TableId
  inlinedDeleted : List TableId
  inlineFileDeleted : List TableId
  flushedInlined : List TableId
  explicitRewriteDeletes : List TableId
  deriving DecidableEq, Repr

namespace SnapshotChangeFacts

def snapshotInlineRowChangedTableIdsAt (kv : CatalogKv) (order : CatalogOrderId) (kind : InlineRowChangeKind) :
    List TableId :=
  tableSet ((kv.inlineTableChange.scan fun key => key.order = order && key.kind = kind).map fun entry => entry.1.tableId)

def snapshotOperationTableIdsAt (kv : CatalogKv) (order : CatalogOrderId) (kind : SnapshotOperationKind) :
    List TableId :=
  tableSet ((kv.snapshotOperation.scan fun key => key.order = order && key.kind = kind).map fun entry => entry.1.tableId)

/-- The facts of one order, each read from its own index. -/
def load (kv : CatalogKv) (order : CatalogOrderId) : SnapshotChangeFacts where
  dataFileChanges := (kv.snapshotDataFileChange.scan fun key => key.order = order).map Prod.fst
  deleteMarked := tableSet ((kv.orderDeleteFileChange.scan fun key => key.order = order).map fun entry => entry.1.tableId)
  inlinedInserted := snapshotInlineRowChangedTableIdsAt kv order .inserted
  inlinedDeleted := snapshotInlineRowChangedTableIdsAt kv order .deleted
  inlineFileDeleted := tableSet (((kv.inlineFileDeletion.entries.map decodeInlineFileDeletion).filter fun row =>
    row.validity.beginOrder = order).map InlineFileDeletionRow.tableId)
  flushedInlined := snapshotOperationTableIdsAt kv order .inlineFlush
  explicitRewriteDeletes := snapshotOperationTableIdsAt kv order .rewriteDelete

/-- The facts of one order, out of the indexes a listing has read as a whole. -/
def fromContext (context : PublicSnapshotCoalesceContext) (operations : List SnapshotOperationKey)
    (order : CatalogOrderId) : SnapshotChangeFacts where
  dataFileChanges := context.dataChanges.filter fun change => change.order = order
  deleteMarked := tableSet ((context.deleteFileChanges.filter fun change => change.order = order).map OrderTableKey.tableId)
  inlinedInserted := tableSet ((context.inlineRows.filter fun change =>
    decide (change.order = order) && decide (change.kind = .inserted)).map InlineTableChangeKey.tableId)
  inlinedDeleted := tableSet ((context.inlineRows.filter fun change =>
    decide (change.order = order) && decide (change.kind = .deleted)).map InlineTableChangeKey.tableId)
  inlineFileDeleted := tableSet ((context.inlineFileDeletions.filter fun row =>
    row.validity.beginOrder = order).map InlineFileDeletionRow.tableId)
  flushedInlined := tableSet ((operations.filter fun operation =>
    decide (operation.order = order) && decide (operation.kind = .inlineFlush)).map SnapshotOperationKey.tableId)
  explicitRewriteDeletes := tableSet ((operations.filter fun operation =>
    decide (operation.order = order) && decide (operation.kind = .rewriteDelete)).map SnapshotOperationKey.tableId)

variable (facts : SnapshotChangeFacts)

def changedTables (kind : DataFileChangeKind) : List TableId :=
  tableSet ((facts.dataFileChanges.filter fun change => change.kind = kind).map SnapshotDataFileChangeKey.tableId)

/-- Flushed tables that gained a file. -/
def flushed : List TableId :=
  facts.flushedInlined.filter fun tableId => tableId ∈ facts.changedTables .added

/-- Tables that gained and lost files in one commit are taken for compacted ones. -/
def rewrites : List TableId :=
  (facts.changedTables .added).filter fun tableId => tableId ∈ facts.changedTables .removed

def rewriteDeletes : List TableId :=
  facts.rewrites.filter fun tableId =>
    decide (tableId ∈ facts.deleteMarked) || decide (tableId ∈ facts.inlineFileDeleted) ||
      decide (tableId ∈ facts.explicitRewriteDeletes)

def mergeAdjacent : List TableId :=
  facts.rewrites.filter fun tableId => tableId ∉ facts.rewriteDeletes

def inserted : List TableId :=
  (facts.changedTables .added).filter fun tableId =>
    decide (tableId ∉ facts.rewrites) && decide (tableId ∉ facts.flushed)

def deleted : List TableId :=
  (tableSet (facts.deleteMarked ++
    (facts.changedTables .removed).filter fun tableId => tableId ∉ facts.rewrites)).filter fun tableId =>
      tableId ∉ facts.rewriteDeletes

def changes : List SnapshotChange :=
  facts.inlinedInserted.map .inlinedInsert ++ (facts.inlinedDeleted ++ facts.inlineFileDeleted).map .inlinedDelete ++
    facts.flushed.map .flushedInlined ++ facts.inserted.map .insertedIntoTable ++
    facts.deleted.map .deletedFromTable ++ facts.mergeAdjacent.map .mergeAdjacent ++
    facts.rewriteDeletes.map .rewriteDelete

end SnapshotChangeFacts

def snapshotChangesMadeFromFacts (order : CatalogOrderId) (metadata : SnapshotMetadataChangeIndex)
    (facts : SnapshotChangeFacts) : List SnapshotChange :=
  metadata.changesAt order ++ facts.changes

def snapshotChangesMade (kv : CatalogKv) (metadata : SnapshotMetadataChangeIndex) (order : CatalogOrderId) :
    List SnapshotChange :=
  snapshotChangesMadeFromFacts order metadata (SnapshotChangeFacts.load kv order)

/-- The entry of a listing joins what each of its orders changed; orders without a change leave no comma. -/
def publicSnapshotChangesMade (snapshot : PublicSnapshot) (metadata : SnapshotMetadataChangeIndex)
    (context : PublicSnapshotCoalesceContext) (operations : List SnapshotOperationKey) : List SnapshotChange :=
  snapshot.orders.flatMap fun order =>
    snapshotChangesMadeFromFacts order metadata (SnapshotChangeFacts.fromContext context operations order)

end DucklakeCatalog
