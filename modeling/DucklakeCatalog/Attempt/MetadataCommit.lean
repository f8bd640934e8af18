import DucklakeCatalog.Attempt.AssembledTables
import DucklakeCatalog.Attempt.SchemasAndViews
import DucklakeCatalog.Fdb.TableWrites
import DucklakeCatalog.Snapshot.ReadContext

/-! The metadata part of a commit attempt. Its intents are put together and
checked against the latest snapshot; the commit reads the catalog once more and
writes everything in one transaction. -/
namespace DucklakeCatalog.Fdb

open KeyedStore

inductive MetadataIntent where
  | createSchemas (schemas : List SchemaRow)
  | dropSchemas (schemaIds : List SchemaId)
  | createTables (tables : List TableRow)
  | replaceTables (tableIds : List TableId) (tables : List TableRow)
  | createViews (views : List ViewRow)
  | dropViews (viewIds : List ViewId)
  | renameViews (renames : List ViewRename)
  | addColumns (columns : List (TableId × TableColumnRow))
  | renameColumns (columns : List (TableId × TableColumnRow))
  | changeColumnDefaults (columns : List (TableId × TableColumnRow))
  | changeColumnTypes (columns : List (TableId × TableColumnRow))
  | renameTables (renames : List TableRename)
  | changeComments (tables : List (TableId × Option String)) (columns : List (TableId × ColumnId × Option String))
  | dropColumns (drops : List ColumnDrop)
  | changeSortKeys (tableId : TableId) (sort : Option TableSortRow)
  | changeViewComment (change : ViewCommentChange)
  | changePartitionKeys (changes : List (TableId × Option TablePartitionRow))

structure MetadataAttempt where
  now : Int
  readSnapshot : Option RawSnapshotSequence := none
  sequence : RawSnapshotSequence
  commitMetadata : SnapshotCommitMetadata := {}
  intents : List MetadataIntent

/-! ## Assembling facts -/

/-- What the intents of an attempt ask for, table by table and object by object. -/
structure MetadataFacts where
  tables : TableIntentAssembler
  createdSchemas : List SchemaRow := []
  droppedSchemaIds : List SchemaId := []
  droppedTableIds : List TableId := []
  replacementTables : List TableRow := []
  createdViews : List ViewRow := []
  droppedViewIds : List ViewId := []
  viewRenames : List ViewRename := []
  viewCommentChanges : List ViewCommentChange := []
  touchedExistingTableIds : List TableId := []

def oneColumnTable (columns : List (TableId × TableColumnRow)) : CatalogResult Unit :=
  match columns with
  | [] => .ok ()
  | (tableId, _) :: _ =>
    if columns.any fun other => other.1 ≠ tableId then
      .error (.invalidMutation "AddColumns only supports one table per operation")
    else .ok ()

/-- The facts about tables that an intent lists, in its order. -/
def MetadataIntent.tableFacts : MetadataIntent → CatalogResult (List TableFact)
  | .createTables tables => .ok (tables.map .createTable)
  | .addColumns columns => do
    oneColumnTable columns
    return columns.map fun entry => .addColumn entry.1 entry.2
  | .renameColumns columns => .ok (columns.map fun entry => .renameColumn entry.1 entry.2)
  | .changeColumnDefaults columns => .ok (columns.map fun entry => .changeColumnDefault entry.1 entry.2)
  | .changeColumnTypes columns => .ok (columns.map fun entry => .changeColumnType entry.1 entry.2)
  | .renameTables renames => .ok (renames.map fun rename => .renameTable rename.tableId rename.newName)
  | .changeComments tables columns => .ok
    ((tables.map fun entry => .changeTableComment entry.1 entry.2) ++
      columns.map fun entry => .changeColumnComment entry.1 entry.2.1 entry.2.2)
  | .dropColumns drops => .ok (drops.map fun drop => .dropColumn drop.tableId drop.columnId)
  | .changeSortKeys tableId sort => .ok [.changeSortKeys tableId sort]
  | .changePartitionKeys changes => .ok (changes.map fun entry => .changePartitionKeys entry.1 entry.2)
  | _ => .ok []

end DucklakeCatalog.Fdb

namespace DucklakeCatalog

/-- The existing table a fact is about. -/
def TableFact.existingTableId : TableFact → Option TableId
  | .createTable _ => none
  | .renameTable tableId _ => some tableId
  | .addColumn tableId _ => some tableId
  | .renameColumn tableId _ => some tableId
  | .changeColumnDefault tableId _ => some tableId
  | .changeColumnType tableId _ => some tableId
  | .dropColumn tableId _ => some tableId
  | .changeTableComment tableId _ => some tableId
  | .changeColumnComment tableId _ _ => some tableId
  | .changeSortKeys tableId _ => some tableId
  | .changePartitionKeys tableId _ => some tableId

end DucklakeCatalog

namespace DucklakeCatalog.Fdb

open KeyedStore

namespace MetadataFacts

def applyTableFacts (facts : MetadataFacts) (tableFacts : List TableFact) : CatalogResult MetadataFacts :=
  (tableFacts.foldlM TableIntentAssembler.apply facts.tables).map fun tables =>
    { facts with
      tables := tables
      touchedExistingTableIds := facts.touchedExistingTableIds ++ tableFacts.filterMap TableFact.existingTableId }

def applyIntent (facts : MetadataFacts) (intent : MetadataIntent) : CatalogResult MetadataFacts :=
  match intent with
  | .createSchemas schemas => .ok { facts with createdSchemas := facts.createdSchemas ++ schemas }
  | .dropSchemas schemaIds => .ok { facts with droppedSchemaIds := facts.droppedSchemaIds ++ schemaIds }
  | .replaceTables tableIds tables => .ok { facts with
      droppedTableIds := facts.droppedTableIds ++ tableIds
      replacementTables := facts.replacementTables ++ tables }
  | .createViews views => .ok { facts with createdViews := facts.createdViews ++ views }
  | .dropViews viewIds => .ok { facts with droppedViewIds := facts.droppedViewIds ++ viewIds }
  | .renameViews renames => .ok { facts with viewRenames := facts.viewRenames ++ renames }
  | .changeViewComment change => .ok { facts with viewCommentChanges := facts.viewCommentChanges ++ [change] }
  | intent => do
    let tableFacts ← intent.tableFacts
    facts.applyTableFacts tableFacts

end MetadataFacts

def assembleFacts (kv : CatalogKv) (baseOrder : CatalogOrderId) (intents : List MetadataIntent) :
    CatalogResult MetadataFacts :=
  intents.foldlM MetadataFacts.applyIntent { tables := .new kv baseOrder }

/-! ## Conflict checks -/

abbrev SchemaParents := OrderedMap SchemaId (Option SchemaId)

/-- The schemas that are current after the drops. -/
def keptSchemas (current : List SchemaRow) (droppedSchemaIds : List SchemaId) : List SchemaRow :=
  current.filter fun schema => schema.schemaId ∉ droppedSchemaIds

def schemaParents (schemas : List SchemaRow) : SchemaParents :=
  schemas.foldl (fun parents schema => parents.insert schema.schemaId schema.parentSchemaId) .empty

/-- One walk from a schema up to the root; each step adds the parent it reaches to `seen`. -/
def followSchemaParents (parents : SchemaParents) : Nat → List SchemaId → Option SchemaId → CatalogResult Unit
  | _, _, none => .ok ()
  | 0, _, some _ => .error (.invalidMutation "schema parent cycle")
  | fuel + 1, seen, some parentId =>
    if parentId ∈ seen then .error (.invalidMutation "schema parent cycle")
    else if parentId = 0 then .ok ()
    else
      match parents.get? parentId with
      | none => .error (.invalidMutation s!"parent schema {parentId} no longer exists")
      | some parent => followSchemaParents parents fuel (parentId :: seen) parent

/-- Each step of a walk but the last one passes another schema. -/
def rejectInvalidSchemaParents (parents : SchemaParents) : CatalogResult Unit :=
  parents.entries.forM fun entry =>
    followSchemaParents parents (parents.entries.length + 1) [entry.1] entry.2

def schemaNameKey (schema : SchemaRow) : Option SchemaId × String := (schema.parentSchemaId, schema.name.toLower)

def rejectRepeatedSchema (known : List SchemaId × List (Option SchemaId × String)) (schema : SchemaRow) :
    CatalogResult (List SchemaId × List (Option SchemaId × String)) :=
  if schema.schemaId ∈ known.1 then
    .error (.invalidMutation
      s!"conflict creating schema {schema.name}: schema id {schema.schemaId} already exists")
  else if schemaNameKey schema ∈ known.2 then
    .error (.invalidMutation s!"conflict creating schema {schema.name}: schema name already exists")
  else .ok (schema.schemaId :: known.1, schemaNameKey schema :: known.2)

def rejectSchemaCreateConflicts (current createdSchemas : List SchemaRow) (droppedSchemaIds : List SchemaId) :
    CatalogResult Unit :=
  if createdSchemas = [] then .ok ()
  else do
    let kept := keptSchemas current droppedSchemaIds
    rejectInvalidSchemaParents (schemaParents (kept ++ createdSchemas))
    let _ ← createdSchemas.foldlM rejectRepeatedSchema (kept.map SchemaRow.schemaId, kept.map schemaNameKey)
    return ()

/-- A dropped schema that is created again is there. -/
def schemaIdsAfter (current createdSchemas : List SchemaRow) (droppedSchemaIds : List SchemaId) : List SchemaId :=
  (keptSchemas current droppedSchemaIds ++ createdSchemas).map SchemaRow.schemaId

def rejectTableTargetSchemaConflicts (current createdSchemas : List SchemaRow) (droppedSchemaIds : List SchemaId)
    (tables : List TableRow) : CatalogResult Unit :=
  tables.forM fun table =>
    if table.schemaId ≠ 0 ∧ table.schemaId ∉ schemaIdsAfter current createdSchemas droppedSchemaIds then
      .error (.invalidMutation s!"conflict creating table {table.name}: schema {table.schemaId} no longer exists")
    else .ok ()

def rejectSchemaDropConflicts (current : List SchemaRow) (currentTables : List TableRow)
    (droppedSchemaIds : List SchemaId) (droppedTableIds : List TableId) : CatalogResult Unit :=
  if droppedSchemaIds = [] then .ok ()
  else do
    current.forM fun schema =>
      if (schema.parentSchemaId.any fun parentId => decide (parentId ∈ droppedSchemaIds)) ∧
          schema.schemaId ∉ droppedSchemaIds then
        .error (.invalidMutation s!"conflict dropping parent schema: child {schema.name} exists")
      else .ok ()
    currentTables.forM fun table =>
      if table.schemaId ∈ droppedSchemaIds ∧ table.tableId ∉ droppedTableIds then
        .error (.invalidMutation s!"conflict dropping schema {table.schemaId}: table {table.name} exists")
      else .ok ()

/-- What the grouping of public snapshots reads of schemas, views and macros. -/
def MetadataStore.metadata (store : MetadataStore) : CatalogMetadata where
  schemas := store.catalog.schemaObject.entries.map fun entry =>
    { schemaId := entry.2.schemaId, name := entry.2.name
      validity := { entry.2.validity with beginOrder := (ofLex entry.1).2 } }
  views := store.viewObject.entries.map fun entry => { entry.2.validity with beginOrder := (ofLex entry.1).2 }
  macros := store.macros

/-- The snapshot a client has read; an id one above the latest stands for the latest. -/
def conflictReadSnapshot (kv : CatalogKv) (metadata : CatalogMetadata) (readSnapshot : RawSnapshotSequence)
    (latest : SnapshotRow) : CatalogResult SnapshotRow := do
  match ← snapshotByPublicSequence kv metadata readSnapshot with
  | some snapshot => return snapshot
  | none =>
    match ← retainedSnapshotByDucklakeSequence kv metadata readSnapshot with
    | some snapshot => return snapshot
    | none =>
      if saturatingAdd latest.sequence 1 = readSnapshot then return latest
      else
        .error (.invalidMutation
          s!"read snapshot {readSnapshot} is not available for conflict checks; latest catalog snapshot is {latest.sequence}")

/-- A table that others have changed since may still be changed to what it is now. -/
def rejectStaleTableChange (kv : CatalogKv) (readSnapshot : SnapshotRow) (replacements : List TableVersionReplacement)
    (tableId : TableId) : CatalogResult Unit :=
  match loadTableAt kv tableId readSnapshot.order with
  | none => .error (.notFound "table at read snapshot")
  | some readTable =>
    match kv.currentTableRow.get? tableId with
    | none =>
      .error (.invalidMutation
        s!"conflict changing table {tableId}: table was dropped after read snapshot {readSnapshot.sequence}")
    | some currentTable =>
      if readTable.validity.beginOrder ≠ currentTable.validity.beginOrder ∧
          (replacements.find? fun replacement => replacement.next.tableId = tableId).any
            fun replacement => !replacement.next.sameUserVisibleSchemaAs currentTable then
        .error (.invalidMutation
          s!"conflict changing table {tableId}: table metadata changed after read snapshot {readSnapshot.sequence}")
      else .ok ()

def rejectStaleExistingTableChanges (read : MetadataStore) (readSnapshot : Option RawSnapshotSequence)
    (createdTables : List CreatedTable) (replacements : List TableVersionReplacement)
    (touchedExistingTableIds : List TableId) : CatalogResult Unit :=
  let createdTableIds := createdTables.flatMap fun table => [table.requestedTableId, table.tableId]
  let staleCheckedTableIds :=
    (touchedExistingTableIds.filter fun tableId => tableId ∉ createdTableIds).dedup.insertionSort (· ≤ ·)
  if staleCheckedTableIds = [] then .ok ()
  else
    match readSnapshot with
    | none => .ok ()
    | some readSnapshot => do
      let latest ← loadLatestSnapshot read.catalog.kv
      let readSnapshot ← conflictReadSnapshot read.catalog.kv read.metadata readSnapshot latest
      staleCheckedTableIds.forM (rejectStaleTableChange read.catalog.kv readSnapshot replacements)

def rejectStaleViewComment (read : MetadataStore) (latest readSnapshot : SnapshotRow) (change : ViewCommentChange) :
    CatalogResult Unit :=
  match loadViewAt read change.viewId readSnapshot.order with
  | none => .ok ()
  | some readView =>
    match loadViewAt read change.viewId latest.order with
    | none => .error (.notFound "view")
    | some currentView =>
      if readView.validity.beginOrder ≠ currentView.validity.beginOrder then
        .error (.invalidMutation
          s!"another transaction has altered it: view {change.viewId} changed after read snapshot {readSnapshot.sequence}")
      else .ok ()

def rejectViewCommentConflicts (read : MetadataStore) (readSnapshot : Option RawSnapshotSequence)
    (changes : List ViewCommentChange) : CatalogResult Unit :=
  if changes = [] then .ok ()
  else
    match readSnapshot, latestSnapshot read.catalog.kv with
    | some readSnapshot, some latest => do
      let readSnapshot ← conflictReadSnapshot read.catalog.kv read.metadata readSnapshot latest
      changes.forM (rejectStaleViewComment read latest readSnapshot)
    | _, _ => .ok ()

/-! ## Preparing the commit -/

/-- Everything the transaction writes; `seen` is what its preparation read. -/
structure MetadataCommit where
  seen : CatalogKv
  now : Int
  sequence : RawSnapshotSequence
  metadata : SnapshotCommitMetadata
  createdSchemas : List SchemaRow
  droppedSchemas : List SchemaRow
  createdTables : List TableRow
  replacements : List TableVersionReplacement
  drops : List PreparedTableDrop
  replacementTables : List TableRow
  views : PreparedViewChanges

def MetadataFacts.changesViews (facts : MetadataFacts) : Bool :=
  facts.createdViews ≠ [] ∨ facts.viewRenames ≠ [] ∨ facts.droppedViewIds ≠ [] ∨ facts.viewCommentChanges ≠ []

def prepareViews (seen : MetadataStore) (latest : SnapshotRow) (facts : MetadataFacts) :
    CatalogResult PreparedViewChanges :=
  if facts.changesViews then
    prepareViewChanges facts.createdViews facts.viewRenames facts.droppedViewIds facts.viewCommentChanges
      (listViewsAt seen latest.order) (listTablesAt seen.catalog.kv latest.order)
  else .ok {}

def loadDroppedSchema (seen : FdbStore) (latest : SnapshotRow) (schemaId : SchemaId) : CatalogResult SchemaRow :=
  (loadSchemaAt seen schemaId latest.order).elim (.error (.notFound "schema")) .ok

def prepareMetadataCommit (seen : MetadataStore) (attempt : MetadataAttempt) (facts : MetadataFacts)
    (parts : TableCommitParts) : CatalogResult MetadataCommit := do
  let latest ← loadLatestSnapshot seen.catalog.kv
  let droppedSchemas ← facts.droppedSchemaIds.mapM (loadDroppedSchema seen.catalog latest)
  let drops ← prepareTableDrops seen.catalog.kv facts.droppedTableIds
  if facts.replacementTables ≠ [] then
    rejectReplacementCreateConflicts seen.catalog.kv latest.order drops facts.replacementTables
  let views ← prepareViews seen latest facts
  return {
    seen := seen.catalog.kv, now := attempt.now, sequence := attempt.sequence, metadata := attempt.commitMetadata
    createdSchemas := facts.createdSchemas, droppedSchemas, createdTables := parts.createdRows
    replacements := parts.replacements, drops, replacementTables := facts.replacementTables, views }

/-- The checks of an assembled attempt against the catalog it was assembled from. -/
def rejectMetadataConflicts (read : MetadataStore) (latest : SnapshotRow) (attempt : MetadataAttempt)
    (facts : MetadataFacts) (parts : TableCommitParts) : CatalogResult Unit := do
  let current := listSchemasAt read.catalog latest.order
  rejectSchemaCreateConflicts current facts.createdSchemas facts.droppedSchemaIds
  rejectTableTargetSchemaConflicts current facts.createdSchemas facts.droppedSchemaIds
    (parts.createdRows ++ facts.replacementTables)
  rejectSchemaDropConflicts current (listTablesAt read.catalog.kv latest.order) facts.droppedSchemaIds
    facts.droppedTableIds
  rejectStaleExistingTableChanges read attempt.readSnapshot parts.createdTables parts.replacements
    facts.touchedExistingTableIds
  rejectViewCommentConflicts read attempt.readSnapshot facts.viewCommentChanges

/-- The commit an attempt makes and the tables it has created; without intents there is none. -/
def commitMetadataIntents (toLowercase : String → String) (read seen : MetadataStore) (attempt : MetadataAttempt) :
    CatalogResult (Option (MetadataCommit × List CreatedTable)) :=
  if attempt.intents.isEmpty then .ok none
  else do
    let latest ← loadLatestSnapshot read.catalog.kv
    let facts ← assembleFacts read.catalog.kv latest.order attempt.intents
    let parts ← facts.tables.intoCommitParts toLowercase
    rejectMetadataConflicts read latest attempt facts parts
    let commit ← prepareMetadataCommit seen attempt facts parts
    return some (commit, parts.createdTables ++ facts.replacementTables.map .unremapped)

/-! ## The transaction -/

/-- Tables replaced and created, dropped, and created in place of dropped ones, in this order. -/
def stageTables (order : CatalogOrderId) (commit : MetadataCommit) (store : FdbStore) : FdbStore :=
  let replaced := commit.replacements.foldl (stageTableReplacement order) store
  let created := commit.createdTables.foldl (stageCreatedTable order) replaced
  let changed := stageMaxTableId (stageMaxTableId created (commit.createdTables.map TableRow.tableId))
    (commit.createdTables.map TableRow.tableId ++ commit.replacements.map TableVersionReplacement.tableId)
  let dropped := commit.drops.foldl (stageDrop commit.seen order) changed
  stageMaxTableId (commit.replacementTables.foldl (stageCreatedTable order) dropped)
    (commit.replacementTables.map TableRow.tableId)

def MetadataCommit.transact (commit : MetadataCommit) (store : MetadataStore) : MetadataStore :=
  let order := store.catalog.commitOrder
  let opened := openTableCommit commit.now commit.sequence commit.metadata store.catalog
  let staged := stageTables order commit (stageSchemas order commit.createdSchemas commit.droppedSchemas opened)
  let viewed := stageViewChanges order commit.views { store with catalog := staged }
  { viewed with catalog := viewed.catalog.commitAt order }

end DucklakeCatalog.Fdb
