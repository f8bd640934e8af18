import DucklakeCatalog.Fdb.InlineCommits
import DucklakeCatalog.Table.Commits

/-! Table metadata of the FoundationDB backend. Names, ids and replaced rows are
checked and read before the transaction, which only writes. -/
namespace DucklakeCatalog.Fdb

open KeyedStore

/-- Table names are indexed by schema, ignoring the case of ASCII letters. -/
def currentTableNameKey (schemaId : SchemaId) (name : String) : SchemaId ×ₗ String := toLex (schemaId, name.toLower)

def tableNameKey (table : TableRow) : SchemaId ×ₗ String := currentTableNameKey table.schemaId table.name

/-! ## Staging -/

def stageCurrentTableName (store : FdbStore) (table : TableRow) : FdbStore :=
  { store with currentTableName := store.currentTableName.insert (tableNameKey table) table.tableId }

def stageRemoveCurrentTableName (store : FdbStore) (table : TableRow) : FdbStore :=
  { store with currentTableName := store.currentTableName.erase (tableNameKey table) }

/-- A replacement clears its old name and sets its new one, whoever has either by then. -/
def stageCurrentTableNameReplacement (store : FdbStore) (replacement : TableVersionReplacement) : FdbStore :=
  if tableNameKey replacement.previous ≠ tableNameKey replacement.next then
    stageCurrentTableName (stageRemoveCurrentTableName store replacement.previous) replacement.next
  else store

def stageCurrentTableRow (order : CatalogOrderId) (kv : CatalogKv) (table : TableRow) : CatalogKv :=
  { kv with currentTableRow := kv.currentTableRow.insert table.tableId (table.withBeginOrder order) }

def stageTableVisibilityBegin (order : CatalogOrderId) (kv : CatalogKv) (table : TableRow) : CatalogKv :=
  { kv with tableVisibility := kv.tableVisibility.insert ⟨order, table.tableId⟩ table }

def stageTableVisibilityEnd (kv : CatalogKv) (table : TableRow) : CatalogKv :=
  { kv with tableVisibility := kv.tableVisibility.insert ⟨table.validity.beginOrder, table.tableId⟩ table }

/-- A row whose begin order is left to the versionstamp. -/
def preparedTable (table : TableRow) : TableRow := { table with validity := ⟨autoOrder, none⟩ }

def stageCreatedTable (order : CatalogOrderId) (store : FdbStore) (table : TableRow) : FdbStore :=
  let table := preparedTable table
  let store := { store with kv := { store.kv with
    tableObject := store.kv.tableObject.insert ⟨table.tableId, order⟩ table } }
  let store := stageCurrentTableName store table
  { store with kv := stageTableVisibilityBegin order (stageCurrentTableRow order store.kv table) table }

def stageTableReplacement (order : CatalogOrderId) (store : FdbStore) (replacement : TableVersionReplacement) :
    FdbStore :=
  let previous := replacement.previous.withEndOrder (some order)
  let next := preparedTable replacement.next
  let store := { store with kv := { store.kv with
    tableObject := (store.kv.tableObject.insert ⟨replacement.tableId, previous.validity.beginOrder⟩ previous).insert
      ⟨replacement.tableId, order⟩ next } }
  let store := stageCurrentTableNameReplacement store ⟨replacement.tableId, previous, next⟩
  let kv := stageTableVisibilityEnd (stageCurrentTableRow order store.kv next) previous
  { store with kv := stageTableVisibilityBegin order kv next }

def stageMaxTableId (store : FdbStore) (tableIds : List TableId) : FdbStore :=
  tableIds.max?.elim store fun tableId => { store with kv := stageMaxCatalogIdWatermark store.kv tableId }

/-- A table to drop with the files that were current when it was prepared. -/
structure PreparedTableDrop where
  table : TableRow
  dataFiles : List DataFileRow
  deleteFiles : List DeleteFileRow
  deriving DecidableEq

def prepareTableDrop (seen : CatalogKv) (table : TableRow) : PreparedTableDrop :=
  let dataFiles := scanCurrentDataFiles seen table.tableId
  { table, dataFiles, deleteFiles := dataFiles.filterMap fun file => seen.currentDeleteFile.get? file.dataFileId }

def stageDrop (seen : CatalogKv) (order : CatalogOrderId) (store : FdbStore) (drop : PreparedTableDrop) : FdbStore :=
  let kv := drop.dataFiles.foldl (stageExpiredDataFile seen order) store.kv
  let kv := drop.deleteFiles.foldl (fun kv row => stageExpiredDeleteFile seen order kv drop.table.tableId row) kv
  let table := drop.table.withEndOrder (some order)
  let kv := { kv with tableObject := kv.tableObject.insert ⟨table.tableId, table.validity.beginOrder⟩ table }
  let store := stageRemoveCurrentTableName { store with kv := stageTableVisibilityEnd kv table } table
  { store with kv := { store.kv with currentTableRow := store.kv.currentTableRow.erase table.tableId } }

/-! ## Creating tables -/

/-- The snapshot every change of table metadata commits. -/
def openTableCommit (now : Int) (sequence : RawSnapshotSequence) (metadata : SnapshotCommitMetadata)
    (store : FdbStore) : FdbStore :=
  { store with kv := stageSnapshot store.kv (mutationSnapshot now store.commitOrder sequence metadata) }

def commitCreatedTables (now : Int) (sequence : RawSnapshotSequence) (recoveryId : Option CommitAttemptId)
    (tables : List TableRow) (store : FdbStore) : FdbStore :=
  let order := store.commitOrder
  let opened := openTableCommit now sequence {} (stageCommitAttempt order recoveryId store)
  (stageMaxTableId (tables.foldl (stageCreatedTable order) opened) (tables.map TableRow.tableId)).commitAt order

/-- Equal but for the id and the validity. -/
def sameLogicalTable (committed expected : TableRow) : Bool :=
  { committed with tableId := 0, validity := ⟨autoOrder, none⟩ } =
    { expected with tableId := 0, validity := ⟨autoOrder, none⟩ }

def recoverCommittedTables (seen : FdbStore) (recoveryId : Option CommitAttemptId) (tables : List TableRow) :
    CatalogResult (Option (List TableRow)) :=
  match recoveryId.bind seen.commitAttempt.get? with
  | none => .ok none
  | some commitOrder =>
    some <$> tables.mapM fun table =>
      ((listTablesAt seen.kv commitOrder).find? fun committed => sameLogicalTable committed table).elim
        (.error (.notFound "committed table")) .ok

def listSchemasAt (seen : FdbStore) (snapshotOrder : CatalogOrderId) : List SchemaRow :=
  (seen.schemaObject.entries.map fun entry =>
    { entry.2 with validity := { entry.2.validity with beginOrder := (ofLex entry.1).2 } }).filter
    fun row => row.validity.isVisibleAt snapshotOrder

def tableNameTaken (table : TableRow) : CatalogError :=
  .invalidMutation s!"conflict creating table {table.name}: table name already exists in schema {table.schemaId}"

def tableIdTaken (table : TableRow) : CatalogError :=
  .invalidMutation s!"conflict creating table {table.name}: table id {table.tableId} already exists"

/-- The name is looked up in the index alone; `requested` holds the names of the tables before it. -/
def rejectCurrentTableCreateConflict (seen : FdbStore) (latest : SnapshotRow)
    (requested : List (SchemaId ×ₗ String)) (table : TableRow) : CatalogResult (List (SchemaId ×ₗ String)) :=
  if table.schemaId ≠ 0 ∧
      !((listSchemasAt seen latest.order).any fun schema => schema.schemaId = table.schemaId) then
    .error (.invalidMutation
      s!"conflict creating table {table.name}: schema {table.schemaId} no longer exists")
  else if (seen.kv.currentTableRow.get? table.tableId).isSome then .error (tableIdTaken table)
  else if tableNameKey table ∈ requested then .error (tableNameTaken table)
  else if (seen.currentTableName.get? (tableNameKey table)).any fun existing => decide (existing ≠ table.tableId) then
    .error (tableNameTaken table)
  else .ok (tableNameKey table :: requested)

/-- Without a snapshot nothing is checked, not even the request against itself. -/
def rejectCurrentTableCreateConflicts (seen : FdbStore) (tables : List TableRow) : CatalogResult Unit :=
  match latestSnapshot seen.kv with
  | none => .ok ()
  | some latest => do
    let _ ← tables.foldlM (rejectCurrentTableCreateConflict seen latest) []
    return ()

def freshCommitRawSnapshot (seen : FdbStore) (proposed : Option RawSnapshotSequence) : Option RawSnapshotSequence :=
  proposed.map fun proposed =>
    match latestSnapshot seen.kv with
    | none => proposed
    | some latest => if latest.sequence < proposed then proposed else saturatingAdd latest.sequence 1

/-! ## Replacing table rows -/

def commitTableChanges (now : Int) (sequence : RawSnapshotSequence) (metadata : SnapshotCommitMetadata)
    (created : List TableRow) (replacements : List TableVersionReplacement) (store : FdbStore) : Option FdbStore :=
  if created = [] ∧ replacements = [] then none
  else
    let order := store.commitOrder
    let opened := openTableCommit now sequence metadata store
    let replaced := replacements.foldl (stageTableReplacement order) opened
    let staged := created.foldl (stageCreatedTable order) replaced
    some ((stageMaxTableId staged
      (created.map TableRow.tableId ++ replacements.map TableVersionReplacement.tableId)).commitAt order)

def commitTableReplacements (now : Int) (sequence : RawSnapshotSequence)
    (replacements : List TableVersionReplacement) (store : FdbStore) : Option FdbStore :=
  commitTableChanges now sequence {} [] replacements store

structure InlineMaterialization where
  tableId : TableId
  tableName : String
  schemaVersion : Nat
  deriving DecidableEq, Repr

/-- Nothing to do for a registration that is there already. -/
def registerInlinedTable (table : TableRow) (tableName : String) (schemaVersion : Nat) : Option TableRow :=
  if table.inlinedDataTables.any fun entry => entry.tableName = tableName ∧ entry.schemaVersion = schemaVersion then
    none
  else some { table with inlinedDataTables := table.inlinedDataTables ++ [⟨tableName, schemaVersion⟩] }

/-- Every registration starts from the stored row, also when the request names a table twice. -/
def inlineRegistration (seen : CatalogKv) (file : InlineMaterialization) :
    CatalogResult (Option TableVersionReplacement) :=
  match seen.currentTableRow.get? file.tableId with
  | none => .error (.notFound "inline table")
  | some previous =>
    if previous.inlinedDataTables.any fun entry => entry.tableName = file.tableName then .ok none
    else
      .ok ((registerInlinedTable previous file.tableName file.schemaVersion).map fun next =>
        ⟨file.tableId, previous, next⟩)

def prepareRegisterInlineTables (seen : CatalogKv) (files : List InlineMaterialization)
    (commitSnapshot : Option RawSnapshotSequence) :
    CatalogResult (RawSnapshotSequence × List TableVersionReplacement) := do
  let latest ← loadLatestSnapshot seen
  let registrations ← files.mapM (inlineRegistration seen)
  return (commitSnapshot.getD (saturatingAdd latest.sequence 1), registrations.filterMap id)

/-- The changes that replace current rows by edited ones. -/
inductive TableEdit where
  | renameTables (renames : List TableRename)
  | appendColumns (tableId : TableId) (columns : List TableColumnRow)
  | renameColumns (renames : List ColumnChange)
  | dropColumns (drops : List ColumnDrop)
  | changeColumnTypes (changes : List ColumnChange)
  | registerInlineTables (files : List InlineMaterialization) (commitSnapshot : Option RawSnapshotSequence)

def PreparedReplacements.changes {α : Type} (prepared : PreparedReplacements α) :
    RawSnapshotSequence × List TableVersionReplacement :=
  (saturatingAdd prepared.previousSequence 1, prepared.replacements)

def TableEdit.prepare (seen : CatalogKv) : TableEdit → CatalogResult (RawSnapshotSequence × List TableVersionReplacement)
  | .renameTables renames =>
    if renames = [] then .ok (0, []) else (prepareRenameTables seen renames).map PreparedReplacements.changes
  | .appendColumns tableId columns =>
    if columns = [] then .ok (0, [])
    else (prepareAppendTableColumns seen tableId columns).map PreparedReplacements.changes
  | .renameColumns renames =>
    if renames = [] then .ok (0, [])
    else
      (prepareColumnVersion seen (rejectColumnRenameBatchShape renames) fun tableId columns =>
        renames.foldlM (renameColumn tableId) (columns, [])).map PreparedReplacements.changes
  | .dropColumns drops =>
    if drops = [] then .ok (0, [])
    else
      (prepareColumnVersion seen (rejectColumnDropBatchShape drops) fun tableId columns =>
        drops.foldlM (dropColumn tableId) (columns, [])).map PreparedReplacements.changes
  | .changeColumnTypes changes =>
    if changes = [] then .ok (0, [])
    else
      (prepareColumnVersion seen (rejectColumnTypeChangeBatchShape changes) fun tableId columns =>
        changes.foldlM (changeColumnType tableId) (columns, [])).map PreparedReplacements.changes
  | .registerInlineTables files commitSnapshot => prepareRegisterInlineTables seen files commitSnapshot

/-! ## Dropping tables -/

def rejectDuplicateTableIds (tableIds : List TableId) : CatalogResult Unit :=
  rejectRepeatedIds (fun tableId => s!"table {tableId} is listed more than once for drop") tableIds

def prepareTableDrops (seen : CatalogKv) (tableIds : List TableId) : CatalogResult (List PreparedTableDrop) :=
  tableIds.mapM fun tableId => (loadCurrentTableRow seen tableId).map (prepareTableDrop seen)

def commitTableDrops (seen : CatalogKv) (now : Int) (sequence : RawSnapshotSequence) (drops : List PreparedTableDrop)
    (store : FdbStore) : FdbStore :=
  let order := store.commitOrder
  (drops.foldl (stageDrop seen order) (openTableCommit now sequence {} store)).commitAt order

/-- A new table is compared with the listed ones that stay, not with the other new ones. -/
def rejectReplacementCreateConflicts (seen : CatalogKv) (latestOrder : CatalogOrderId)
    (drops : List PreparedTableDrop) (tables : List TableRow) : CatalogResult Unit :=
  tables.forM fun table =>
    (listTablesAt seen latestOrder).forM fun existing =>
      if drops.any fun drop => drop.table.tableId = existing.tableId then .ok ()
      else if existing.tableId = table.tableId then .error (tableIdTaken table)
      else if tableNameKey existing = tableNameKey table then .error (tableNameTaken table)
      else .ok ()

def recoverCommittedReplacement (seen : FdbStore) (recoveryId : Option CommitAttemptId) (tables : List TableRow) :
    CatalogResult (Option (List TableRow)) :=
  match recoveryId.bind seen.commitAttempt.get? with
  | none => .ok none
  | some commitOrder =>
    some <$> tables.mapM fun table =>
      (loadTableAt seen.kv table.tableId commitOrder).elim (.error (.notFound "committed replacement table")) .ok

def commitReplacedTables (seen : CatalogKv) (now : Int) (sequence : RawSnapshotSequence)
    (recoveryId : Option CommitAttemptId) (drops : List PreparedTableDrop) (tables : List TableRow)
    (store : FdbStore) : FdbStore :=
  let order := store.commitOrder
  let opened := openTableCommit now sequence {} (stageCommitAttempt order recoveryId store)
  (tables.foldl (stageCreatedTable order) (drops.foldl (stageDrop seen order) opened)).commitAt order

/-! ## Rows inserted inline

An insert registers the inline table it goes to. The rows to edit are read
first, the rows they replace only when the commit is prepared. -/

structure RuntimeInlineRows where
  tableId : TableId
  tableName : String
  schemaVersion : SchemaId
  readSnapshot : Option RawSnapshotSequence := none
  payload : List UInt8
  deriving DecidableEq

def sameUserVisibleTableForInlineInsert (readTable currentTable : TableRow) : Bool :=
  { readTable with inlinedDataTables := [], validity := currentTable.validity } =
    { currentTable with inlinedDataTables := [] }

def inlineRowsConflict (tableId : TableId) (what : String) : CatalogError :=
  .invalidMutation s!"conflict committing inline rows: table {tableId} {what} after read snapshot"

def rejectStaleInlineTableMetadata (read : FdbStore) (request : RuntimeInlineRows) (currentTable : Option TableRow) :
    CatalogResult Unit :=
  match request.readSnapshot.bind (snapshotByRawSequence read.kv) with
  | none => .ok ()
  | some readSnapshot =>
    match currentTable with
    | none => .error (inlineRowsConflict request.tableId "was dropped")
    | some currentTable =>
      if currentTable.validity.isVisibleAt readSnapshot.order then .ok ()
      else
        match loadTableAt read.kv request.tableId readSnapshot.order with
        | none => .ok ()
        | some readTable =>
          if !sameUserVisibleTableForInlineInsert readTable currentTable then
            .error (inlineRowsConflict request.tableId "metadata changed")
          else if readTable.partition ≠ currentTable.partition then
            .error (inlineRowsConflict request.tableId "partition metadata changed")
          else .ok ()

def loadCurrentTableRows (read : FdbStore) (tableIds : List TableId) : CatalogResult (List TableRow) :=
  (tableIds.filterMap fun tableId =>
    (read.kv.currentTableRow.get? tableId).map fun row => (tableId, row)).mapM fun entry =>
    if entry.2.tableId ≠ entry.1 then
      .error (.decode s!"current table key {entry.1} decoded as table {entry.2.tableId}")
    else .ok entry.2

/-- The requests of one insert that have been looked at. -/
structure InlineRequests where
  tables : OrderedMap TableId TableRow
  changedTables : List TableId := []
  validatedTables : List (TableId × Option RawSnapshotSequence) := []
  payloads : OrderedMap (TableId ×ₗ SchemaId) (List UInt8) := .empty

/-- A table is compared once for each snapshot its rows were read at. -/
def validateInlineRequest (read : FdbStore) (requests : InlineRequests) (request : RuntimeInlineRows) :
    CatalogResult Unit :=
  if (request.tableId, request.readSnapshot) ∈ requests.validatedTables then .ok ()
  else rejectStaleInlineTableMetadata read request (requests.tables.get? request.tableId)

def addInlineRequest (read : FdbStore) (requests : InlineRequests) (request : RuntimeInlineRows) :
    CatalogResult InlineRequests := do
  validateInlineRequest read requests request
  match requests.tables.get? request.tableId with
  | none => .error (.notFound "inline table")
  | some table =>
    let registered := registerInlinedTable table request.tableName request.schemaVersion
    let key := toLex (request.tableId, request.schemaVersion)
    return {
      tables := requests.tables.insert request.tableId (registered.getD table)
      changedTables := if registered.isSome then request.tableId :: requests.changedTables
        else requests.changedTables
      validatedTables := (request.tableId, request.readSnapshot) :: requests.validatedTables
      payloads := requests.payloads.insert key ((requests.payloads.get? key).getD [] ++ request.payload) }

def prepareInlineRequests (read : FdbStore) (requests : List RuntimeInlineRows)
    (deletes : List InlineTableDeletePayload) : CatalogResult FdbInlineMutation := do
  let tables ← loadCurrentTableRows read
    ((requests.map RuntimeInlineRows.tableId).dedup.insertionSort (· ≤ ·))
  let start : InlineRequests := { tables := tables.foldl (fun tables row => tables.insert row.tableId row) .empty }
  let finished ← requests.foldlM (addInlineRequest read) start
  return {
    tables := (finished.tables.entries.filter fun entry => entry.1 ∈ finished.changedTables).map Prod.snd
    payloads := finished.payloads.entries.map fun entry => ⟨(ofLex entry.1).1, (ofLex entry.1).2, entry.2⟩
    deletes }

/-! ## Transactions -/

/-- A transaction of table metadata with everything its preparation worked out. -/
inductive TableCommit where
  | created (now : Int) (sequence : RawSnapshotSequence) (recoveryId : Option CommitAttemptId) (tables : List TableRow)
  | changed (now : Int) (sequence : RawSnapshotSequence) (metadata : SnapshotCommitMetadata)
      (newTables : List TableRow) (replacements : List TableVersionReplacement)
  | dropped (seen : CatalogKv) (now : Int) (sequence : RawSnapshotSequence) (drops : List PreparedTableDrop)
  | replaced (seen : CatalogKv) (now : Int) (sequence : RawSnapshotSequence) (recoveryId : Option CommitAttemptId)
      (drops : List PreparedTableDrop) (tables : List TableRow)
  | inlineRows (now : Int) (metadata : SnapshotCommitMetadata) (prepared : PreparedInlineMutation)

def TableCommit.transact (store : FdbStore) : TableCommit → Option FdbStore
  | .created now sequence recoveryId tables => some (commitCreatedTables now sequence recoveryId tables store)
  | .changed now sequence metadata newTables replacements =>
    commitTableChanges now sequence metadata newTables replacements store
  | .dropped seen now sequence drops => some (commitTableDrops seen now sequence drops store)
  | .replaced seen now sequence recoveryId drops tables =>
    some (commitReplacedTables seen now sequence recoveryId drops tables store)
  | .inlineRows now metadata prepared =>
    (stagePreparedInlineMutation store.commitOrder (openTableCommit now prepared.sequence metadata store)
      prepared).toOption.map fun staged => staged.commitAt store.commitOrder

/-! ## Preparation

Each operation reads and checks before its transaction. Without a transaction
there was nothing to commit, or an earlier attempt has committed it. -/

def createTablesVersionstamped (seen : FdbStore) (now : Int) (tables : List TableRow)
    (commitRawSnapshot : Option RawSnapshotSequence) (recoveryId : Option CommitAttemptId) :
    CatalogResult (Option TableCommit) :=
  if tables = [] then .ok none
  else do
    let recovered ← recoverCommittedTables seen recoveryId tables
    let sequence := commitRawSnapshot.getD ((latestSnapshot seen.kv).elim 0 fun latest =>
      saturatingAdd latest.sequence 1)
    return if recovered.isSome then none else some (.created now sequence recoveryId tables)

/-- A request that an earlier attempt has committed is not checked again. -/
def checkCreateTables (seen : FdbStore) (tables : List TableRow) (recoveryId : Option CommitAttemptId) :
    CatalogResult Unit :=
  if (recoveryId.bind seen.commitAttempt.get?).isSome then .ok ()
  else rejectCurrentTableCreateConflicts seen tables

def createTables (seen : FdbStore) (now : Int) (tables : List TableRow)
    (commitRawSnapshot : Option RawSnapshotSequence) (recoveryId : Option CommitAttemptId) :
    CatalogResult (Option TableCommit) := do
  checkCreateTables seen tables recoveryId
  createTablesVersionstamped seen now tables (freshCommitRawSnapshot seen commitRawSnapshot) recoveryId

def editTables (seen : FdbStore) (now : Int) (edit : TableEdit) : CatalogResult (Option TableCommit) := do
  let (sequence, replacements) ← edit.prepare seen.kv
  return some (.changed now sequence {} [] replacements)

def dropTables (seen : FdbStore) (now : Int) (tableIds : List TableId)
    (commitRawSnapshot : Option RawSnapshotSequence) : CatalogResult (Option TableCommit) :=
  if tableIds = [] then .ok none
  else do
    rejectDuplicateTableIds tableIds
    let latest ← loadLatestSnapshot seen.kv
    let drops ← prepareTableDrops seen.kv tableIds
    return some (.dropped seen.kv now (commitRawSnapshot.getD (saturatingAdd latest.sequence 1)) drops)

def prepareReplacedTables (seen : FdbStore) (now : Int) (tableIds : List TableId) (tables : List TableRow)
    (commitRawSnapshot : Option RawSnapshotSequence) (recoveryId : Option CommitAttemptId) :
    CatalogResult TableCommit := do
  rejectDuplicateTableIds tableIds
  let latest ← loadLatestSnapshot seen.kv
  let drops ← prepareTableDrops seen.kv tableIds
  rejectReplacementCreateConflicts seen.kv latest.order drops tables
  return .replaced seen.kv now (commitRawSnapshot.getD (saturatingAdd latest.sequence 1)) recoveryId drops tables

def replaceTables (seen : FdbStore) (now : Int) (tableIds : List TableId) (tables : List TableRow)
    (commitRawSnapshot : Option RawSnapshotSequence) (recoveryId : Option CommitAttemptId) :
    CatalogResult (Option TableCommit) :=
  if tableIds = [] ∧ tables = [] then .ok none
  else do
    let recovered ← recoverCommittedReplacement seen recoveryId tables
    if recovered.isSome then return none
    else
      some <$> prepareReplacedTables seen now tableIds tables (freshCommitRawSnapshot seen commitRawSnapshot) recoveryId

def insertInlineRows (read seen : FdbStore) (now : Int) (requests : List RuntimeInlineRows)
    (deletes : List InlineTableDeletePayload) (context : InlineTableCommitContext) :
    CatalogResult (Option TableCommit) := do
  let mutation ← prepareInlineRequests read requests deletes
  let prepared ← prepareInlineTableMutation seen mutation context.commitSnapshot context.readSnapshot
  return some (.inlineRows now context.commitMetadata prepared)

end DucklakeCatalog.Fdb
