import DucklakeCatalog.File.Listing
import DucklakeCatalog.File.Maintenance
import DucklakeCatalog.Table.Store
import Mathlib.Data.List.Perm.Subperm

namespace DucklakeCatalog

open KeyedStore

/-! ## Replacing table versions -/

structure TableVersionReplacement where
  tableId : TableId
  previous : TableRow
  next : TableRow
  deriving DecidableEq, Repr

def stageTableReplacement (kv : CatalogKv) (order : CatalogOrderId) (batch : KvBatch)
    (replacement : TableVersionReplacement) : KvBatch :=
  let tableId := replacement.tableId
  let beginOrder := replacement.previous.validity.beginOrder
  let previous := replacement.previous.withEndOrder (some order)
  let next := { replacement.next with validity := ⟨order, none⟩ }
  let batch := { batch with
    tableObject := (batch.tableObject.put ⟨tableId, beginOrder⟩ previous).put ⟨tableId, order⟩ next
    tableVisibility := (batch.tableVisibility.put ⟨beginOrder, tableId⟩ previous).put ⟨order, tableId⟩ next
    currentTableRow := batch.currentTableRow.put tableId next }
  stageMaxCatalogIdWatermark kv batch tableId

def stageTableReplacements (kv : CatalogKv) (now : Int) (previousSequence : RawSnapshotSequence)
    (replacements : List TableVersionReplacement) (order : CatalogOrderId) : CatalogResult (Unit × KvBatch) :=
  .ok ((), replacements.foldl (stageTableReplacement kv order)
    (stageSnapshot {} (SnapshotRow.new order (previousSequence + 1) now)))

def commitTableReplacements (kv : CatalogKv) (now : Int) (previousSequence : RawSnapshotSequence)
    (replacements : List TableVersionReplacement) : CatalogResult Unit × CatalogKv :=
  if replacements = [] then (.ok (), kv)
  else commitWith kv (stageTableReplacements kv now previousSequence replacements)

/-- What a table commit works out before it draws an order. -/
structure PreparedReplacements (α : Type) where
  result : α
  previousSequence : RawSnapshotSequence
  replacements : List TableVersionReplacement

def commitPrepared (kv : CatalogKv) (now : Int) (prepared : CatalogResult (PreparedReplacements α)) :
    CatalogResult α × CatalogKv :=
  match prepared with
  | .error failure => (.error failure, kv)
  | .ok prepared =>
    let (committed, next) := commitTableReplacements kv now prepared.previousSequence prepared.replacements
    (committed.map fun _ => prepared.result, next)

def loadLatestSnapshot (kv : CatalogKv) : CatalogResult SnapshotRow :=
  (latestSnapshot kv).elim (.error (.notFound "catalog snapshot")) .ok

theorem loadLatestSnapshot_ok {kv : CatalogKv} {latest : SnapshotRow} (loads : loadLatestSnapshot kv = .ok latest) :
    latestSnapshot kv = some latest := by
  unfold loadLatestSnapshot at loads
  cases found : latestSnapshot kv with
  | none =>
    rw [found] at loads
    cases loads
  | some snapshot =>
    rw [found] at loads
    exact congrArg some (Except.ok.inj loads)

def loadCurrentTableRow (kv : CatalogKv) (tableId : TableId) : CatalogResult TableRow :=
  (kv.currentTableRow.get? tableId).elim (.error (.notFound "table")) .ok

theorem loadCurrentTableRow_ok {kv : CatalogKv} {tableId : TableId} {row : TableRow}
    (loads : loadCurrentTableRow kv tableId = .ok row) : kv.currentTableRow.get? tableId = some row := by
  rw [loadCurrentTableRow] at loads
  cases found : kv.currentTableRow.get? tableId with
  | none => simp [found] at loads
  | some stored => simpa [found] using loads

def loadCurrentTable (kv : CatalogKv) (tableId : TableId) : CatalogResult TableRow := do
  let _ ← loadLatestSnapshot kv
  loadCurrentTableRow kv tableId

/-- The last version begun by the snapshot, if it is still visible there. -/
def loadTableAt (kv : CatalogKv) (tableId : TableId) (snapshotOrder : CatalogOrderId) : Option TableRow :=
  match (kv.tableObject.scan fun key => key.tableId = tableId && key.order ≤ snapshotOrder).getLast? with
  | none => none
  | some (key, row) =>
    let row := row.withBeginOrder key.order
    if row.validity.isVisibleAt snapshotOrder then some row else none

/-- Ids listed once each; the second mention of one is refused. -/
def rejectRepeatedIds (message : Nat → String) (ids : List Nat) : CatalogResult Unit := do
  let _ ← ids.foldlM
    (fun seen id => if id ∈ seen then .error (.invalidMutation (message id)) else .ok (id :: seen)) []

/-! ## Columns and names of tables -/

def rejectDuplicateColumns (table : TableRow) (columns : List TableColumnRow) : CatalogResult Unit := do
  let known := (table.columns.map TableColumnRow.columnId,
    table.columns.map fun column => (column.parentId, column.name.toLower))
  let _ ← columns.foldlM
    (fun (columnIds, columnNames) column =>
      if column.columnId ∈ columnIds then
        .error (.invalidMutation s!"column id {column.columnId} already exists on table {table.tableId}")
      else if (column.parentId, column.name.toLower) ∈ columnNames then
        .error (.invalidMutation s!"column {column.name} already exists on table {table.tableId}")
      else
        .ok (column.columnId :: columnIds, (column.parentId, column.name.toLower) :: columnNames))
    known

def prepareAppendTableColumns (kv : CatalogKv) (tableId : TableId) (columns : List TableColumnRow) :
    CatalogResult (PreparedReplacements Unit) := do
  let latest ← loadLatestSnapshot kv
  let previous ← loadCurrentTableRow kv tableId
  rejectDuplicateColumns previous columns
  let next := { previous with columns := previous.columns ++ columns }
  return ⟨(), latest.sequence, [⟨tableId, previous, next⟩]⟩

def commitAppendTableColumns (kv : CatalogKv) (now : Int) (tableId : TableId) (columns : List TableColumnRow) :
    CatalogResult TableRow × CatalogKv :=
  if columns = [] then (loadCurrentTable kv tableId, kv)
  else
    match commitPrepared kv now (prepareAppendTableColumns kv tableId columns) with
    | (.error failure, next) => (.error failure, next)
    | (.ok _, next) => (loadCurrentTable next tableId, next)

structure TableRename where
  tableId : TableId
  newName : String
  deriving DecidableEq, Repr

structure RenamedTable where
  previous : TableRow
  renamed : TableRow
  deriving DecidableEq, Repr

def rejectTableNameConflict (currentTables : List TableRow) (renames : List TableRename) (renamed : List RenamedTable)
    (previous : TableRow) (newName : String) : CatalogResult Unit :=
  let conflictsWithCurrent := currentTables.any fun table =>
    decide (table.schemaId = previous.schemaId) && decide (table.tableId ≠ previous.tableId) &&
      !(renames.any fun rename => rename.tableId = table.tableId) && decide (table.name.toLower = newName.toLower)
  let conflictsWithRenamed := renamed.any fun table =>
    decide (table.renamed.schemaId = previous.schemaId) && decide (table.renamed.name.toLower = newName.toLower)
  if conflictsWithCurrent || conflictsWithRenamed then
    .error (.invalidMutation s!"table name {newName} already exists in schema {previous.schemaId}")
  else .ok ()

def renameTable (currentTables : List TableRow) (renames : List TableRename) (renamed : List RenamedTable)
    (rename : TableRename) : CatalogResult (List RenamedTable) :=
  match currentTables.find? fun table => table.tableId = rename.tableId with
  | none => .error (.notFound "table")
  | some previous => do
    rejectTableNameConflict currentTables renames renamed previous rename.newName
    return renamed ++ [⟨previous, { previous with name := rename.newName }⟩]

def prepareRenameTables (kv : CatalogKv) (renames : List TableRename) :
    CatalogResult (PreparedReplacements (List RenamedTable)) := do
  rejectRepeatedIds (fun tableId => s!"table {tableId} is listed more than once for rename")
    (renames.map TableRename.tableId)
  let latest ← loadLatestSnapshot kv
  let renamed ← renames.foldlM (renameTable (listTablesAt kv latest.order) renames) []
  return ⟨renamed, latest.sequence, renamed.map fun table => ⟨table.previous.tableId, table.previous, table.renamed⟩⟩

def commitRenameTables (kv : CatalogKv) (now : Int) (renames : List TableRename) :
    CatalogResult (List RenamedTable) × CatalogKv :=
  if renames = [] then (.ok [], kv) else commitPrepared kv now (prepareRenameTables kv renames)

/-- One column change of a batch, which may only touch one table. -/
structure ColumnChange where
  tableId : TableId
  column : TableColumnRow
  deriving DecidableEq, Repr

structure ColumnDrop where
  tableId : TableId
  columnId : ColumnId
  deriving DecidableEq, Repr

/-- The one table of a column batch; `label` names the kind of batch. -/
def columnBatchTableId (label : String) (entries : List (TableId × ColumnId)) : CatalogResult TableId :=
  match entries with
  | [] => .error (.invalidMutation s!"empty column {label} batch")
  | (tableId, _) :: _ => do
    let _ ← entries.foldlM
      (fun seen entry =>
        if entry.1 ≠ tableId then
          .error (.invalidMutation s!"column {label} only supports one table per operation")
        else if entry.2 ∈ seen then
          .error (.invalidMutation s!"column {entry.2} is listed more than once for {label}")
        else .ok (entry.2 :: seen))
      []
    return tableId

def rejectColumnRenameBatchShape (renames : List ColumnChange) : CatalogResult TableId :=
  columnBatchTableId "rename" (renames.map fun rename => (rename.tableId, rename.column.columnId))

def rejectColumnDropBatchShape (drops : List ColumnDrop) : CatalogResult TableId :=
  columnBatchTableId "drop" (drops.map fun drop => (drop.tableId, drop.columnId))

def rejectColumnTypeChangeBatchShape (changes : List ColumnChange) : CatalogResult TableId :=
  columnBatchTableId "type change" (changes.map fun change => (change.tableId, change.column.columnId))

/-- Change the first column with the id. -/
def updateColumn (columnId : ColumnId) (update : TableColumnRow → TableColumnRow) :
    List TableColumnRow → List TableColumnRow
  | [] => []
  | column :: rest =>
    if column.columnId = columnId then update column :: rest else column :: updateColumn columnId update rest

def rejectNonRenameColumnChange (existing replacement : TableColumnRow) (tableId : TableId) : CatalogResult Unit :=
  if existing.name.toLower = replacement.name.toLower then
    .error (.invalidMutation s!"column {existing.columnId} on table {tableId} is not renamed")
  else if existing.columnType ≠ replacement.columnType ∨ existing.nullsAllowed ≠ replacement.nullsAllowed ∨
      existing.parentId ≠ replacement.parentId then
    .error (.invalidMutation s!"column {existing.columnId} on table {tableId} changes more than its name")
  else .ok ()

def rejectColumnNameConflict (columns : List TableColumnRow) (existing : TableColumnRow) (newName : String)
    (tableId : TableId) : CatalogResult Unit :=
  if columns.any fun column => decide (column.parentId = existing.parentId) &&
      decide (column.columnId ≠ existing.columnId) && decide (column.name.toLower = newName.toLower) then
    .error (.invalidMutation s!"column name {newName} already exists on table {tableId}")
  else .ok ()

structure ChangedColumn where
  tableId : TableId
  previous : TableColumnRow
  changed : TableColumnRow
  deriving DecidableEq, Repr

def renameColumn (tableId : TableId) (state : List TableColumnRow × List ChangedColumn) (rename : ColumnChange) :
    CatalogResult (List TableColumnRow × List ChangedColumn) :=
  match state.1.find? fun column => column.columnId = rename.column.columnId with
  | none => .error (.notFound "column")
  | some existing => do
    rejectNonRenameColumnChange existing rename.column tableId
    rejectColumnNameConflict state.1 existing rename.column.name tableId
    let renamed := { existing with name := rename.column.name }
    return (updateColumn rename.column.columnId (fun _ => renamed) state.1, state.2 ++ [⟨tableId, existing, renamed⟩])

/-- The replacement a batch of column changes makes of the current version of its table. -/
def prepareColumnVersion (kv : CatalogKv) (shape : CatalogResult TableId)
    (change : TableId → List TableColumnRow → CatalogResult (List TableColumnRow × α)) :
    CatalogResult (PreparedReplacements α) := do
  let tableId ← shape
  let latest ← loadLatestSnapshot kv
  let previous ← loadCurrentTableRow kv tableId
  let (nextColumns, result) ← change tableId previous.columns
  return ⟨result, latest.sequence, [⟨tableId, previous, { previous with columns := nextColumns }⟩]⟩

def commitRenameTableColumns (kv : CatalogKv) (now : Int) (renames : List ColumnChange) :
    CatalogResult (List ChangedColumn) × CatalogKv :=
  if renames = [] then (.ok [], kv)
  else
    commitPrepared kv now (prepareColumnVersion kv (rejectColumnRenameBatchShape renames) fun tableId columns =>
      renames.foldlM (renameColumn tableId) (columns, []))

/-- One pass of the closure under children: later columns see what earlier ones added. -/
def withChildColumns (columns : List TableColumnRow) (ids : List ColumnId) : List ColumnId :=
  columns.foldl
    (fun ids column =>
      if (column.parentId.any fun parentId => parentId ∈ ids) ∧ column.columnId ∉ ids then ids ++ [column.columnId]
      else ids)
    ids

/-- Repeat the pass until it adds nothing. -/
def closeUnderChildren (columns : List TableColumnRow) : Nat → List ColumnId → List ColumnId
  | 0, ids => ids
  | fuel + 1, ids =>
    let next := withChildColumns columns ids
    if next.length = ids.length then ids else closeUnderChildren columns fuel next

def columnAndDescendantIds (columns : List TableColumnRow) (root : ColumnId) : List ColumnId :=
  closeUnderChildren columns (columns.length + 1) [root]

theorem withChildColumns_extends (columns : List TableColumnRow) (ids : List ColumnId) :
    ids <+: withChildColumns columns ids ∧ (ids.Nodup → (withChildColumns columns ids).Nodup) ∧
      ∀ id ∈ withChildColumns columns ids, id ∈ ids ∨ id ∈ columns.map TableColumnRow.columnId := by
  unfold withChildColumns
  induction columns generalizing ids with
  | nil => exact ⟨List.prefix_rfl, fun distinct => distinct, fun id member => Or.inl member⟩
  | cons column rest ih =>
    rw [List.foldl_cons]
    split
    · rename_i added
      obtain ⟨growing, distinct, within⟩ := ih (ids ++ [column.columnId])
      refine ⟨(List.prefix_append ids _).trans growing, ?_, ?_⟩
      · intro before
        refine distinct (List.nodup_append.mpr ⟨before, List.nodup_singleton _, ?_⟩)
        intro left leftMember right rightMember same
        rw [List.mem_singleton] at rightMember
        exact added.2 (rightMember ▸ same ▸ leftMember)
      · intro id member
        rcases within id member with earlier | later
        · rcases List.mem_append.mp earlier with known | new
          · exact Or.inl known
          · exact Or.inr (List.mem_singleton.mp new ▸ List.mem_cons_self)
        · exact Or.inr (List.mem_cons_of_mem _ later)
    · obtain ⟨growing, distinct, within⟩ := ih ids
      refine ⟨growing, distinct, ?_⟩
      intro id member
      exact (within id member).imp_right (List.mem_cons_of_mem _)

/-- Every pass but the last adds a column, so the passes reach the closure. -/
theorem closeUnderChildren_closed {columns : List TableColumnRow} {fuel : Nat} {ids : List ColumnId} (root : ColumnId)
    (distinct : ids.Nodup) (within : ids ⊆ root :: columns.map TableColumnRow.columnId)
    (enough : columns.length + 2 ≤ fuel + ids.length) :
    withChildColumns columns (closeUnderChildren columns fuel ids) = closeUnderChildren columns fuel ids := by
  induction fuel generalizing ids with
  | zero =>
    have bounded := (List.subperm_of_subset distinct within).length_le
    simp only [List.length_cons, List.length_map] at bounded
    omega
  | succ fuel ih =>
    obtain ⟨growing, stillDistinct, added⟩ := withChildColumns_extends columns ids
    rw [closeUnderChildren]
    split
    · rename_i same
      exact (growing.eq_of_length same.symm).symm
    · rename_i grown
      have atLeast := growing.length_le
      refine ih (stillDistinct distinct) ?_ (by omega)
      intro id member
      rcases added id member with known | child
      · exact within known
      · exact List.mem_cons_of_mem _ child

theorem columnAndDescendantIds_closed (columns : List TableColumnRow) (root : ColumnId) :
    withChildColumns columns (columnAndDescendantIds columns root) = columnAndDescendantIds columns root := by
  refine closeUnderChildren_closed root (List.nodup_singleton root) ?_ (by simp)
  intro id member
  exact List.mem_singleton.mp member ▸ List.mem_cons_self

structure DroppedColumn where
  tableId : TableId
  column : TableColumnRow
  deriving DecidableEq, Repr

def dropColumn (tableId : TableId) (state : List TableColumnRow × List DroppedColumn) (drop : ColumnDrop) :
    CatalogResult (List TableColumnRow × List DroppedColumn) :=
  if state.1.any fun column => column.columnId = drop.columnId then
    let droppedIds := columnAndDescendantIds state.1 drop.columnId
    .ok (state.1.filter fun column => column.columnId ∉ droppedIds,
      state.2 ++ (state.1.filter fun column => column.columnId ∈ droppedIds).map fun column => ⟨tableId, column⟩)
  else .error (.notFound "column")

def commitDropTableColumns (kv : CatalogKv) (now : Int) (drops : List ColumnDrop) :
    CatalogResult (List DroppedColumn) × CatalogKv :=
  if drops = [] then (.ok [], kv)
  else
    commitPrepared kv now (prepareColumnVersion kv (rejectColumnDropBatchShape drops) fun tableId columns =>
      drops.foldlM (dropColumn tableId) (columns, []))

def rejectParentColumnTypeChange (columns : List TableColumnRow) (existing : TableColumnRow) (tableId : TableId) :
    CatalogResult Unit :=
  if columns.any fun column => column.parentId = some existing.columnId then
    .error (.invalidMutation
      s!"parent column type change is not implemented for column {existing.columnId} on table {tableId}")
  else .ok ()

def rejectNonTypeColumnIdentityChange (existing replacement : TableColumnRow) (tableId : TableId) :
    CatalogResult Unit :=
  if existing.name.toLower ≠ replacement.name.toLower ∨ existing.parentId ≠ replacement.parentId then
    .error (.invalidMutation
      s!"column {existing.columnId} on table {tableId} changes identity metadata during type change")
  else if existing.parentId.isNone ∧ existing.nullsAllowed ≠ replacement.nullsAllowed then
    .error (.invalidMutation
      s!"column {existing.columnId} on table {tableId} changes top-level nullability during type change")
  else if existing.columnType = replacement.columnType then
    .error (.invalidMutation s!"column {existing.columnId} on table {tableId} type is unchanged")
  else .ok ()

def typeChangeReplacement (existing replacement : TableColumnRow) : TableColumnRow :=
  { existing with
    columnType := replacement.columnType, nullsAllowed := replacement.nullsAllowed
    initialDefault := replacement.initialDefault, defaultValue := replacement.defaultValue
    defaultValueType := replacement.defaultValueType }

def changeColumnType (tableId : TableId) (state : List TableColumnRow × List ChangedColumn) (change : ColumnChange) :
    CatalogResult (List TableColumnRow × List ChangedColumn) :=
  match state.1.find? fun column => column.columnId = change.column.columnId with
  | none => .error (.notFound "column")
  | some existing => do
    rejectParentColumnTypeChange state.1 existing tableId
    rejectNonTypeColumnIdentityChange existing change.column tableId
    let changed := typeChangeReplacement existing change.column
    return (updateColumn change.column.columnId (fun _ => changed) state.1, state.2 ++ [⟨tableId, existing, changed⟩])

def commitChangeTableColumnTypes (kv : CatalogKv) (now : Int) (changes : List ColumnChange) :
    CatalogResult (List ChangedColumn) × CatalogKv :=
  if changes = [] then (.ok [], kv)
  else
    commitPrepared kv now (prepareColumnVersion kv (rejectColumnTypeChangeBatchShape changes) fun tableId columns =>
      changes.foldlM (changeColumnType tableId) (columns, []))

/-! ## Dropping tables -/

structure DroppedTable where
  table : TableRow
  expiredDataFileCount : Nat
  expiredDeleteFileCount : Nat
  deriving DecidableEq, Repr

def listCurrentDataFilesWithDeletes (kv : CatalogKv) (tableId : TableId) : List AttachedDataFile :=
  attachCurrentDeleteFiles kv (scanCurrentDataFiles kv tableId)

def expireDroppedTableFile (kv : CatalogKv) (now : Int) (order : CatalogOrderId)
    (state : DroppedTable × KvBatch) (attached : AttachedDataFile) : CatalogResult (DroppedTable × KvBatch) := do
  let (dropped, batch) := state
  let (dataFile, batch) ← stageExpireCurrentDataFile kv batch attached.dataFile.dataFileId order
  let batch := stageScheduledDataFileCleanup batch dataFile.dataFileId now
  let dropped := { dropped with expiredDataFileCount := dropped.expiredDataFileCount + 1 }
  match attached.deleteFile with
  | none => return (dropped, batch)
  | some deleteFile =>
    let batch ← stageExpireCurrentDeleteFile kv batch dataFile deleteFile.deleteFileId order
    let batch := stageScheduledDeleteFileCleanup batch dataFile.tableId deleteFile.deleteFileId now
    return ({ dropped with expiredDeleteFileCount := dropped.expiredDeleteFileCount + 1 }, batch)

def stageDropTable (kv : CatalogKv) (now : Int) (order : CatalogOrderId) (state : List DroppedTable × KvBatch)
    (tableId : TableId) : CatalogResult (List DroppedTable × KvBatch) := do
  let table ← loadCurrentTableRow kv tableId
  let (dropped, batch) ← (listCurrentDataFilesWithDeletes kv tableId).foldlM (expireDroppedTableFile kv now order)
    (⟨table.withEndOrder (some order), 0, 0⟩, state.2)
  let batch := stageTableObject batch table.validity.beginOrder dropped.table
  return (state.1 ++ [dropped], { batch with currentTableRow := batch.currentTableRow.delete table.tableId })

def stageDropTables (kv : CatalogKv) (now : Int) (tableIds : List TableId) (sequence : RawSnapshotSequence)
    (order : CatalogOrderId) : CatalogResult (List DroppedTable × KvBatch) :=
  tableIds.foldlM (stageDropTable kv now order) ([], stageSnapshot {} (SnapshotRow.new order sequence now))

def prepareDropTables (kv : CatalogKv) (tableIds : List TableId) (commitRawSnapshot : Option RawSnapshotSequence) :
    CatalogResult RawSnapshotSequence := do
  rejectRepeatedIds (fun tableId => s!"table {tableId} is listed more than once for drop") tableIds
  let latest ← loadLatestSnapshot kv
  return commitRawSnapshot.getD (latest.sequence + 1)

def commitDropTablesAt (kv : CatalogKv) (now : Int) (tableIds : List TableId)
    (commitRawSnapshot : Option RawSnapshotSequence) : CatalogResult (List DroppedTable) × CatalogKv :=
  if tableIds = [] then (.ok [], kv)
  else
    match prepareDropTables kv tableIds commitRawSnapshot with
    | .error failure => (.error failure, kv)
    | .ok sequence => commitWith kv (stageDropTables kv now tableIds sequence)

end DucklakeCatalog
