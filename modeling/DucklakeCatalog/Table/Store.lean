import DucklakeCatalog.Snapshot.Store

namespace DucklakeCatalog

open KeyedStore

def stageTableObject (batch : KvBatch) (order : CatalogOrderId) (row : TableRow) : KvBatch :=
  { batch with
    tableObject := batch.tableObject.put ⟨row.tableId, order⟩ row
    tableVisibility := batch.tableVisibility.put ⟨row.validity.beginOrder, row.tableId⟩ row }

/-- Close the replaced version under its begin order and store the next one; a version of this very commit
is only overwritten. -/
def stageTableVersion (batch : KvBatch) (order : CatalogOrderId) (closedTable nextTable : TableRow) : KvBatch :=
  let batch :=
    if closedTable.validity.beginOrder = order then batch
    else stageTableObject batch closedTable.validity.beginOrder closedTable
  stageTableObject batch order nextTable

/-- The batches agree outside table metadata. -/
def KvBatch.ChangesTables (before after : KvBatch) : Prop :=
  ∃ objects visibility current, after = { before with
    tableObject := objects, tableVisibility := visibility, currentTableRow := current }

theorem KvBatch.ChangesTables.trans {first second third : KvBatch} (left : first.ChangesTables second)
    (right : second.ChangesTables third) : first.ChangesTables third := by
  obtain ⟨_, _, _, rfl⟩ := left
  obtain ⟨_, _, _, rfl⟩ := right
  exact ⟨_, _, _, rfl⟩

theorem stageTableVersion_changes (batch : KvBatch) (order : CatalogOrderId) (closedTable nextTable : TableRow) :
    batch.ChangesTables (stageTableVersion batch order closedTable nextTable) := by
  unfold stageTableVersion
  split
  · exact ⟨_, _, _, rfl⟩
  · exact ⟨_, _, _, rfl⟩

def TableRow.withBeginOrder (row : TableRow) (beginOrder : CatalogOrderId) : TableRow :=
  { row with validity := { row.validity with beginOrder := beginOrder } }

/-- The last visible version of each table, by table id. -/
def visibleTables (rows : List TableRow) (snapshotOrder : CatalogOrderId) : List TableRow :=
  let tables := (rows.filter fun row => row.validity.isVisibleAt snapshotOrder).foldl
    (fun tables row => tables.insert row.tableId row) (OrderedMap.empty : OrderedMap TableId TableRow)
  tables.entries.map Prod.snd

def listTablesAtFromVisibilityIndex (kv : CatalogKv) (snapshotOrder : CatalogOrderId) : List TableRow :=
  visibleTables ((kv.tableVisibility.scan fun key => key.beginOrder ≤ snapshotOrder).map fun entry =>
    entry.2.withBeginOrder entry.1.beginOrder) snapshotOrder

def listTablesAtFromHistory (kv : CatalogKv) (snapshotOrder : CatalogOrderId) : List TableRow :=
  visibleTables (kv.tableObject.entries.map fun entry => entry.2.withBeginOrder entry.1.order) snapshotOrder

def listCurrentTableRows (kv : CatalogKv) : List TableRow :=
  (kv.currentTableRow.entries.map Prod.snd).insertionSort fun left right => left.tableId ≤ right.tableId

def listTablesAt (kv : CatalogKv) (snapshotOrder : CatalogOrderId) : List TableRow :=
  let current := listCurrentTableRows kv
  let visible := listTablesAtFromVisibilityIndex kv snapshotOrder
  if ((latestSnapshot kv).any fun snapshot => snapshot.order = snapshotOrder) ∧ current ≠ [] then current
  else if visible ≠ [] then visible
  else listTablesAtFromHistory kv snapshotOrder

def rejectCreateTableConflict (kv : CatalogKv) (table : TableRow) (snapshotOrder : CatalogOrderId) :
    CatalogResult Unit :=
  (listTablesAt kv snapshotOrder).forM fun current =>
    if current.tableId = table.tableId then
      .error (.invalidMutation s!"table id {table.tableId} already exists")
    else if current.schemaId = table.schemaId ∧ current.name.toLower = table.name.toLower then
      .error (.invalidMutation s!"table name {table.name} already exists in schema {table.schemaId}")
    else .ok ()

def stageCreateTableRow (kv : CatalogKv) (now : Int) (table : TableRow) (order : CatalogOrderId) :
    CatalogResult (TableRow × KvBatch) :=
  let table := { table with validity := ⟨order, none⟩ }
  let batch := stageSnapshot {} (snapshotRowForNextSequence (latestSnapshot kv) order now)
  let batch := stageTableObject batch order table
  let batch := { batch with currentTableRow := batch.currentTableRow.put table.tableId table }
  .ok (table, stageMaxCatalogIdWatermark kv batch table.tableId)

theorem stageCreateTableRow_ok {kv : CatalogKv} {now : Int} {table created : TableRow} {order : CatalogOrderId}
    {batch : KvBatch} (staged : stageCreateTableRow kv now table order = .ok (created, batch)) :
    { table with validity := ⟨order, none⟩ } = created ∧
      stageMaxCatalogIdWatermark kv
        { stageTableObject (stageSnapshot {} (snapshotRowForNextSequence (latestSnapshot kv) order now)) order
            { table with validity := ⟨order, none⟩ } with
          currentTableRow := ({} : KvBatch).currentTableRow.put table.tableId { table with validity := ⟨order, none⟩ } }
        table.tableId = batch := by
  simp only [stageCreateTableRow, Except.ok.injEq, Prod.mk.injEq] at staged
  exact staged

/-- Without a snapshot there is no table yet to conflict with. -/
def validateCreateTable (kv : CatalogKv) (table : TableRow) : CatalogResult Unit :=
  (latestSnapshot kv).elim (.ok ()) fun snapshot => rejectCreateTableConflict kv table snapshot.order

def commitCreateTableRow (kv : CatalogKv) (now : Int) (table : TableRow) : CatalogResult TableRow × CatalogKv :=
  match validateCreateTable kv table with
  | .error failure => (.error failure, kv)
  | .ok () => commitWith kv (stageCreateTableRow kv now table)

end DucklakeCatalog
