import DucklakeCatalog.Table.Commits

/-! The table facts of one commit attempt. They change copies of the table rows
that the base order has, one after another; what comes out is committed once. -/
namespace DucklakeCatalog

open KeyedStore

structure TableIntentTable where
  previous : TableRow
  next : TableRow
  deriving DecidableEq, Repr

/-- Tables the attempt changes and, under the ids it asked for, tables it creates. -/
structure TableIntentAssembler where
  kv : CatalogKv
  baseOrder : CatalogOrderId
  tables : OrderedMap TableId TableIntentTable := .empty
  createdTables : OrderedMap TableId TableRow := .empty

/-- One fact about a table, as the metadata intents list them. -/
inductive TableFact where
  | createTable (table : TableRow)
  | renameTable (tableId : TableId) (newName : String)
  | addColumn (tableId : TableId) (column : TableColumnRow)
  | renameColumn (tableId : TableId) (column : TableColumnRow)
  | changeColumnDefault (tableId : TableId) (column : TableColumnRow)
  | changeColumnType (tableId : TableId) (column : TableColumnRow)
  | dropColumn (tableId : TableId) (columnId : ColumnId)
  | changeTableComment (tableId : TableId) (comment : Option String)
  | changeColumnComment (tableId : TableId) (columnId : ColumnId) (comment : Option String)
  | changeSortKeys (tableId : TableId) (sort : Option TableSortRow)
  | changePartitionKeys (tableId : TableId) (partition : Option TablePartitionRow)

/-! ## Changing the columns of a row -/

def sameColumnShapeExceptName (existing proposed : TableColumnRow) : Bool :=
  existing.columnId = proposed.columnId ∧ existing.columnType = proposed.columnType ∧
    existing.nullsAllowed = proposed.nullsAllowed ∧ existing.parentId = proposed.parentId

def sameColumnIdentity (existing proposed : TableColumnRow) : Bool :=
  existing.columnId = proposed.columnId ∧ existing.name.toLower = proposed.name.toLower ∧
    sameColumnShapeExceptName existing proposed

def applyColumnDefault (existing proposed : TableColumnRow) : TableColumnRow :=
  { existing with
    initialDefault := proposed.initialDefault, defaultValue := proposed.defaultValue
    defaultValueType := proposed.defaultValueType }

def rejectColumnShapeChange (existing proposed : TableColumnRow) (tableId : TableId) : CatalogResult Unit :=
  if sameColumnShapeExceptName existing proposed then .ok ()
  else .error (.invalidMutation s!"column {proposed.columnId} shape changed unexpectedly on table {tableId}")

/-- What an added column makes of the one that has its id already. -/
def readdColumn (existing column : TableColumnRow) : TableColumnRow :=
  if sameColumnIdentity existing column then applyColumnDefault existing column
  else if sameColumnShapeExceptName existing column then
    { applyColumnDefault existing column with name := column.name }
  else
    { applyColumnDefault existing column with
      name := column.name, columnType := column.columnType, nullsAllowed := column.nullsAllowed
      parentId := column.parentId }

def isSibling (column existing : TableColumnRow) : Bool :=
  existing.parentId = column.parentId ∧ existing.name.toLower = column.name.toLower

/-- A new id takes the place of a sibling of the same name, or comes last. -/
def addColumn (columns : List TableColumnRow) (column : TableColumnRow) : List TableColumnRow :=
  if columns.any fun existing => existing.columnId = column.columnId then
    updateColumn column.columnId (readdColumn · column) columns
  else
    match columns.findIdx? (isSibling column) with
    | some existingIndex => columns.set existingIndex column
    | none => columns ++ [column]

/-- The new name is compared with every other column, whatever its parent. -/
def renameColumnFact (tableId : TableId) (columns : List TableColumnRow) (column : TableColumnRow) :
    CatalogResult (List TableColumnRow) :=
  match columns.find? fun existing => existing.columnId = column.columnId with
  | none => .error (.notFound "column")
  | some existing =>
    let existingIndex := columns.findIdx fun existing => existing.columnId = column.columnId
    if columns.zipIdx.any fun (other, index) => index ≠ existingIndex ∧ other.name.toLower = column.name.toLower then
      .error (.invalidMutation s!"column name {column.name} already exists on table {tableId}")
    else do
      rejectColumnShapeChange existing column tableId
      return updateColumn column.columnId
        (fun existing => { applyColumnDefault existing column with name := column.name }) columns

def changeColumnDefaultFact (tableId : TableId) (columns : List TableColumnRow) (column : TableColumnRow) :
    CatalogResult (List TableColumnRow) :=
  match columns.find? fun existing => existing.columnId = column.columnId with
  | none => .error (.notFound "column")
  | some existing => do
    rejectColumnShapeChange existing column tableId
    if existing.name.toLower ≠ column.name.toLower then
      .error (.invalidMutation
        s!"column {column.columnId} default change cannot rename column on table {tableId}")
    else return updateColumn column.columnId (applyColumnDefault · column) columns

def changeColumnTypeFact (tableId : TableId) (columns : List TableColumnRow) (column : TableColumnRow) :
    CatalogResult (List TableColumnRow) :=
  match columns.find? fun existing => existing.columnId = column.columnId with
  | none => .error (.notFound "column")
  | some existing =>
    if columns.any fun child => child.parentId = some column.columnId then
      .error (.invalidMutation
        s!"column {column.columnId} type change cannot change a parent column on table {tableId}")
    else if existing.name.toLower ≠ column.name.toLower ∨ existing.parentId ≠ column.parentId then
      .error (.invalidMutation
        s!"column {column.columnId} type change cannot change identity metadata on table {tableId}")
    else if existing.parentId.isNone ∧ existing.nullsAllowed ≠ column.nullsAllowed then
      .error (.invalidMutation
        s!"column {column.columnId} type change cannot change top-level nullability on table {tableId}")
    else if existing.columnType = column.columnType then
      .error (.invalidMutation s!"column {column.columnId} type is unchanged on table {tableId}")
    else
      .ok (updateColumn column.columnId (fun existing =>
        applyColumnDefault { existing with
          columnType := column.columnType, nullsAllowed := column.nullsAllowed } column) columns)

/-- Only the column itself goes. -/
def dropColumnFact (columns : List TableColumnRow) (columnId : ColumnId) : CatalogResult (List TableColumnRow) :=
  match columns.findIdx? fun column => column.columnId = columnId with
  | none => .error (.notFound "column")
  | some index => .ok (columns.eraseIdx index)

def changeColumnCommentFact (columns : List TableColumnRow) (columnId : ColumnId) (comment : Option String) :
    CatalogResult (List TableColumnRow) :=
  if columns.any fun column => column.columnId = columnId then
    .ok (updateColumn columnId (fun column => { column with comment := comment }) columns)
  else .error (.notFound "column")

def TableRow.changeColumns (table : TableRow) (columns : CatalogResult (List TableColumnRow)) :
    CatalogResult TableRow :=
  columns.map fun columns => { table with columns := columns }

/-! ## Applying facts -/

namespace TableIntentAssembler

def new (kv : CatalogKv) (baseOrder : CatalogOrderId) : TableIntentAssembler := { kv, baseOrder }

/-- The table a fact changes, with the row it had at the base order. -/
def existing (assembler : TableIntentAssembler) (tableId : TableId) : CatalogResult TableIntentTable :=
  match assembler.tables.get? tableId with
  | some table => .ok table
  | none =>
    match loadTableAt assembler.kv tableId assembler.baseOrder with
    | none => .error (.notFound "table")
    | some table => .ok ⟨table, table⟩

/-- The row a fact about the id finds: a created table goes before one the base has. -/
def row (assembler : TableIntentAssembler) (tableId : TableId) : CatalogResult TableRow :=
  match assembler.createdTables.get? tableId with
  | some table => .ok table
  | none => (assembler.existing tableId).map TableIntentTable.next

def tableMut (assembler : TableIntentAssembler) (tableId : TableId) (change : TableRow → CatalogResult TableRow) :
    CatalogResult TableIntentAssembler :=
  match assembler.createdTables.get? tableId with
  | some table =>
    (change table).map fun changed =>
      { assembler with createdTables := assembler.createdTables.insert tableId changed }
  | none => do
    let table ← assembler.existing tableId
    let changed ← change table.next
    return { assembler with tables := assembler.tables.insert tableId ⟨table.previous, changed⟩ }

def createdRows (assembler : TableIntentAssembler) : List TableRow := assembler.createdTables.entries.map Prod.snd

/-- A requested id that a current or created table has is exchanged for one above them all. -/
def persistedTableIdForCreate (assembler : TableIntentAssembler) (requestedTableId : TableId) : TableId :=
  let currentTables := listTablesAt assembler.kv assembler.baseOrder
  if !(currentTables.any fun table => table.tableId = requestedTableId) ∧
      !(assembler.createdRows.any fun table => table.tableId = requestedTableId) then requestedTableId
  else
    let maxCurrent := ((currentTables.map TableRow.tableId).max?).getD 0
    let maxCreated := ((assembler.createdRows.map TableRow.tableId).max?).getD 0
    saturatingAdd (max maxCurrent maxCreated) 1

def applyCreateTableFact (assembler : TableIntentAssembler) (table : TableRow) : CatalogResult TableIntentAssembler :=
  if (assembler.createdTables.get? table.tableId).isSome ∨ (assembler.tables.get? table.tableId).isSome then
    .error (.invalidMutation s!"table id {table.tableId} appears more than once in CommitAttempt")
  else
    let persisted := { table with tableId := assembler.persistedTableIdForCreate table.tableId }
    .ok { assembler with createdTables := assembler.createdTables.insert table.tableId persisted }

def apply (assembler : TableIntentAssembler) : TableFact → CatalogResult TableIntentAssembler
  | .createTable table => assembler.applyCreateTableFact table
  | .renameTable tableId newName => assembler.tableMut tableId fun table => .ok { table with name := newName }
  | .addColumn tableId column =>
    assembler.tableMut tableId fun table => table.changeColumns (.ok (addColumn table.columns column))
  | .renameColumn tableId column =>
    assembler.tableMut tableId fun table => table.changeColumns (renameColumnFact tableId table.columns column)
  | .changeColumnDefault tableId column =>
    assembler.tableMut tableId fun table => table.changeColumns (changeColumnDefaultFact tableId table.columns column)
  | .changeColumnType tableId column =>
    assembler.tableMut tableId fun table => table.changeColumns (changeColumnTypeFact tableId table.columns column)
  | .dropColumn tableId columnId =>
    assembler.tableMut tableId fun table => table.changeColumns (dropColumnFact table.columns columnId)
  | .changeTableComment tableId comment => assembler.tableMut tableId fun table => .ok { table with comment := comment }
  | .changeColumnComment tableId columnId comment =>
    assembler.tableMut tableId fun table =>
      table.changeColumns (changeColumnCommentFact table.columns columnId comment)
  | .changeSortKeys tableId sort => assembler.tableMut tableId fun table => .ok { table with sort := sort }
  | .changePartitionKeys tableId partition =>
    assembler.tableMut tableId fun table => .ok { table with partition := partition }

end TableIntentAssembler

/-! ## What an attempt commits -/

/-- A created table with the id the client knows it by. -/
structure CreatedTable where
  requestedTableId : TableId
  tableId : TableId
  schemaId : SchemaId
  name : String
  deriving DecidableEq, Repr

def CreatedTable.new (requestedTableId : TableId) (persisted : TableRow) : CreatedTable :=
  ⟨requestedTableId, persisted.tableId, persisted.schemaId, persisted.name⟩

def CreatedTable.unremapped (persisted : TableRow) : CreatedTable := .new persisted.tableId persisted

structure TableCommitParts where
  createdRows : List TableRow
  replacements : List TableVersionReplacement
  createdTables : List CreatedTable
  deriving DecidableEq

/-- No two items have the same key. -/
def rejectRepeated {α κ : Type} [DecidableEq κ] (key : α → κ) (failure : α → CatalogError) (items : List α) :
    CatalogResult Unit := do
  let _ ← items.foldlM
    (fun seen item => if key item ∈ seen then .error (failure item) else .ok (key item :: seen)) []

theorem rejectRepeated_nodup {α κ : Type} [DecidableEq κ] {key : α → κ} {failure : α → CatalogError} {items : List α}
    (accepted : rejectRepeated key failure items = .ok ()) : (items.map key).Nodup := by
  unfold rejectRepeated at accepted
  simp only [bind_eq_ok] at accepted
  obtain ⟨seen, folded, _⟩ := accepted
  refine (foldlM_nodup id key folded ?_).1
  intro known item next taken
  split at taken
  · cases taken
  · rename_i fresh
    obtain rfl := Except.ok.inj taken
    exact ⟨fresh, rfl⟩

/-- Siblings are told apart by `toLowercase`, the lower case of all of Unicode. -/
def rejectDuplicateColumnNames (toLowercase : String → String) (table : TableRow) (tableId : TableId) :
    CatalogResult Unit :=
  rejectRepeated (fun column => (column.parentId, toLowercase column.name))
    (fun column => .invalidMutation s!"table {tableId} has duplicate column name {column.name}") table.columns

namespace TableIntentAssembler

/-- The listed tables with what the attempt makes of them, and the created ones. -/
def finishedTables (assembler : TableIntentAssembler) : List TableRow :=
  let tables := listTablesAt assembler.kv assembler.baseOrder
  let indexes := tables.zipIdx.foldl (fun indexes entry => indexes.insert entry.1.tableId entry.2)
    (OrderedMap.empty : OrderedMap TableId Nat)
  let replaced := assembler.tables.entries.foldl
    (fun tables entry => (indexes.get? entry.1).elim tables fun index => tables.set index entry.2.next) tables
  replaced ++ assembler.createdRows

def rejectDuplicateTableNames (assembler : TableIntentAssembler) : CatalogResult Unit :=
  rejectRepeated (fun table => (table.schemaId, table.name.toLower))
    (fun table => .invalidMutation
      s!"conflict creating table {table.name}: name already exists in schema {table.schemaId}")
    assembler.finishedTables

def changedTables (assembler : TableIntentAssembler) : List (TableId × TableIntentTable) :=
  assembler.tables.entries.filter fun entry => entry.2.previous ≠ entry.2.next

def intoCommitParts (toLowercase : String → String) (assembler : TableIntentAssembler) :
    CatalogResult TableCommitParts := do
  assembler.rejectDuplicateTableNames
  assembler.changedTables.forM fun entry => rejectDuplicateColumnNames toLowercase entry.2.next entry.1
  assembler.createdTables.entries.forM fun entry => rejectDuplicateColumnNames toLowercase entry.2 entry.2.tableId
  return {
    createdRows := assembler.createdRows
    replacements := assembler.changedTables.map fun entry => ⟨entry.1, entry.2.previous, entry.2.next⟩
    createdTables := assembler.createdTables.entries.map fun entry => .new entry.1 entry.2 }

end TableIntentAssembler

end DucklakeCatalog
