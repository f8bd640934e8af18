import DucklakeCatalog.Fdb.TableWrites
import DucklakeCatalog.KeyedStore.History

/-! The index of table names over runs of the FoundationDB backend. -/
namespace DucklakeCatalog.Fdb

open KeyedStore

/-- A state of the store and the table metadata that was committed to reach it. -/
structure TableMoment where
  store : FdbStore
  commit : Option TableCommit := none

abbrev TableHistory := History TableMoment

/-- A catalog that has never had a table. -/
structure NoTables (store : FdbStore) : Prop where
  currentTableRow : store.kv.currentTableRow = .empty
  currentTableName : store.currentTableName = .empty
  tableObject : store.kv.tableObject = .empty
  tableVisibility : store.kv.tableVisibility = .empty

def TableStep (history : TableHistory) (moment : TableMoment) : Prop :=
  ∃ commit, moment.commit = some commit ∧ commit.transact history.current.store = some moment.store

/-- Every history of table metadata, whatever the transactions were given. -/
abbrev TableRun (history : TableHistory) : Prop :=
  History.Reachable (fun moment => moment.commit = none ∧ NoTables moment.store) TableStep history

/-- The index has a name exactly if a current table has it, and leads to that table. -/
def NamesCoherent (store : FdbStore) : Prop :=
  ∀ schemaId name tableId, store.currentTableName.get? (currentTableNameKey schemaId name) = some tableId ↔
    ∃ table, store.kv.currentTableRow.get? tableId = some table ∧ table.schemaId = schemaId ∧
      table.name.toLower = name.toLower

/-- The writes of the commit meet the names they expect, one after the other. -/
def TableMoment.Settles (earlier : TableHistory) (moment : TableMoment) : Prop :=
  ∀ commit, moment.commit = some commit →
    SettlesInOrder earlier.current.store.commitOrder earlier.current.store.tableView commit.writes

theorem tableNameKey_eq_currentTableNameKey_iff {table : TableRow} {schemaId : SchemaId} {name : String} :
    tableNameKey table = currentTableNameKey schemaId name ↔
      table.schemaId = schemaId ∧ table.name.toLower = name.toLower := by
  unfold tableNameKey currentTableNameKey
  rw [toLex_inj, Prod.mk.injEq]

theorem namesCoherent_of_coherent {store : FdbStore} (coherent : store.tableView.Coherent) : NamesCoherent store := by
  intro schemaId name tableId
  refine (coherent (currentTableNameKey schemaId name) tableId).trans ?_
  simp only [tableNameKey_eq_currentTableNameKey_iff]
  rfl

theorem NoTables.coherent {store : FdbStore} (none : NoTables store) : store.tableView.Coherent := by
  have empty : Indexes tableNameKey (.empty : OrderedMap (SchemaId ×ₗ String) TableId)
      (.empty : OrderedMap TableId TableRow) := Indexes.empty
  rw [← none.currentTableRow, ← none.currentTableName] at empty
  exact empty

theorem TableRun.coherent {history : TableHistory} (run : TableRun history)
    (settled : ∀ earlier moment, history.Took earlier moment → moment.Settles earlier) :
    ∀ moment ∈ history.states, moment.store.tableView.Coherent := by
  induction run with
  | start isInitial =>
    intro moment member
    rw [History.states_start, List.mem_singleton] at member
    exact member ▸ isInitial.2.coherent
  | @step history next earlier taken ih =>
    have before := ih fun sooner moment took => settled sooner moment (History.took_extend.mpr (Or.inr took))
    intro moment member
    rcases List.mem_cons.mp member with rfl | known
    · obtain ⟨commit, committed, transacts⟩ := taken
      rw [commit.transact_tableView transacts]
      refine (before history.current history.current_mem).foldl_apply ?_
      exact settled history moment (History.took_extend.mpr (Or.inl ⟨rfl, rfl⟩)) commit committed
    · exact before moment known

theorem tableNames_stay_coherent {history : TableHistory} (run : TableRun history)
    (settled : ∀ earlier moment, history.Took earlier moment → moment.Settles earlier) :
    ∀ moment ∈ history.states, NamesCoherent moment.store := by
  intro moment member
  exact namesCoherent_of_coherent (run.coherent settled moment member)

/-! ## A swap of two names -/

def ordersTable : TableRow := { tableId := 1, name := "orders", validity := ⟨autoOrder, none⟩ }

def returnsTable : TableRow := { tableId := 2, name := "returns", validity := ⟨autoOrder, none⟩ }

def shopCreated : TableCommit := .created 0 1 none [ordersTable, returnsTable]

def shopStore : FdbStore := commitCreatedTables 0 1 none [ordersTable, returnsTable] {}

def shopHistory : TableHistory := (History.start { store := {} }).extend ⟨shopStore, some shopCreated⟩

/-- What renaming the two tables to each other's name prepares. -/
def swappedNames : List TableVersionReplacement :=
  [⟨1, storedTable 1 ordersTable, { storedTable 1 ordersTable with name := "returns" }⟩,
    ⟨2, storedTable 1 returnsTable, { storedTable 1 returnsTable with name := "orders" }⟩]

example : ((TableEdit.renameTables [⟨1, "returns"⟩, ⟨2, "orders"⟩]).prepare shopStore.kv).toOption =
    some (2, swappedNames) := by decide +kernel

def swapCommit : TableCommit := .changed 0 2 {} [] swappedNames

def swappedStore : FdbStore := (commitTableChanges 0 2 {} [] swappedNames shopStore).getD {}

theorem noTables_empty : NoTables {} := ⟨rfl, rfl, rfl, rfl⟩

theorem shopHistory_run : TableRun shopHistory :=
  .step (.start ⟨rfl, noTables_empty⟩) ⟨shopCreated, rfl, rfl⟩

theorem swap_erases_tableName :
    ¬∀ history, TableRun history → ∀ moment ∈ history.states, NamesCoherent moment.store := by
  intro always
  have run : TableRun (shopHistory.extend ⟨swappedStore, some swapCommit⟩) :=
    .step shopHistory_run ⟨swapCommit, rfl, rfl⟩
  have coherent := always _ run ⟨swappedStore, some swapCommit⟩ List.mem_cons_self
  have missing : swappedStore.currentTableName.get? (currentTableNameKey 0 "returns") = none := by decide +kernel
  have present : swappedStore.kv.currentTableRow.get? 1 =
      some (storedTable 2 { ordersTable with name := "returns" }) := by decide +kernel
  have entry := (coherent 0 "returns" 1).mpr ⟨_, present, rfl, rfl⟩
  rw [missing] at entry
  cases entry

/-- Moving one table out of the way first keeps every name. -/
def renameChain : List TableVersionReplacement :=
  [⟨2, storedTable 1 returnsTable, { storedTable 1 returnsTable with name := "archive" }⟩,
    ⟨1, storedTable 1 ordersTable, { storedTable 1 ordersTable with name := "returns" }⟩]

def renamedStore : FdbStore := (commitTableChanges 0 2 {} [] renameChain shopStore).getD {}

def renamedHistory : TableHistory :=
  shopHistory.extend ⟨renamedStore, some (.changed 0 2 {} [] renameChain)⟩

theorem renamedHistory_run : TableRun renamedHistory := .step shopHistory_run ⟨_, rfl, rfl⟩

theorem renamedHistory_names_coherent : TableRun renamedHistory ∧ NamesCoherent renamedStore := by
  refine ⟨renamedHistory_run, tableNames_stay_coherent renamedHistory_run ?_ _ List.mem_cons_self⟩
  intro earlier moment took commit committed
  rcases History.took_extend.mp took with ⟨rfl, rfl⟩ | took
  · obtain rfl := Option.some.inj committed
    decide +kernel
  · rcases History.took_extend.mp took with ⟨rfl, rfl⟩ | took
    · obtain rfl := Option.some.inj committed
      decide +kernel
    · exact absurd took (History.not_took_start _ _ _)

end DucklakeCatalog.Fdb
