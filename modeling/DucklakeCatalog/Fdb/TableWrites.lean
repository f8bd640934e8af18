import DucklakeCatalog.Fdb.Families
import DucklakeCatalog.Fdb.Tables
import DucklakeCatalog.KeyedStore.UniqueIndex
import DucklakeCatalog.Table.Versions

/-! What a commit of table metadata does to the current rows and to the index of
their names: a list of writes, one after the other. -/
namespace DucklakeCatalog.Fdb

open KeyedStore

/-- The current tables, the index of their names, and the two families that hold all versions. -/
structure TableView where
  rows : OrderedMap TableId TableRow
  names : OrderedMap (SchemaId ×ₗ String) TableId
  objects : OrderedMap TableObjectKey TableRow
  visibility : OrderedMap TableVisibilityKey TableRow

def FdbStore.tableView (store : FdbStore) : TableView where
  rows := store.kv.currentTableRow
  names := store.currentTableName
  objects := store.kv.tableObject
  visibility := store.kv.tableVisibility

/-- Every name of the index is the name of the current table it leads to, and the other way round. -/
def TableView.Coherent (view : TableView) : Prop := Indexes tableNameKey view.names view.rows

/-- One write of a commit; `rewrite` leaves the name index alone. -/
inductive TableWrite where
  | create (table : TableRow)
  | replace (tableId : TableId) (previous next : TableRow)
  | rewrite (previous next : TableRow)
  | drop (table : TableRow)
  deriving DecidableEq

def storedTable (order : CatalogOrderId) (table : TableRow) : TableRow := { table with validity := ⟨order, none⟩ }

@[simp] theorem tableNameKey_storedTable (order : CatalogOrderId) (table : TableRow) :
    tableNameKey (storedTable order table) = tableNameKey table := rfl

/-- The name index after a replacement. -/
def replacedName (names : OrderedMap (SchemaId ×ₗ String) TableId) (previous next : TableRow) :
    OrderedMap (SchemaId ×ₗ String) TableId :=
  if tableNameKey previous ≠ tableNameKey next then
    (names.erase (tableNameKey previous)).insert (tableNameKey next) next.tableId
  else names

def TableWrite.apply (order : CatalogOrderId) (view : TableView) : TableWrite → TableView
  | .create table => {
      rows := view.rows.insert table.tableId (storedTable order table)
      names := view.names.insert (tableNameKey table) table.tableId
      objects := view.objects.insert ⟨table.tableId, order⟩ (preparedTable table)
      visibility := view.visibility.insert ⟨order, table.tableId⟩ (preparedTable table) }
  | .replace tableId previous next => {
      rows := view.rows.insert next.tableId (storedTable order next)
      names := replacedName view.names previous next
      objects := (view.objects.insert ⟨tableId, previous.validity.beginOrder⟩
        (previous.withEndOrder (some order))).insert ⟨tableId, order⟩ (preparedTable next)
      visibility := (view.visibility.insert ⟨previous.validity.beginOrder, previous.tableId⟩
        (previous.withEndOrder (some order))).insert ⟨order, next.tableId⟩ (preparedTable next) }
  | .rewrite previous next => {
      rows := view.rows.insert next.tableId (next.withBeginOrder order)
      names := view.names
      objects := (view.objects.insert ⟨previous.tableId, previous.validity.beginOrder⟩
        (previous.withEndOrder (some order))).insert ⟨next.tableId, order⟩ next
      visibility := (view.visibility.insert ⟨previous.validity.beginOrder, previous.tableId⟩
        (previous.withEndOrder (some order))).insert ⟨order, next.tableId⟩ next }
  | .drop table => {
      rows := view.rows.erase table.tableId
      names := view.names.erase (tableNameKey table)
      objects := view.objects.insert ⟨table.tableId, table.validity.beginOrder⟩ (table.withEndOrder (some order))
      visibility := view.visibility.insert ⟨table.validity.beginOrder, table.tableId⟩
        (table.withEndOrder (some order)) }

/-- The table a write is about. -/
def TableWrite.tableId : TableWrite → TableId
  | .create table => table.tableId
  | .replace _ _ next => next.tableId
  | .rewrite _ next => next.tableId
  | .drop table => table.tableId

/-- The row a write leaves, if any. -/
def TableWrite.written : TableWrite → Option TableRow
  | .create table => some table
  | .replace _ _ next => some next
  | .rewrite _ next => some next
  | .drop _ => none

/-- The row a write ends, as its preparation read it. -/
def TableWrite.previous : TableWrite → Option TableRow
  | .create _ => none
  | .replace _ previous _ => some previous
  | .rewrite previous _ => some previous
  | .drop table => some table

/-- The table has the name. -/
def TableView.Named (view : TableView) (tableId : TableId) (name : SchemaId ×ₗ String) : Prop :=
  ∃ row, view.rows.get? tableId = some row ∧ tableNameKey row = name

instance (view : TableView) (tableId : TableId) (name : SchemaId ×ₗ String) : Decidable (view.Named tableId name) :=
  decidable_of_iff ((view.rows.get? tableId).any fun row => tableNameKey row = name) (by
    simp [TableView.Named, Option.any_eq_true])

/-- The write meets the names it expects: the table it ends still has the name
that was read, and no other table has the name it takes. -/
def TableWrite.Settles (view : TableView) : TableWrite → Prop
  | .create table =>
    view.rows.get? table.tableId = none ∧ FreeFor tableNameKey view.rows table.tableId (tableNameKey table)
  | .replace _ previous next =>
    view.Named next.tableId (tableNameKey previous) ∧
      FreeFor tableNameKey view.rows next.tableId (tableNameKey next)
  | .rewrite _ next => view.Named next.tableId (tableNameKey next)
  | .drop table => view.Named table.tableId (tableNameKey table)

instance (view : TableView) : (write : TableWrite) → Decidable (write.Settles view)
  | .create _ => inferInstanceAs (Decidable (_ ∧ _))
  | .replace _ _ _ => inferInstanceAs (Decidable (_ ∧ _))
  | .rewrite _ _ => inferInstanceAs (Decidable (view.Named _ _))
  | .drop _ => inferInstanceAs (Decidable (view.Named _ _))

/-- Each write of a list settles in the state the ones before it leave. -/
def SettlesInOrder (order : CatalogOrderId) : TableView → List TableWrite → Prop
  | _, [] => True
  | view, write :: rest => write.Settles view ∧ SettlesInOrder order (write.apply order view) rest

def decideSettlesInOrder (order : CatalogOrderId) :
    (view : TableView) → (writes : List TableWrite) → Decidable (SettlesInOrder order view writes)
  | _, [] => .isTrue trivial
  | view, write :: rest =>
    haveI := decideSettlesInOrder order (write.apply order view) rest
    inferInstanceAs (Decidable (_ ∧ _))

instance (order : CatalogOrderId) (view : TableView) (writes : List TableWrite) :
    Decidable (SettlesInOrder order view writes) := decideSettlesInOrder order view writes

theorem TableView.Coherent.apply {view : TableView} (coherent : view.Coherent) {write : TableWrite}
    (settles : write.Settles view) (order : CatalogOrderId) : (write.apply order view).Coherent := by
  cases write with
  | create table =>
    obtain ⟨fresh, free⟩ := settles
    have created := Indexes.create coherent (storedTable order table) fresh free
    exact created
  | replace tableId previous next =>
    obtain ⟨⟨row, found, named⟩, free⟩ := settles
    by_cases changed : tableNameKey previous ≠ tableNameKey next
    · have renamed := Indexes.rename coherent (storedTable order next) found free
      rw [named] at renamed
      simpa [TableView.Coherent, TableWrite.apply, replacedName, changed] using renamed
    · have kept := Indexes.keep coherent (storedTable order next) found
        ((not_not.mp changed).symm.trans named.symm)
      simpa [TableView.Coherent, TableWrite.apply, replacedName, changed] using kept
  | rewrite previous next =>
    obtain ⟨row, found, named⟩ := settles
    exact Indexes.keep coherent (next.withBeginOrder order) found named.symm
  | drop table =>
    obtain ⟨row, found, named⟩ := settles
    have dropped := Indexes.drop coherent found
    rwa [named] at dropped

theorem TableView.Coherent.foldl_apply {order : CatalogOrderId} {view : TableView} {writes : List TableWrite}
    (coherent : view.Coherent) (settles : SettlesInOrder order view writes) :
    (writes.foldl (TableWrite.apply order) view).Coherent := by
  induction writes generalizing view with
  | nil => exact coherent
  | cons write rest ih => exact ih (coherent.apply settles.1 order) settles.2

/-! ## Transactions -/

def replacementWrite (replacement : TableVersionReplacement) : TableWrite :=
  .replace replacement.tableId replacement.previous replacement.next

def dropWrite (drop : PreparedTableDrop) : TableWrite := .drop drop.table

def inlineWrite (replacement : TableRow × TableRow) : TableWrite := .rewrite replacement.1 replacement.2

def TableCommit.writes : TableCommit → List TableWrite
  | .created _ _ _ tables => tables.map .create
  | .changed _ _ _ newTables replacements => replacements.map replacementWrite ++ newTables.map .create
  | .dropped _ _ _ drops => drops.map dropWrite
  | .replaced _ _ _ _ drops tables => drops.map dropWrite ++ tables.map .create
  | .inlineRows _ _ prepared => prepared.replacements.map inlineWrite

theorem stageCreatedTable_tableView (order : CatalogOrderId) (store : FdbStore) (table : TableRow) :
    (stageCreatedTable order store table).tableView = (TableWrite.create table).apply order store.tableView := rfl

theorem stageTableReplacement_tableView (order : CatalogOrderId) (store : FdbStore)
    (replacement : TableVersionReplacement) :
    (stageTableReplacement order store replacement).tableView =
      (replacementWrite replacement).apply order store.tableView := by
  unfold stageTableReplacement stageCurrentTableNameReplacement
  by_cases changed : tableNameKey replacement.previous ≠ tableNameKey replacement.next
  · have staged : tableNameKey (replacement.previous.withEndOrder (some order)) ≠
        tableNameKey (preparedTable replacement.next) := changed
    simp only [replacementWrite, TableWrite.apply, replacedName, if_pos staged, if_pos changed]
    rfl
  · have staged : ¬tableNameKey (replacement.previous.withEndOrder (some order)) ≠
        tableNameKey (preparedTable replacement.next) := changed
    simp only [replacementWrite, TableWrite.apply, replacedName, if_neg staged, if_neg changed]
    rfl

theorem stageExpiredDataFile_tableMaps (seen : CatalogKv) (order : CatalogOrderId) (kv : CatalogKv)
    (row : DataFileRow) : (stageExpiredDataFile seen order kv row).tableMaps = kv.tableMaps := rfl

theorem stageExpiredDeleteFile_tableMaps (seen : CatalogKv) (order : CatalogOrderId) (tableId : TableId)
    (kv : CatalogKv) (row : DeleteFileRow) :
    (stageExpiredDeleteFile seen order kv tableId row).tableMaps = kv.tableMaps := rfl

theorem stageDrop_tableView (seen : CatalogKv) (order : CatalogOrderId) (store : FdbStore) (drop : PreparedTableDrop) :
    (stageDrop seen order store drop).tableView = (dropWrite drop).apply order store.tableView := by
  have dataFiles := foldl_view CatalogKv.tableMaps (stageExpiredDataFile_tableMaps seen order)
    drop.dataFiles store.kv
  have deleteFiles := foldl_view CatalogKv.tableMaps
    (stageExpiredDeleteFile_tableMaps seen order drop.table.tableId) drop.deleteFiles
    (drop.dataFiles.foldl (stageExpiredDataFile seen order) store.kv)
  have maps := deleteFiles.trans dataFiles
  exact congrArg (fun maps : TableMaps => (dropWrite drop).apply order
    ⟨maps.current, store.currentTableName, maps.objects, maps.visibility⟩) maps

/-- Staging a list of items writes the list of their writes. -/
theorem foldl_tableView {ι : Type} {stage : FdbStore → ι → FdbStore} {write : ι → TableWrite} {order : CatalogOrderId}
    (writes : ∀ store item, (stage store item).tableView = (write item).apply order store.tableView) (items : List ι)
    (store : FdbStore) :
    (items.foldl stage store).tableView = (items.map write).foldl (TableWrite.apply order) store.tableView := by
  induction items generalizing store with
  | nil => rfl
  | cons item rest ih => rw [List.foldl_cons, ih, List.map_cons, List.foldl_cons, writes]

theorem stageMaxTableId_tableView (store : FdbStore) (tableIds : List TableId) :
    (stageMaxTableId store tableIds).tableView = store.tableView := by
  unfold stageMaxTableId
  cases tableIds.max? with
  | none => rfl
  | some tableId => rfl

theorem stageCommitAttempt_tableView (order : CatalogOrderId) (recoveryId : Option CommitAttemptId) (store : FdbStore) :
    (stageCommitAttempt order recoveryId store).tableView = store.tableView := by
  cases recoveryId with
  | none => rfl
  | some recoveryId => rfl

theorem openTableCommit_tableView (now : Int) (sequence : RawSnapshotSequence) (metadata : SnapshotCommitMetadata)
    (store : FdbStore) : (openTableCommit now sequence metadata store).tableView = store.tableView := rfl

theorem foldl_stageInlineTableReplacement_tableView (order : CatalogOrderId) (replacements : List (TableRow × TableRow))
    (store : FdbStore) :
    FdbStore.tableView { store with kv := replacements.foldl (stageInlineTableReplacement order) store.kv } =
      (replacements.map inlineWrite).foldl (TableWrite.apply order) store.tableView := by
  induction replacements generalizing store with
  | nil => rfl
  | cons replacement rest ih => exact ih { store with kv := stageInlineTableReplacement order store.kv replacement }

theorem stageInlineDelete_tableView (order : CatalogOrderId) (store : FdbStore) (delete : PreparedInlineDelete) :
    (stageInlineDelete order store delete).tableView = store.tableView := by
  unfold stageInlineDelete
  split
  · rfl
  · have untouched : ∀ (store : FdbStore) (rowId : Nat), (stageDeletedInlineRow order store
        ⟨delete.tableId, delete.schemaId, rowId⟩).tableView = store.tableView := fun store rowId => rfl
    exact foldl_view FdbStore.tableView untouched delete.rowIds
      { store with kv := stageInlineTableChange order store.kv delete.tableId .deleted }

variable {store next : FdbStore} {commit : TableCommit}

theorem stageInlinePayload_tableView {order : CatalogOrderId} {sequence : RawSnapshotSequence}
    {payload : PreparedInlinePayload} (stages : stageInlinePayload order sequence store payload = .ok next) :
    next.tableView = store.tableView := by
  unfold stageInlinePayload at stages
  refine foldlM_invariant (fun staged : FdbStore => staged.tableView = store.tableView) stages ?_ ?_
  · split <;> rfl
  · intro state key staged _ same inserts
    unfold stageInsertedInlineRow at inserts
    split at inserts
    · cases inserts
    · simp only [Except.ok.injEq] at inserts
      subst inserts
      exact same

theorem stagePreparedInlineMutation_tableView {order : CatalogOrderId}
    {prepared : PreparedInlineMutation} (stages : stagePreparedInlineMutation order store prepared = .ok next) :
    next.tableView = (prepared.replacements.map inlineWrite).foldl (TableWrite.apply order) store.tableView := by
  unfold stagePreparedInlineMutation at stages
  simp only [bind_eq_ok, pure_eq_ok] at stages
  obtain ⟨staged, inserts, rfl⟩ := stages
  have inserted := foldlM_invariant (fun state : FdbStore => state.tableView = (prepared.deletes.foldl
    (stageInlineDelete order) { store with
      kv := prepared.replacements.foldl (stageInlineTableReplacement order) store.kv }).tableView) inserts rfl
    fun state payload after _ same stages => (stageInlinePayload_tableView stages).trans same
  have deleted := foldl_view FdbStore.tableView (stageInlineDelete_tableView order) prepared.deletes
    { store with kv := prepared.replacements.foldl (stageInlineTableReplacement order) store.kv }
  exact inserted.trans (deleted.trans
    (foldl_stageInlineTableReplacement_tableView order prepared.replacements store))

theorem transact_inlineRows {now : Int} {metadata : SnapshotCommitMetadata} {prepared : PreparedInlineMutation}
    (transacts : (TableCommit.inlineRows now metadata prepared).transact store = some next) :
    ∃ staged, stagePreparedInlineMutation store.commitOrder (openTableCommit now prepared.sequence metadata store)
      prepared = .ok staged ∧ staged.commitAt store.commitOrder = next := by
  simp only [TableCommit.transact, Option.map_eq_some_iff] at transacts
  obtain ⟨staged, stages, same⟩ := transacts
  cases result : stagePreparedInlineMutation store.commitOrder (openTableCommit now prepared.sequence metadata store)
      prepared with
  | error failure => simp [result, Except.toOption] at stages
  | ok written =>
    obtain rfl : written = staged := by simpa [result, Except.toOption] using stages
    exact ⟨written, rfl, same⟩

theorem TableCommit.transact_tableView (transacts : commit.transact store = some next) :
    next.tableView = commit.writes.foldl (TableWrite.apply store.commitOrder) store.tableView := by
  cases commit with
  | created now sequence recoveryId tables =>
    obtain rfl := Option.some.inj transacts
    have staged := foldl_tableView (stageCreatedTable_tableView store.commitOrder) tables
      (openTableCommit now sequence {} (stageCommitAttempt store.commitOrder recoveryId store))
    refine (stageMaxTableId_tableView _ _).trans (staged.trans ?_)
    rw [openTableCommit_tableView, stageCommitAttempt_tableView]
    rfl
  | changed now sequence metadata newTables replacements =>
    simp only [TableCommit.transact, commitTableChanges] at transacts
    split at transacts
    · cases transacts
    · obtain rfl := Option.some.inj transacts
      have replaced := foldl_tableView (stageTableReplacement_tableView store.commitOrder) replacements
        (openTableCommit now sequence metadata store)
      have staged := foldl_tableView (stageCreatedTable_tableView store.commitOrder) newTables
        (replacements.foldl (stageTableReplacement store.commitOrder) (openTableCommit now sequence metadata store))
      refine (stageMaxTableId_tableView _ _).trans (staged.trans ?_)
      rw [replaced, openTableCommit_tableView, TableCommit.writes, List.foldl_append]
  | dropped seen now sequence drops =>
    obtain rfl := Option.some.inj transacts
    exact foldl_tableView (stageDrop_tableView seen store.commitOrder) drops (openTableCommit now sequence {} store)
  | replaced seen now sequence recoveryId drops tables =>
    obtain rfl := Option.some.inj transacts
    have dropped := foldl_tableView (stageDrop_tableView seen store.commitOrder) drops
      (openTableCommit now sequence {} (stageCommitAttempt store.commitOrder recoveryId store))
    have staged := foldl_tableView (stageCreatedTable_tableView store.commitOrder) tables
      (drops.foldl (stageDrop seen store.commitOrder)
        (openTableCommit now sequence {} (stageCommitAttempt store.commitOrder recoveryId store)))
    refine staged.trans ?_
    rw [dropped, openTableCommit_tableView, stageCommitAttempt_tableView, TableCommit.writes, List.foldl_append]
  | inlineRows now metadata prepared =>
    obtain ⟨_, result, rfl⟩ := transact_inlineRows transacts
    have written := stagePreparedInlineMutation_tableView result
    exact written

/-! ## What the stages keep

A transaction opens its snapshot and then stages one table after the other. -/

def TableCommit.recoveryId : TableCommit → Option CommitAttemptId
  | .created _ _ recoveryId _ => recoveryId
  | .replaced _ _ _ recoveryId _ _ => recoveryId
  | _ => none

def TableCommit.drops : TableCommit → List PreparedTableDrop
  | .dropped _ _ _ drops => drops
  | .replaced _ _ _ _ drops _ => drops
  | _ => []

/-- The snapshot a transaction commits at its order. -/
def TableCommit.snapshot (order : CatalogOrderId) : TableCommit → SnapshotRow
  | .created now sequence _ _ => mutationSnapshot now order sequence {}
  | .changed now sequence metadata _ _ => mutationSnapshot now order sequence metadata
  | .dropped _ now sequence _ => mutationSnapshot now order sequence {}
  | .replaced _ now sequence _ _ _ => mutationSnapshot now order sequence {}
  | .inlineRows now metadata prepared => mutationSnapshot now order prepared.sequence metadata

/-- The store with the snapshot and the recovery row of the transaction, before its tables. -/
def TableCommit.opened (commit : TableCommit) (store : FdbStore) : FdbStore :=
  { stageCommitAttempt store.commitOrder commit.recoveryId store with
    kv := stageSnapshot store.kv (commit.snapshot store.commitOrder) }

/-- A relation that every stage respects, given the tables that are dropped in between. -/
structure RelatesStages (order : CatalogOrderId) (Related : List PreparedTableDrop → FdbStore → FdbStore → Prop) :
    Prop where
  refl : ∀ store, Related [] store store
  trans : ∀ {earlier later first second third}, Related earlier first second → Related later second third →
    Related (earlier ++ later) first third
  creates : ∀ store table, Related [] store (stageCreatedTable order store table)
  replaces : ∀ store replacement, Related [] store (stageTableReplacement order store replacement)
  drops : ∀ seen store drop, Related [drop] store (stageDrop seen order store drop)
  notes : ∀ store tableIds, Related [] store (stageMaxTableId store tableIds)
  inserts : ∀ {store next prepared}, stagePreparedInlineMutation order store prepared = .ok next → Related [] store next
  commits : ∀ store, Related [] store (store.commitAt order)

section

variable {order : CatalogOrderId} {Related : List PreparedTableDrop → FdbStore → FdbStore → Prop}

theorem RelatesStages.foldl {ι : Type} (relates : RelatesStages order Related) {stage : FdbStore → ι → FdbStore}
    {dropped : ι → List PreparedTableDrop} (each : ∀ store item, Related (dropped item) store (stage store item))
    (items : List ι) (store : FdbStore) : Related (items.flatMap dropped) store (items.foldl stage store) := by
  induction items generalizing store with
  | nil => exact relates.refl store
  | cons item rest ih => exact relates.trans (each store item) (ih _)

theorem RelatesStages.created (relates : RelatesStages order Related) (tables : List TableRow) (store : FdbStore) :
    Related [] store (tables.foldl (stageCreatedTable order) store) := by
  have created := relates.foldl relates.creates tables store
  rwa [List.flatMap_eq_nil_iff.mpr fun _ _ => rfl] at created

theorem RelatesStages.dropped (relates : RelatesStages order Related) (seen : CatalogKv)
    (drops : List PreparedTableDrop) (store : FdbStore) :
    Related drops store (drops.foldl (stageDrop seen order) store) := by
  have dropped := relates.foldl (relates.drops seen) drops store
  rwa [List.flatMap_singleton'] at dropped

theorem RelatesStages.replaced (relates : RelatesStages order Related) (replacements : List TableVersionReplacement)
    (store : FdbStore) : Related [] store (replacements.foldl (stageTableReplacement order) store) := by
  have replaced := relates.foldl relates.replaces replacements store
  rwa [List.flatMap_eq_nil_iff.mpr fun _ _ => rfl] at replaced

/-- What every stage respects, the transaction respects from its opening on. -/
theorem TableCommit.transact_related
    (relates : RelatesStages store.commitOrder Related) (transacts : commit.transact store = some next) :
    Related commit.drops (commit.opened store) next := by
  have opened (now : Int) (sequence : RawSnapshotSequence) (recoveryId : Option CommitAttemptId) :
      openTableCommit now sequence {} (stageCommitAttempt store.commitOrder recoveryId store) =
        { stageCommitAttempt store.commitOrder recoveryId store with
          kv := stageSnapshot store.kv (mutationSnapshot now store.commitOrder sequence {}) } := by
    cases recoveryId with
    | none => rfl
    | some recoveryId => rfl
  cases commit with
  | created now sequence recoveryId tables =>
    obtain rfl := Option.some.inj transacts
    unfold commitCreatedTables
    dsimp only
    rw [opened]
    exact relates.trans (relates.trans (relates.created tables _) (relates.notes _ _)) (relates.commits _)
  | changed now sequence metadata newTables replacements =>
    simp only [TableCommit.transact, commitTableChanges] at transacts
    split at transacts
    · cases transacts
    · obtain rfl := Option.some.inj transacts
      exact relates.trans (relates.trans (relates.trans (relates.replaced replacements _)
        (relates.created newTables _)) (relates.notes _ _)) (relates.commits _)
  | dropped seen now sequence drops =>
    obtain rfl := Option.some.inj transacts
    have dropped := relates.trans (relates.dropped seen drops (openTableCommit now sequence {} store))
      (relates.commits _)
    rwa [List.append_nil] at dropped
  | replaced seen now sequence recoveryId drops tables =>
    obtain rfl := Option.some.inj transacts
    unfold commitReplacedTables
    dsimp only
    rw [opened]
    have staged := relates.trans (relates.trans
      (relates.dropped seen drops ((TableCommit.replaced seen now sequence recoveryId drops tables).opened store))
      (relates.created tables _)) (relates.commits _)
    rwa [List.append_nil, List.append_nil] at staged
  | inlineRows now metadata prepared =>
    obtain ⟨_, result, rfl⟩ := transact_inlineRows transacts
    exact relates.trans (relates.inserts result) (relates.commits _)

end

theorem stageCurrentTableNameReplacement_kv (store : FdbStore) (replacement : TableVersionReplacement) :
    (stageCurrentTableNameReplacement store replacement).kv = store.kv ∧
      (stageCurrentTableNameReplacement store replacement).commitAttempt = store.commitAttempt ∧
      (stageCurrentTableNameReplacement store replacement).schemaObject = store.schemaObject := by
  unfold stageCurrentTableNameReplacement
  split
  · exact ⟨rfl, rfl, rfl⟩
  · exact ⟨rfl, rfl, rfl⟩

/-! ## Snapshots and schemas

Staging tables leaves them alone. -/

/-- The four copies of the snapshots, and the schemas. -/
structure Recorded where
  snapshot : OrderedMap CatalogOrderId SnapshotRow
  snapshotTimestamp : OrderedMap SnapshotTimestampKey SnapshotRow
  latestSnapshotRow : OrderedMap Unit SnapshotRow
  rawSnapshotRow : OrderedMap RawSnapshotSequence SnapshotRow
  schemaObject : OrderedMap (SchemaId ×ₗ CatalogOrderId) SchemaRow

def FdbStore.recorded (store : FdbStore) : Recorded where
  snapshot := store.kv.snapshot
  snapshotTimestamp := store.kv.snapshotTimestamp
  latestSnapshotRow := store.kv.latestSnapshotRow
  rawSnapshotRow := store.kv.rawSnapshotRow
  schemaObject := store.schemaObject

theorem relatesStages_recorded (order : CatalogOrderId) :
    RelatesStages order fun _ before after => after.recorded = before.recorded where
  refl _ := rfl
  trans left right := right.trans left
  creates _ _ := rfl
  replaces store replacement := by
    unfold stageTableReplacement
    dsimp only [FdbStore.recorded, stageTableVisibilityBegin, stageTableVisibilityEnd, stageCurrentTableRow]
    rw [(stageCurrentTableNameReplacement_kv _ _).1, (stageCurrentTableNameReplacement_kv _ _).2.2]
  drops seen store drop := by
    have dataFiles := foldl_view (fun kv => FdbStore.recorded { store with kv := kv })
      (fun kv row => rfl : ∀ kv row, FdbStore.recorded { store with kv := stageExpiredDataFile seen order kv row } = _)
      drop.dataFiles store.kv
    have deleteFiles := foldl_view (fun kv => FdbStore.recorded { store with kv := kv })
      (fun kv row => rfl : ∀ kv row, FdbStore.recorded { store with
        kv := stageExpiredDeleteFile seen order kv drop.table.tableId row } = _) drop.deleteFiles
      (drop.dataFiles.foldl (stageExpiredDataFile seen order) store.kv)
    exact deleteFiles.trans dataFiles
  notes store tableIds := by
    unfold stageMaxTableId
    cases tableIds.max? with
    | none => rfl
    | some tableId => rfl
  inserts stages := by
    obtain ⟨_, _, _, _, _, _, _, _, _, _, _, _, rfl⟩ := stagePreparedInlineMutation_writes stages
    rfl
  commits _ := rfl

theorem relatesStages_commitAttempt (order : CatalogOrderId) :
    RelatesStages order fun _ before after => after.commitAttempt = before.commitAttempt where
  refl _ := rfl
  trans left right := right.trans left
  creates _ _ := rfl
  replaces store replacement := by
    unfold stageTableReplacement
    dsimp only
    rw [(stageCurrentTableNameReplacement_kv _ _).2.1]
  drops _ _ _ := rfl
  notes store tableIds := by
    unfold stageMaxTableId
    cases tableIds.max? with
    | none => rfl
    | some tableId => rfl
  inserts stages := (stagePreparedInlineMutation_writes stages).commitAttempt
  commits _ := rfl

theorem TableCommit.transact_commitAttempt (commit : TableCommit) (transacts : commit.transact store = some next) :
    next.commitAttempt = (stageCommitAttempt store.commitOrder commit.recoveryId store).commitAttempt :=
  transact_related (relatesStages_commitAttempt store.commitOrder) transacts

theorem TableCommit.transact_lastOrder
    (transacts : commit.transact store = some next) : next.lastOrder = store.commitOrder := by
  cases commit with
  | created now sequence recoveryId tables => exact Option.some.inj transacts ▸ rfl
  | changed now sequence metadata newTables replacements =>
    simp only [TableCommit.transact, commitTableChanges] at transacts
    split at transacts
    · cases transacts
    · exact Option.some.inj transacts ▸ rfl
  | dropped seen now sequence drops
  | replaced seen now sequence recoveryId drops tables => exact Option.some.inj transacts ▸ rfl
  | inlineRows now metadata prepared =>
    obtain ⟨staged, _, rfl⟩ := Option.map_eq_some_iff.mp transacts
    rfl

/-- A transaction adds its snapshot; the order it is committed at is then the last one. -/
theorem TableCommit.transact_recorded (commit : TableCommit) (transacts : commit.transact store = some next) :
    next.recorded =
        FdbStore.recorded { store with kv := stageSnapshot store.kv (commit.snapshot store.commitOrder) } ∧
      next.lastOrder = store.commitOrder := by
  refine ⟨(transact_related (relatesStages_recorded store.commitOrder) transacts).trans ?_, transact_lastOrder transacts⟩
  unfold opened
  cases commit.recoveryId with
  | none => rfl
  | some recoveryId => rfl

end DucklakeCatalog.Fdb
