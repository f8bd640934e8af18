import DucklakeCatalog.KeyedStore.UniqueNames
import DucklakeCatalog.Run.TableListings
import DucklakeCatalog.Table.UniqueColumns
import Mathlib.Data.List.Pairwise

/-! Names under table commits: no two current tables of a schema share one, and no two
sibling columns of a table. -/
namespace DucklakeCatalog

open KeyedStore

/-- The schema of a table and its name, whatever the case of the letters. -/
def TableRow.qualifiedName (table : TableRow) : SchemaId × String := (table.schemaId, table.name.toLower)

structure UniquelyNamed (kv : CatalogKv) : Prop where
  tables : KeyedStore.UniqueNames TableRow.qualifiedName kv.currentTableRow
  columns : ∀ tableId table, kv.currentTableRow.get? tableId = some table → UniqueColumns table.columns

/-! ## Commits -/

inductive NamingOperation where
  | createTable (now : Int) (table : TableRow)
  | appendColumns (now : Int) (tableId : TableId) (columns : List TableColumnRow)
  | renameTables (now : Int) (renames : List TableRename)
  | renameColumns (now : Int) (renames : List ColumnChange)
  | dropColumns (now : Int) (drops : List ColumnDrop)
  | changeColumnTypes (now : Int) (changes : List ColumnChange)
  deriving DecidableEq, Repr

namespace NamingOperation

def apply (kv : CatalogKv) : NamingOperation → CatalogResult Unit × CatalogKv
  | createTable now table => dropResult (commitCreateTableRow kv now table)
  | appendColumns now tableId columns => dropResult (commitAppendTableColumns kv now tableId columns)
  | renameTables now renames => dropResult (commitRenameTables kv now renames)
  | renameColumns now renames => dropResult (commitRenameTableColumns kv now renames)
  | dropColumns now drops => dropResult (commitDropTableColumns kv now drops)
  | changeColumnTypes now changes => dropResult (commitChangeTableColumnTypes kv now changes)

/-- A table starts with columns of distinct ids and sibling names. -/
def StartsUnique : NamingOperation → Prop
  | createTable _ table => UniqueColumns table.columns
  | _ => True

end NamingOperation

/-- A catalog without tables, with its first snapshot or before it. -/
structure EmptyCatalog (kv : CatalogKv) : Prop where
  current : kv.currentTableRow = .empty
  versions : ∀ tableId, kv.tableMaps.NoVersions tableId
  past : ∀ latest, latestSnapshot kv = some latest → latest.order ≤ kv.nextOrder

/-- States reached by accepted commits. -/
inductive NamingRun : CatalogKv → Prop
  | empty (empty : EmptyCatalog kv) : NamingRun kv
  | accepted (earlier : NamingRun kv) (operation : NamingOperation) (starts : operation.StartsUnique)
      (accepts : (operation.apply kv).1 = .ok ()) : NamingRun (operation.apply kv).2

/-! ## Replaced tables -/

/-- The rows that the replacements make current. -/
def replacedBy (order : CatalogOrderId) (replacements : List TableVersionReplacement) (tableId : TableId) :
    Option TableRow :=
  (replacements.find? fun replacement => replacement.tableId = tableId).map fun replacement =>
    { replacement.next with validity := ⟨order, none⟩ }

variable {replacements : List TableVersionReplacement} {tableId : TableId}

theorem replacedBy_eq_some {order : CatalogOrderId}
    {row : TableRow} (replaced : replacedBy order replacements tableId = some row) :
    ∃ replacement ∈ replacements, replacement.tableId = tableId ∧
      row = { replacement.next with validity := ⟨order, none⟩ } := by
  obtain ⟨replacement, found, rfl⟩ := Option.map_eq_some_iff.mp replaced
  exact ⟨replacement, List.mem_of_find?_eq_some found, by simpa using List.find?_some found, rfl⟩

theorem replacedBy_eq_none {order : CatalogOrderId} (stays : replacedBy order replacements tableId = none) :
    ∀ replacement ∈ replacements, replacement.tableId ≠ tableId := by
  intro replacement member
  simpa using List.find?_eq_none.mp (Option.map_eq_none_iff.mp stays) replacement member

/-- Replacements that leave the names unique. -/
structure FreshReplacements (kv : CatalogKv) (replacements : List TableVersionReplacement) : Prop where
  names : ∀ order, FreshNames TableRow.qualifiedName kv.currentTableRow (replacedBy order replacements)
  columns : ∀ replacement ∈ replacements, UniqueColumns replacement.next.columns

section

variable {kv : CatalogKv}

theorem UniquelyNamed.commitTableReplacements (unique : UniquelyNamed kv) (now : Int) (sequence : RawSnapshotSequence)
    (distinct : (replacements.map TableVersionReplacement.tableId).Nodup)
    (fresh : FreshReplacements kv replacements) :
    UniquelyNamed (DucklakeCatalog.commitTableReplacements kv now sequence replacements).2 := by
  rw [DucklakeCatalog.commitTableReplacements]
  split_ifs with nothing
  · exact unique
  · let stored (replacement : TableVersionReplacement) : TableRow :=
      { replacement.next with validity := ⟨kv.generatedOrderId, none⟩ }
    let insert (map : OrderedMap TableId TableRow) (replacement : TableVersionReplacement) :=
      map.insert replacement.tableId (stored replacement)
    have becomes (tableId : TableId) :
        (((kv.withGeneratedOrder.commit (replacements.foldl (stageTableReplacement kv kv.generatedOrderId)
          (stageSnapshot {} (SnapshotRow.new kv.generatedOrderId (sequence + 1) now)))).currentTableRow).get? tableId) =
          (replacedBy kv.generatedOrderId replacements tableId).or (kv.currentTableRow.get? tableId) := by
      have maps := congrArg TableMaps.current (@commit_foldl_stageTableReplacement kv kv.generatedOrderId replacements
        (stageSnapshot {} (SnapshotRow.new kv.generatedOrderId (sequence + 1) now)))
      have inserts : ∀ (maps : TableMaps) (replacement : TableVersionReplacement),
          insert maps.current replacement = (maps.replace kv.generatedOrderId replacement).current := fun _ _ => rfl
      rw [← List.foldl_hom TableMaps.current inserts] at maps
      exact (congrArg (fun map => map.get? tableId) maps).trans
        (get?_foldl_insert_distinct TableVersionReplacement.tableId stored distinct _ tableId)
    constructor
    · exact unique.tables.change (fresh.names kv.generatedOrderId) becomes
    · intro tableId table found
      have stored := (becomes tableId).symm.trans found
      rcases Option.or_eq_some_iff.mp stored with replaced | ⟨_, kept⟩
      · obtain ⟨replacement, member, _, rfl⟩ := replacedBy_eq_some replaced
        exact fresh.columns replacement member
      · exact unique.columns tableId table kept

/-- One replacement that keeps the schema and the name. -/
theorem FreshReplacements.single {previous next : TableRow} (unique : UniquelyNamed kv)
    (isCurrent : kv.currentTableRow.get? tableId = some previous) (same : next.qualifiedName = previous.qualifiedName)
    (columns : UniqueColumns next.columns) : FreshReplacements kv [⟨tableId, previous, next⟩] where
  names order := by
    let stored : TableRow := { next with validity := ⟨order, none⟩ }
    have keeps : FreshNames TableRow.qualifiedName kv.currentTableRow
        fun query => if query = tableId then some stored else none := unique.tables.fresh_keep isCurrent same
    have becomes : replacedBy order [⟨tableId, previous, next⟩] =
        fun query => if query = tableId then some { next with validity := ⟨order, none⟩ } else none := by
      funext query
      by_cases this : query = tableId
      · simp [replacedBy, this]
      · simp [replacedBy, this, Ne.symm this]
    rwa [becomes]
  columns replacement member := by
    rw [List.mem_singleton.mp member]
    exact columns

theorem appendTableColumns_fresh (unique : UniquelyNamed kv) {columns : List TableColumnRow}
    {accepted : PreparedReplacements Unit} (prepares : prepareAppendTableColumns kv tableId columns = .ok accepted) :
    FreshReplacements kv accepted.replacements := by
  simp only [prepareAppendTableColumns, bind_eq_ok, pure_eq_ok] at prepares
  obtain ⟨latest, _, previous, loads, _, distinct, rfl⟩ := prepares
  have isCurrent := loadCurrentTableRow_ok loads
  exact .single unique isCurrent rfl (rejectDuplicateColumns_unique (unique.columns tableId previous isCurrent) distinct)

/-- A batch of column changes that keep the columns unique one by one. -/
theorem columnVersion_fresh {α ι : Type} (unique : UniquelyNamed kv) {shape : CatalogResult TableId}
    {change : TableId → List TableColumnRow × List α → ι → CatalogResult (List TableColumnRow × List α)}
    (keeps : ∀ tableId state item next, UniqueColumns state.1 → change tableId state item = .ok next →
      UniqueColumns next.1)
    {items : List ι} {accepted : PreparedReplacements (List α)}
    (prepares : prepareColumnVersion kv shape (fun tableId columns => items.foldlM (change tableId) (columns, [])) =
      .ok accepted) : FreshReplacements kv accepted.replacements := by
  simp only [prepareColumnVersion, bind_eq_ok, pure_eq_ok] at prepares
  obtain ⟨tableId, _, latest, _, previous, loads, ⟨nextColumns, result⟩, folds, rfl⟩ := prepares
  have isCurrent := loadCurrentTableRow_ok loads
  refine .single unique isCurrent rfl ?_
  exact foldlM_invariant (fun state => UniqueColumns state.1) folds (unique.columns tableId previous isCurrent)
    fun state item next _ soFar taken => keeps tableId state item next soFar taken

/-! ## Renamed tables -/

/-- Tables that were renamed so far, with names of their own. -/
structure RenamedApart (currentTables : List TableRow) (all : List TableRename) (renamed : List RenamedTable) :
    Prop where
  apart : renamed.Pairwise fun left right => left.renamed.qualifiedName ≠ right.renamed.qualifiedName
  free : ∀ table ∈ renamed, ∀ other ∈ currentTables, (∀ rename ∈ all, rename.tableId ≠ other.tableId) →
    other.qualifiedName ≠ table.renamed.qualifiedName
  columns : ∀ table ∈ renamed, table.renamed.columns = table.previous.columns

theorem renameTable_apart {currentTables : List TableRow} {all : List TableRename} {renamed next : List RenamedTable}
    {rename : TableRename} (apart : RenamedApart currentTables all renamed) (listed : rename ∈ all)
    (taken : renameTable currentTables all renamed rename = .ok next) : RenamedApart currentTables all next := by
  rw [renameTable] at taken
  split at taken
  · cases taken
  · rename_i previous found
    simp only [bind_eq_ok, pure_eq_ok] at taken
    obtain ⟨_, free, rfl⟩ := taken
    have named : previous.tableId = rename.tableId := by simpa using List.find?_some found
    rw [rejectTableNameConflict] at free
    split_ifs at free with conflicts
    rw [Bool.or_eq_true, not_or] at conflicts
    refine ⟨?_, ?_, ?_⟩
    · refine List.pairwise_append.mpr ⟨apart.apart, List.pairwise_singleton _ _, ?_⟩
      intro earlier member new isNew same
      rw [List.mem_singleton.mp isNew] at same
      obtain ⟨schema, name⟩ := Prod.mk.inj same
      exact conflicts.2 (List.any_eq_true.mpr ⟨earlier, member, by simp [schema, name]⟩)
    · intro table member other current untouched same
      rcases List.mem_append.mp member with earlier | new
      · exact apart.free table earlier other current untouched same
      · rw [List.mem_singleton.mp new] at same
        obtain ⟨schema, name⟩ := Prod.mk.inj same
        have different : other.tableId ≠ previous.tableId := fun equal =>
          untouched rename listed (named.symm.trans equal.symm)
        refine conflicts.1 (List.any_eq_true.mpr ⟨other, current, ?_⟩)
        simpa [schema, name, different] using untouched
    · intro table member
      rcases List.mem_append.mp member with earlier | new
      · exact apart.columns table earlier
      · rw [List.mem_singleton.mp new]

theorem renameTables_fresh (sound : TablesSound kv) (unique : UniquelyNamed kv) {renames : List TableRename}
    {accepted : PreparedReplacements (List RenamedTable)} (prepares : prepareRenameTables kv renames = .ok accepted) :
    FreshReplacements kv accepted.replacements := by
  simp only [prepareRenameTables, bind_eq_ok, pure_eq_ok] at prepares
  obtain ⟨_, _, latest, loads, renamed, folds, rfl⟩ := prepares
  obtain ⟨ids, sources⟩ := foldlM_renameTable folds
  have apart : RenamedApart (listTablesAt kv latest.order) renames renamed :=
    foldlM_invariant (RenamedApart (listTablesAt kv latest.order) renames) folds
      ⟨List.Pairwise.nil, by simp, by simp⟩ fun state item next listed soFar taken => renameTable_apart soFar listed taken
  have source {table : RenamedTable} (member : table ∈ renamed) :=
    sound.current_of_listed loads (sources table member (by simp)).1
  have separate : ∀ left ∈ renamed, ∀ right ∈ renamed, left ≠ right →
      left.renamed.qualifiedName ≠ right.renamed.qualifiedName := by
    have symmetric : Std.Symm fun left right : RenamedTable =>
        left.renamed.qualifiedName ≠ right.renamed.qualifiedName := ⟨fun _ _ => Ne.symm⟩
    intro left leftMember right rightMember
    exact apart.apart.forall leftMember rightMember
  refine ⟨fun order => ⟨?_, ?_⟩, ?_⟩
  · intro left right leftRow rightRow isLeft isRight same
    obtain ⟨_, leftMember, rfl, rfl⟩ := replacedBy_eq_some isLeft
    obtain ⟨_, rightMember, rfl, rfl⟩ := replacedBy_eq_some isRight
    obtain ⟨leftTable, leftListed, rfl⟩ := List.mem_map.mp leftMember
    obtain ⟨rightTable, rightListed, rfl⟩ := List.mem_map.mp rightMember
    by_cases equal : leftTable = rightTable
    · rw [equal]
    · exact absurd same (separate leftTable leftListed rightTable rightListed equal)
  · intro tableId row other stays isNew isOld found same
    obtain ⟨_, member, rfl, rfl⟩ := replacedBy_eq_some isNew
    obtain ⟨table, listed, rfl⟩ := List.mem_map.mp member
    obtain ⟨current, isLatest, _, versions⟩ := sound
    obtain rfl : current = latest := Option.some.inj (isLatest.symm.trans (loadLatestSnapshot_ok loads))
    obtain ⟨isListed, named⟩ := listed_of_current isLatest versions found
    refine apart.free table listed stays isListed ?_ same
    intro rename inBatch equal
    have batchId : rename.tableId ∈ renamed.map fun table => table.previous.tableId := by
      rw [ids]
      exact List.mem_append_right _ (List.mem_map_of_mem inBatch)
    obtain ⟨sibling, siblingListed, siblingId⟩ := List.mem_map.mp batchId
    exact replacedBy_eq_none isOld _ (List.mem_map_of_mem siblingListed) (siblingId.trans (equal.trans named))
  · intro replacement member
    obtain ⟨table, listed, rfl⟩ := List.mem_map.mp member
    change UniqueColumns table.renamed.columns
    rw [apart.columns table listed]
    exact unique.columns _ _ (source listed)

/-! ## Created tables -/

/-- A new table with a name of its own. -/
theorem UniquelyNamed.create {now : Int} {table created : TableRow} {batch : KvBatch} (unique : UniquelyNamed kv)
    (columns : UniqueColumns table.columns)
    (free : ∀ tableId row, kv.currentTableRow.get? tableId = some row → row.qualifiedName ≠ table.qualifiedName)
    (staged : stageCreateTableRow kv now table kv.generatedOrderId = .ok (created, batch)) :
    UniquelyNamed (kv.withGeneratedOrder.commit batch) := by
  obtain ⟨_, rfl⟩ := stageCreateTableRow_ok staged
  let stored : TableRow := { table with validity := ⟨kv.generatedOrderId, none⟩ }
  have fresh : FreshNames TableRow.qualifiedName kv.currentTableRow
      fun query => if query = table.tableId then some stored else none :=
    freshNames_single fun other stays _ found => free other stays found
  have becomes (tableId : TableId) : (kv.currentTableRow.insert table.tableId stored).get? tableId =
      (if tableId = table.tableId then some stored else none).or (kv.currentTableRow.get? tableId) := by
    rw [OrderedMap.get?_insert]
    split_ifs <;> rfl
  constructor
  · exact unique.tables.change fresh becomes
  · intro tableId row found
    have inserted := (becomes tableId).symm.trans found
    split_ifs at inserted with same
    · obtain rfl := Option.some.inj inserted
      exact columns
    · exact unique.columns tableId row inserted

/-! ## Runs -/

namespace EmptyCatalog

theorem uniquelyNamed (empty : EmptyCatalog kv) : UniquelyNamed kv where
  tables := by
    rw [empty.current]
    exact .empty
  columns tableId table found := by
    rw [empty.current] at found
    simp at found

theorem sound (empty : EmptyCatalog kv) {latest : SnapshotRow} (isLatest : latestSnapshot kv = some latest) :
    TablesSound kv :=
  ⟨latest, isLatest, empty.past latest isLatest, fun tableId => (empty.versions tableId).sound⟩

end EmptyCatalog

/-- A catalog that has tables has sound ones, or has none yet. -/
def Ready (kv : CatalogKv) : Prop := TablesSound kv ∨ EmptyCatalog kv

theorem Ready.sound (ready : Ready kv) {latest : SnapshotRow} (isLatest : latestSnapshot kv = some latest) :
    TablesSound kv := by
  rcases ready with sound | empty
  · exact sound
  · exact empty.sound isLatest

theorem Ready.generated (ready : Ready kv) : Ready kv.withGeneratedOrder := by
  rcases ready with sound | empty
  · exact Or.inl sound.generated
  · exact Or.inr ⟨empty.current, empty.versions, fun latest isLatest => Nat.le_succ_of_le (empty.past latest isLatest)⟩

/-- What a run keeps. -/
structure NamesKept (kv : CatalogKv) : Prop where
  ready : Ready kv
  unique : UniquelyNamed kv

namespace NamesKept

theorem generated (kept : NamesKept kv) : NamesKept kv.withGeneratedOrder :=
  ⟨kept.ready.generated, ⟨kept.unique.tables, kept.unique.columns⟩⟩

theorem commitPrepared {α : Type} (kept : NamesKept kv) (now : Int) {prepared : CatalogResult (PreparedReplacements α)}
    (replaces : ∀ accepted, prepared = .ok accepted → (∃ latest, latestSnapshot kv = some latest) ∧
      (TablesSound kv → ReplacesCurrent kv accepted.replacements ∧ FreshReplacements kv accepted.replacements)) :
    NamesKept (DucklakeCatalog.commitPrepared kv now prepared).2 := by
  cases prepared with
  | error failure => exact kept
  | ok accepted =>
    obtain ⟨⟨latest, isLatest⟩, replaces⟩ := replaces accepted rfl
    have sound := kept.ready.sound isLatest
    obtain ⟨current, fresh⟩ := replaces sound
    exact ⟨Or.inl (sound.commitTableReplacements now accepted.previousSequence current),
      kept.unique.commitTableReplacements now accepted.previousSequence current.distinct fresh⟩

theorem createTable (kept : NamesKept kv) (now : Int) {table : TableRow} (columns : UniqueColumns table.columns) :
    NamesKept (commitCreateTableRow kv now table).2 := by
  rw [commitCreateTableRow]
  split
  · exact kept
  · rename_i valid
    rcases commitWith_cases kv (stageCreateTableRow kv now table) with ⟨_, same⟩ | ⟨created, batch, staged, same⟩
    · rw [same]
      exact kept.generated
    · rw [same]
      cases latest : latestSnapshot kv with
      | some snapshot =>
        have sound := kept.ready.sound latest
        obtain ⟨current, isLatest, _, versions⟩ := id sound
        refine ⟨Or.inl (sound.commit (.createTable valid staged)), kept.unique.create columns ?_ staged⟩
        intro tableId row found equal
        exact (validateCreateTable_apart isLatest versions valid found).2 (Prod.mk.inj equal)
      | none =>
        have empty : EmptyCatalog kv := by
          rcases kept.ready with ⟨snapshot, isLatest, _⟩ | empty
          · rw [latest] at isLatest
            cases isLatest
          · exact empty
        have absent (tableId : TableId) : kv.currentTableRow.get? tableId = none := by rw [empty.current]; rfl
        have versions (tableId : TableId) : (kv.commit batch).tableMaps.SoundFor kv.generatedOrderId tableId :=
          (stageCreateTableRow_tableStep (absent _) staged tableId).sound
            (empty.versions tableId).sound (Nat.succ_pos kv.nextOrder)
        have snapshots : batch.latestSnapshotRow = ({} : Staged Unit SnapshotRow).put ()
            (snapshotRowForNextSequence (latestSnapshot kv) kv.generatedOrderId now) := by
          simp only [stageCreateTableRow, Except.ok.injEq, Prod.mk.injEq] at staged
          rw [← staged.2]
          rfl
        refine ⟨Or.inl (TablesSound.committed snapshots ?_ versions), kept.unique.create columns ?_ staged⟩
        · rw [latest]
          rfl
        · intro tableId row found
          rw [absent] at found
          cases found

theorem appendColumns (kept : NamesKept kv) (now : Int) (tableId : TableId) (columns : List TableColumnRow) :
    NamesKept (commitAppendTableColumns kv now tableId columns).2 := by
  have committed := @NamesKept.commitPrepared kv _ kept now (prepareAppendTableColumns kv tableId columns) <| by
    intro accepted prepares
    refine ⟨?_, fun sound => ⟨sound.appendTableColumns_replaces prepares, appendTableColumns_fresh kept.unique prepares⟩⟩
    simp only [prepareAppendTableColumns, bind_eq_ok] at prepares
    obtain ⟨latest, loads, _⟩ := prepares
    exact ⟨latest, loadLatestSnapshot_ok loads⟩
  rw [commitAppendTableColumns]
  split_ifs
  · exact kept
  · split
    · rename_i failed
      rwa [failed] at committed
    · rename_i succeeded
      rwa [succeeded] at committed

theorem renameTables (kept : NamesKept kv) (now : Int) (renames : List TableRename) :
    NamesKept (commitRenameTables kv now renames).2 := by
  rw [commitRenameTables]
  split_ifs
  · exact kept
  · refine kept.commitPrepared now ?_
    intro accepted prepares
    refine ⟨?_, fun sound => ⟨sound.renameTables_replaces prepares, renameTables_fresh sound kept.unique prepares⟩⟩
    simp only [prepareRenameTables, bind_eq_ok] at prepares
    obtain ⟨_, _, latest, loads, _⟩ := prepares
    exact ⟨latest, loadLatestSnapshot_ok loads⟩

/-- The three kinds of column batches. -/
theorem columnVersion {α ι : Type} (kept : NamesKept kv) (now : Int) {shape : CatalogResult TableId}
    {change : TableId → List TableColumnRow × List α → ι → CatalogResult (List TableColumnRow × List α)}
    (keeps : ∀ tableId state item next, UniqueColumns state.1 → change tableId state item = .ok next →
      UniqueColumns next.1) (items : List ι) :
    NamesKept (DucklakeCatalog.commitPrepared kv now
      (prepareColumnVersion kv shape fun tableId columns => items.foldlM (change tableId) (columns, []))).2 := by
  refine kept.commitPrepared now ?_
  intro accepted prepares
  refine ⟨?_, fun sound => ⟨sound.columnVersion_replaces prepares, columnVersion_fresh kept.unique keeps prepares⟩⟩
  simp only [prepareColumnVersion, bind_eq_ok] at prepares
  obtain ⟨_, _, latest, loads, _⟩ := prepares
  exact ⟨latest, loadLatestSnapshot_ok loads⟩

theorem apply (kept : NamesKept kv) {operation : NamingOperation} (starts : operation.StartsUnique) :
    NamesKept (operation.apply kv).2 := by
  cases operation with
  | createTable now table => exact kept.createTable now starts
  | appendColumns now tableId columns => exact kept.appendColumns now tableId columns
  | renameTables now renames => exact kept.renameTables now renames
  | renameColumns now renames =>
    simp only [NamingOperation.apply, dropResult, commitRenameTableColumns]
    split_ifs
    · exact kept
    · exact kept.columnVersion now (fun _ _ _ _ unique taken => renameColumn_unique unique taken) renames
  | dropColumns now drops =>
    simp only [NamingOperation.apply, dropResult, commitDropTableColumns]
    split_ifs
    · exact kept
    · exact kept.columnVersion now (fun _ _ _ _ unique taken => dropColumn_unique unique taken) drops
  | changeColumnTypes now changes =>
    simp only [NamingOperation.apply, dropResult, commitChangeTableColumnTypes]
    split_ifs
    · exact kept
    · exact kept.columnVersion now (fun _ _ _ _ unique taken => changeColumnType_unique unique taken) changes

end NamesKept

end

/-- In every state that accepted commits reach from a catalog without tables, names are unique:
those of current tables in their schema, ids and sibling names of columns in their table. -/
theorem uniquelyNamed_of_run {kv : CatalogKv} (run : NamingRun kv) : UniquelyNamed kv := by
  have kept : NamesKept kv := by
    induction run with
    | empty empty => exact ⟨Or.inr empty, empty.uniquelyNamed⟩
    | accepted _ operation starts _ ih => exact ih.apply starts
  exact kept.unique

/-! ## A swap of names -/

def namedTable (tableId : TableId) (name : String) : TableRow :=
  { tableId, name, validity := ⟨autoOrder, none⟩ }

theorem emptyCatalog_start : EmptyCatalog {} :=
  ⟨rfl, fun _ => ⟨fun _ => rfl, fun _ => rfl, rfl⟩, fun _ isLatest => by cases isLatest⟩

/-- Two tables that exchange their names. -/
def exchangedNames : CatalogKv :=
  ((NamingOperation.renameTables 0 [⟨1, "Returns"⟩, ⟨2, "orders"⟩]).apply
    ((NamingOperation.createTable 0 (namedTable 2 "returns")).apply
      ((NamingOperation.createTable 0 (namedTable 1 "orders")).apply {}).2).2).2

theorem exchangedNames_run : NamingRun exchangedNames := by
  have none : UniqueColumns [] := ⟨List.nodup_nil, List.nodup_nil⟩
  have first := NamingRun.accepted (.empty emptyCatalog_start) (.createTable 0 (namedTable 1 "orders")) none rfl
  have second := NamingRun.accepted first (.createTable 0 (namedTable 2 "returns")) none (by decide +kernel)
  exact .accepted second (.renameTables 0 [⟨1, "Returns"⟩, ⟨2, "orders"⟩]) trivial (by decide +kernel)

theorem uniquelyNamed_of_run_exchangedNames :
    UniquelyNamed exchangedNames ∧
      (listCurrentTableRows exchangedNames).map TableRow.name = ["Returns", "orders"] :=
  ⟨uniquelyNamed_of_run exchangedNames_run, by decide +kernel⟩

end DucklakeCatalog
