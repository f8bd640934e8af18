import DucklakeCatalog.Attempt.ColumnForest

/-! The tables a commit attempt puts together: which lists of facts leave every
table with a forest of columns. -/
namespace DucklakeCatalog

open KeyedStore

variable {table : TableRow} {change : TableRow → CatalogResult TableRow} {columns : List TableColumnRow}
  {columnId : ColumnId}

namespace TableIntentAssembler

/-- Changed tables are the base's, and none of them is a created one. -/
structure Sound (assembler : TableIntentAssembler) : Prop where
  based : ∀ tableId table, assembler.tables.get? tableId = some table →
    loadTableAt assembler.kv tableId assembler.baseOrder = some table.previous
  apart : ∀ tableId table, assembler.tables.get? tableId = some table → assembler.createdTables.get? tableId = none

/-- A fact changes the row of one id. -/
structure ChangesRow (before after : TableIntentAssembler) (tableId : TableId) (changed : TableRow) : Prop where
  kv : after.kv = before.kv
  baseOrder : after.baseOrder = before.baseOrder
  row : after.row tableId = .ok changed
  others : ∀ other, other ≠ tableId → after.row other = before.row other
  sound : before.Sound → after.Sound

variable {assembler next : TableIntentAssembler} {tableId : TableId}

theorem new_sound (kv : CatalogKv) (baseOrder : CatalogOrderId) : (new kv baseOrder).Sound where
  based := by simp [new]
  apart := by simp [new]

theorem new_row {kv : CatalogKv} {baseOrder : CatalogOrderId} :
    (new kv baseOrder).row tableId = .ok table ↔ loadTableAt kv tableId baseOrder = some table := by
  simp only [row, existing, new, OrderedMap.get?_empty]
  cases loadTableAt kv tableId baseOrder with
  | none
  | some found => simp [Except.map]

theorem existing_previous (sound : assembler.Sound) {table : TableIntentTable}
    (found : assembler.existing tableId = .ok table) :
    loadTableAt assembler.kv tableId assembler.baseOrder = some table.previous := by
  unfold existing at found
  split at found
  · rename_i known isKnown
    obtain rfl := Except.ok.inj found
    exact sound.based tableId known isKnown
  · split at found
    · cases found
    · rename_i loaded isLoaded
      obtain rfl := Except.ok.inj found
      exact isLoaded

theorem created_changesRow (table : TableRow) :
    ChangesRow assembler { assembler with createdTables := assembler.createdTables.insert tableId table } tableId
      table ↔ (assembler.Sound → assembler.tables.get? tableId = none) := by
  constructor
  · intro changes sound
    cases known : assembler.tables.get? tableId with
    | none => rfl
    | some intent =>
      have apart := (changes.sound sound).apart tableId intent known
      rw [OrderedMap.get?_insert_self] at apart
      cases apart
  · intro missing
    refine ⟨rfl, rfl, ?_, ?_, ?_⟩
    · simp only [row, OrderedMap.get?_insert_self]
    · intro other different
      simp only [row, existing, OrderedMap.get?_insert_ne _ _ different]
    · intro sound
      refine ⟨sound.based, ?_⟩
      intro other intent known
      by_cases same : other = tableId
      · rw [same, missing sound] at known
        cases known
      · exact (OrderedMap.get?_insert_ne _ _ same).trans (sound.apart other intent known)

theorem tableMut_row (changes : assembler.tableMut tableId change = .ok next) :
    ∃ table changed, assembler.row tableId = .ok table ∧ change table = .ok changed ∧
      ChangesRow assembler next tableId changed := by
  unfold tableMut at changes
  split at changes
  · rename_i table isCreated
    obtain ⟨changed, accepted, rfl⟩ := map_eq_ok.mp changes
    refine ⟨table, changed, by simp only [row, isCreated], accepted, (created_changesRow changed).mpr ?_⟩
    intro sound
    cases known : assembler.tables.get? tableId with
    | none => rfl
    | some intent => simp [sound.apart tableId intent known] at isCreated
  · rename_i notCreated
    simp only [bind_eq_ok, pure_eq_ok] at changes
    obtain ⟨table, found, changed, accepted, rfl⟩ := changes
    refine ⟨table.next, changed, by simp only [row, notCreated, found, Except.map], accepted, rfl, rfl, ?_, ?_, ?_⟩
    · simp only [row, existing, notCreated, OrderedMap.get?_insert_self, Except.map]
    · intro other different
      simp only [row, existing, OrderedMap.get?_insert_ne _ _ different]
    · intro sound
      constructor
      · intro other intent known
        by_cases same : other = tableId
        · subst same
          obtain rfl := Option.some.inj ((OrderedMap.get?_insert_self _ _ _).symm.trans known)
          exact (existing_previous sound found :)
        · exact sound.based other intent ((OrderedMap.get?_insert_ne _ _ same).symm.trans known)
      · intro other intent known
        by_cases same : other = tableId
        · exact same ▸ notCreated
        · exact sound.apart other intent ((OrderedMap.get?_insert_ne _ _ same).symm.trans known)

theorem applyCreateTableFact_row (creates : assembler.applyCreateTableFact table = .ok next) :
    ChangesRow assembler next table.tableId
      { table with tableId := assembler.persistedTableIdForCreate table.tableId } := by
  unfold applyCreateTableFact at creates
  split at creates
  · cases creates
  · rename_i notYet
    obtain rfl := Except.ok.inj creates
    refine (created_changesRow _).mpr fun _ => ?_
    rw [not_or, Option.not_isSome_iff_eq_none, Option.not_isSome_iff_eq_none] at notYet
    exact notYet.2

/-! ## Forests -/

/-- Every row a fact can find has a forest of columns. -/
def Linked (assembler : TableIntentAssembler) : Prop :=
  ∀ tableId table, assembler.row tableId = .ok table → LinkedColumns table.columns

theorem ChangesRow.linked {changed : TableRow} (changes : ChangesRow assembler next tableId changed)
    (linked : assembler.Linked) : next.Linked ↔ LinkedColumns changed.columns := by
  constructor
  · intro stillLinked
    exact stillLinked tableId changed changes.row
  · intro changedLinked other table found
    by_cases same : other = tableId
    · rw [same, changes.row] at found
      exact Except.ok.inj found ▸ changedLinked
    · exact linked other table ((changes.others other same).symm.trans found)

end TableIntentAssembler

/-- The fact leaves a forest of columns where it finds one: a created table brings one, an added
column has a parent and takes no parent's place, and a dropped column is no other column's parent. -/
def TableFact.KeepsForest (assembler : TableIntentAssembler) : TableFact → Prop
  | .createTable table => LinkedColumns table.columns
  | .addColumn tableId column => ∀ table, assembler.row tableId = .ok table → AddsLinked table.columns column
  | .dropColumn tableId columnId => ∀ table, assembler.row tableId = .ok table →
    ∀ child ∈ table.columns, child.parentId = some columnId → child.columnId = columnId
  | _ => True

/-- Each fact keeps the forest of the row it finds, one after another. -/
def KeepForest (assembler : TableIntentAssembler) : List TableFact → Prop
  | [] => True
  | fact :: rest => fact.KeepsForest assembler ∧ ∀ next, assembler.apply fact = .ok next → KeepForest next rest

namespace TableIntentAssembler

variable {assembler next : TableIntentAssembler} {fact : TableFact} {facts : List TableFact}

/-- A change of one row keeps the forests just when it keeps that row's. -/
theorem tableMut_linked {tableId : TableId} (Keeps : TableRow → Prop)
    (linked : assembler.Linked) (changes : assembler.tableMut tableId change = .ok next)
    (decides : ∀ table changed, LinkedColumns table.columns → change table = .ok changed →
      (LinkedColumns changed.columns ↔ Keeps table)) :
    next.Linked ↔ ∀ table, assembler.row tableId = .ok table → Keeps table := by
  obtain ⟨table, changed, found, accepted, changesRow⟩ := tableMut_row changes
  rw [changesRow.linked linked, decides table changed (linked tableId table found) accepted]
  constructor
  · intro keeps other isRow
    exact Except.ok.inj (found.symm.trans isRow) ▸ keeps
  · intro keeps
    exact keeps table found

/-- A change of the columns that always keeps a forest. -/
theorem changeColumns_linked {tableId : TableId} (change : List TableColumnRow → CatalogResult (List TableColumnRow))
    (linked : assembler.Linked)
    (changes : assembler.tableMut tableId (fun table => table.changeColumns (change table.columns)) = .ok next)
    (keeps : ∀ columns changed, LinkedColumns columns → change columns = .ok changed → LinkedColumns changed) :
    next.Linked := by
  refine (tableMut_linked (fun _ => True) linked changes ?_).mpr fun _ _ => trivial
  intro table changed columns accepted
  obtain ⟨changedColumns, taken, rfl⟩ := map_eq_ok.mp accepted
  exact ⟨fun _ => trivial, fun _ => keeps table.columns changedColumns columns taken⟩

/-- A change of anything but the columns. -/
theorem sameColumns_linked {tableId : TableId} {change : TableRow → TableRow} (linked : assembler.Linked)
    (changes : assembler.tableMut tableId (fun table => .ok (change table)) = .ok next)
    (same : ∀ table, (change table).columns = table.columns) : next.Linked := by
  refine (tableMut_linked (fun _ => True) linked changes ?_).mpr fun _ _ => trivial
  intro table changed columns accepted
  obtain rfl := Except.ok.inj accepted
  exact ⟨fun _ => trivial, fun _ => same table ▸ columns⟩

theorem apply_linked (linked : assembler.Linked) (applies : assembler.apply fact = .ok next) :
    next.Linked ↔ fact.KeepsForest assembler := by
  cases fact with
  | createTable table => exact (applyCreateTableFact_row applies).linked linked
  | addColumn tableId column =>
    refine tableMut_linked _ linked applies ?_
    intro table changed columns accepted
    obtain rfl := Except.ok.inj accepted
    exact addColumn_linked columns
  | dropColumn tableId columnId =>
    refine tableMut_linked _ linked applies ?_
    intro table changed columns accepted
    obtain ⟨dropped, drops, rfl⟩ := map_eq_ok.mp accepted
    exact dropColumnFact_linked columns drops
  | renameTable tableId newName => exact ⟨fun _ => trivial, fun _ => sameColumns_linked linked applies fun _ => rfl⟩
  | changeTableComment tableId comment =>
    exact ⟨fun _ => trivial, fun _ => sameColumns_linked linked applies fun _ => rfl⟩
  | changeSortKeys tableId sort => exact ⟨fun _ => trivial, fun _ => sameColumns_linked linked applies fun _ => rfl⟩
  | changePartitionKeys tableId partition =>
    exact ⟨fun _ => trivial, fun _ => sameColumns_linked linked applies fun _ => rfl⟩
  | renameColumn tableId column =>
    refine ⟨fun _ => trivial, fun _ => changeColumns_linked (renameColumnFact tableId · column) linked applies ?_⟩
    intro columns changed isLinked renames
    exact renameColumnFact_linked isLinked renames
  | changeColumnDefault tableId column =>
    refine ⟨fun _ => trivial, fun _ => changeColumns_linked (changeColumnDefaultFact tableId · column) linked applies ?_⟩
    intro columns changed isLinked changes
    exact changeColumnDefaultFact_linked isLinked changes
  | changeColumnType tableId column =>
    refine ⟨fun _ => trivial, fun _ => changeColumns_linked (changeColumnTypeFact tableId · column) linked applies ?_⟩
    intro columns changed isLinked changes
    exact changeColumnTypeFact_linked isLinked changes
  | changeColumnComment tableId columnId comment =>
    refine ⟨fun _ => trivial, fun _ => changeColumns_linked (changeColumnCommentFact · columnId comment) linked applies ?_⟩
    intro columns changed isLinked changes
    exact changeColumnCommentFact_linked isLinked changes

theorem apply_changesRow (applies : assembler.apply fact = .ok next) :
    ∃ tableId changed, ChangesRow assembler next tableId changed := by
  cases fact with
  | createTable table => exact ⟨_, _, applyCreateTableFact_row applies⟩
  | _ =>
    obtain ⟨_, changed, _, _, changes⟩ := tableMut_row applies
    exact ⟨_, changed, changes⟩

/-- Along a list of facts that all keep their forests every row keeps one, and the base stays the same. -/
theorem foldlM_apply_linked (linked : assembler.Linked) (sound : assembler.Sound)
    (applied : facts.foldlM apply assembler = .ok next) (keep : KeepForest assembler facts) :
    next.Linked ∧ next.Sound ∧ next.kv = assembler.kv ∧ next.baseOrder = assembler.baseOrder := by
  induction facts generalizing assembler with
  | nil =>
    obtain rfl := Except.ok.inj applied
    exact ⟨linked, sound, rfl, rfl⟩
  | cons fact rest ih =>
    rw [List.foldlM_cons, bind_eq_ok] at applied
    obtain ⟨middle, first, others⟩ := applied
    obtain ⟨_, _, changes⟩ := apply_changesRow first
    obtain ⟨finished, stillSound, sameKv, sameOrder⟩ :=
      ih ((apply_linked linked first).mpr keep.1) (changes.sound sound) others (keep.2 middle first)
    exact ⟨finished, stillSound, sameKv.trans changes.kv, sameOrder.trans changes.baseOrder⟩

/-- A list keeps the forests when its last fact still does. -/
theorem keepForest_append (applied : facts.foldlM apply assembler = .ok next) :
    KeepForest assembler (facts ++ [fact]) ↔ KeepForest assembler facts ∧ fact.KeepsForest next := by
  induction facts generalizing assembler with
  | nil =>
    obtain rfl := Except.ok.inj applied
    exact ⟨fun keep => ⟨trivial, keep.1⟩, fun keep => ⟨keep.2, fun _ _ => trivial⟩⟩
  | cons first rest ih =>
    rw [List.foldlM_cons, bind_eq_ok] at applied
    obtain ⟨middle, applies, others⟩ := applied
    constructor
    · rintro ⟨keepsFirst, keepRest⟩
      obtain ⟨keep, last⟩ := (ih others).mp (keepRest middle applies)
      refine ⟨⟨keepsFirst, ?_⟩, last⟩
      intro other isNext
      exact Except.ok.inj (applies.symm.trans isNext) ▸ keep
    · rintro ⟨⟨keepsFirst, keepRest⟩, last⟩
      refine ⟨keepsFirst, ?_⟩
      intro other isNext
      obtain rfl := Except.ok.inj (applies.symm.trans isNext)
      exact (ih others).mpr ⟨keepRest middle applies, last⟩

end TableIntentAssembler

/-! ## The committed tables -/

def TableCommitParts.tables (parts : TableCommitParts) : List TableRow :=
  parts.createdRows ++ parts.replacements.map TableVersionReplacement.next

/-- A lower case that does not look at the case of ASCII letters. -/
def IgnoresAsciiCase (toLowercase : String → String) : Prop :=
  ∀ left right, left.toLower = right.toLower → toLowercase left = toLowercase right

/-- Siblings apart under any such lower case are apart for ASCII letters. -/
theorem rejectDuplicateColumnNames_names {toLowercase : String → String} (ignores : IgnoresAsciiCase toLowercase)
    {tableId : TableId} (accepted : rejectDuplicateColumnNames toLowercase table tableId = .ok ()) :
    (table.columns.map fun column => (column.parentId, column.name.toLower)).Nodup := by
  have apart := rejectRepeated_nodup accepted
  simp only [List.Nodup, List.pairwise_map] at apart ⊢
  refine apart.imp ?_
  intro left right different same
  obtain ⟨sameParent, sameName⟩ := Prod.mk.injEq .. ▸ same
  exact different (Prod.ext sameParent (ignores _ _ sameName))

namespace TableIntentAssembler

variable {assembler : TableIntentAssembler} {toLowercase : String → String} {parts : TableCommitParts}

theorem mem_changedTables {entry : TableId × TableIntentTable} :
    entry ∈ assembler.changedTables ↔
      assembler.tables.get? entry.1 = some entry.2 ∧ entry.2.previous ≠ entry.2.next := by
  rw [changedTables, List.mem_filter, OrderedMap.get?_eq_some_iff, decide_eq_true_eq]

structure Finished (toLowercase : String → String) (assembler : TableIntentAssembler) (parts : TableCommitParts) : Prop where
  names : (assembler.finishedTables.map fun table => (table.schemaId, table.name.toLower)).Nodup
  replaced : parts.replacements =
    assembler.changedTables.map fun entry => ⟨entry.1, entry.2.previous, entry.2.next⟩
  changed : ∀ tableId table, assembler.tables.get? tableId = some table → table.previous ≠ table.next →
    table.next ∈ parts.tables ∧ rejectDuplicateColumnNames toLowercase table.next tableId = .ok ()
  created : ∀ tableId table, assembler.createdTables.get? tableId = some table →
    table ∈ parts.tables ∧ rejectDuplicateColumnNames toLowercase table table.tableId = .ok ()
  source : ∀ table ∈ parts.tables,
    (∃ tableId intent, assembler.tables.get? tableId = some intent ∧ intent.previous ≠ intent.next ∧
      table = intent.next) ∨ ∃ tableId, assembler.createdTables.get? tableId = some table

theorem rejectDuplicateTableNames_nodup (accepted : assembler.rejectDuplicateTableNames = .ok ()) :
    (assembler.finishedTables.map fun table => (table.schemaId, table.name.toLower)).Nodup := by
  unfold rejectDuplicateTableNames at accepted
  exact rejectRepeated_nodup accepted

theorem intoCommitParts_finished (accepted : assembler.intoCommitParts toLowercase = .ok parts) :
    Finished toLowercase assembler parts := by
  unfold intoCommitParts at accepted
  simp only [bind_eq_ok, pure_eq_ok] at accepted
  obtain ⟨_, tableNames, _, changedNames, _, createdNames, rfl⟩ := accepted
  rw [forM_eq_ok_iff] at changedNames createdNames
  refine ⟨rejectDuplicateTableNames_nodup tableNames, rfl, ?_, ?_, ?_⟩
  · intro tableId table known different
    have listed : (tableId, table) ∈ assembler.changedTables := mem_changedTables.mpr ⟨known, different⟩
    refine ⟨?_, changedNames (tableId, table) listed⟩
    simp only [TableCommitParts.tables, List.mem_append, List.map_map]
    exact Or.inr (List.mem_map.mpr ⟨(tableId, table), listed, rfl⟩)
  · intro tableId table known
    have listed := (OrderedMap.get?_eq_some_iff _).mp known
    refine ⟨?_, createdNames (tableId, table) listed⟩
    simp only [TableCommitParts.tables, List.mem_append, createdRows]
    exact Or.inl (List.mem_map.mpr ⟨(tableId, table), listed, rfl⟩)
  · intro table member
    simp only [TableCommitParts.tables, List.mem_append, List.map_map, createdRows] at member
    rcases member with isCreated | isReplaced
    · obtain ⟨entry, listed, rfl⟩ := List.mem_map.mp isCreated
      exact Or.inr ⟨entry.1, (OrderedMap.get?_eq_some_iff _).mpr listed⟩
    · obtain ⟨entry, listed, rfl⟩ := List.mem_map.mp isReplaced
      obtain ⟨stored, different⟩ := mem_changedTables.mp listed
      exact Or.inl ⟨entry.1, entry.2, stored, different, rfl⟩

/-- The committed tables are the rows that differ from the base's. -/
theorem Finished.wellFormed_iff (finished : Finished toLowercase assembler parts) (sound : assembler.Sound)
    (ignores : IgnoresAsciiCase toLowercase)
    (base : ∀ tableId table, loadTableAt assembler.kv tableId assembler.baseOrder = some table →
      WellFormedColumns table.columns) :
    (∀ table ∈ parts.tables, WellFormedColumns table.columns) ↔ assembler.Linked := by
  constructor
  · intro wellFormed tableId table found
    unfold row at found
    split at found
    · rename_i created isCreated
      obtain rfl := Except.ok.inj found
      exact (wellFormed created (finished.created tableId created isCreated).1).toLinkedColumns
    · obtain ⟨intent, isKnown, rfl⟩ := map_eq_ok.mp found
      by_cases same : intent.previous = intent.next
      · exact (base tableId intent.next (same ▸ existing_previous sound isKnown)).toLinkedColumns
      · unfold existing at isKnown
        split at isKnown
        · rename_i known stored
          obtain rfl := Except.ok.inj isKnown
          exact (wellFormed known.next (finished.changed tableId known stored same).1).toLinkedColumns
        · split at isKnown
          · cases isKnown
          · obtain rfl := Except.ok.inj isKnown
            exact absurd rfl same
  · intro linked table member
    rcases finished.source table member with ⟨tableId, intent, stored, different, rfl⟩ | ⟨tableId, stored⟩
    · have isRow : assembler.row tableId = .ok intent.next := by
        simp only [row, existing, sound.apart tableId intent stored, stored, Except.map]
      exact ⟨linked tableId intent.next isRow,
        rejectDuplicateColumnNames_names ignores (finished.changed tableId intent stored different).2⟩
    · have isRow : assembler.row tableId = .ok table := by simp only [row, stored]
      exact ⟨linked tableId table isRow,
        rejectDuplicateColumnNames_names ignores (finished.created tableId table stored).2⟩

end TableIntentAssembler

/-! ## Dropping one column -/

/-- The versions that dropping columns outside of an attempt commits. -/
def columnDropVersion (kv : CatalogKv) (drops : List ColumnDrop) :
    CatalogResult (PreparedReplacements (List DroppedColumn)) :=
  prepareColumnVersion kv (rejectColumnDropBatchShape drops) fun tableId columns =>
    drops.foldlM (dropColumn tableId) (columns, [])

/-- An attempt that only drops a column of a current table replaces what dropping it alone replaces. -/
def SameAsColumnDrop (kv : CatalogKv) (baseOrder : CatalogOrderId) (facts : List TableFact) (parts : TableCommitParts) :
    Prop :=
  ∀ tableId columnId prepared, facts = [.dropColumn tableId columnId] →
    kv.currentTableRow.get? tableId = loadTableAt kv tableId baseOrder →
    columnDropVersion kv [⟨tableId, columnId⟩] = .ok prepared → parts.replacements = prepared.replacements

/-- A column that is at most its own parent goes alone. -/
theorem columnAndDescendantIds_childless
    (childless : ∀ child ∈ columns, child.parentId = some columnId → child.columnId = columnId) :
    columnAndDescendantIds columns columnId = [columnId] := by
  have pass : withChildColumns columns [columnId] = [columnId] := by
    unfold withChildColumns
    induction columns with
    | nil => rfl
    | cons child rest ih =>
      have notAdded : ¬((child.parentId.any fun parentId => parentId ∈ [columnId]) ∧ child.columnId ∉ [columnId]) := by
        rintro ⟨isChild, fresh⟩
        obtain ⟨parentId, hasParent, isRoot⟩ := (Option.any_eq_true _ _).mp isChild
        rw [decide_eq_true_eq, List.mem_singleton] at isRoot
        exact fresh (List.mem_singleton.mpr (childless child List.mem_cons_self (isRoot ▸ hasParent)))
      rw [List.foldl_cons, if_neg notAdded]
      exact ih fun other later => childless other (List.mem_cons_of_mem _ later)
  unfold columnAndDescendantIds
  rw [closeUnderChildren, pass, if_pos rfl]

/-- Without children, both ways of dropping a column leave the same columns. -/
theorem dropColumn_same {tableId : TableId} {dropped kept : List TableColumnRow}
    {record : List DroppedColumn} (linked : LinkedColumns columns)
    (childless : ∀ child ∈ columns, child.parentId = some columnId → child.columnId = columnId)
    (drops : dropColumnFact columns columnId = .ok dropped)
    (alone : dropColumn tableId (columns, []) ⟨tableId, columnId⟩ = .ok (kept, record)) : dropped = kept := by
  unfold dropColumn at alone
  split at alone
  · dsimp only at alone
    rw [columnAndDescendantIds_childless childless] at alone
    obtain ⟨rfl, _⟩ := Prod.mk.inj (Except.ok.inj alone)
    obtain ⟨before, existing, after, rfl, rfl, rfl⟩ := dropColumnFact_split drops
    have apart := linked.id_apart
    have others : ∀ column ∈ before ++ after, column.columnId ∉ [existing.columnId] := by
      intro column member same
      exact apart (List.mem_map.mpr ⟨column, member, List.mem_singleton.mp same⟩)
    have keptAll := List.filter_eq_self.mpr fun column member => decide_eq_true (others column member)
    rw [List.filter_append, List.filter_cons_of_neg (by simp), ← List.filter_append]
    exact keptAll.symm
  · cases alone

namespace TableIntentAssembler

variable {kv : CatalogKv} {baseOrder : CatalogOrderId}

/-- What a list with one drop leaves to commit. -/
theorem dropColumn_changedTables {tableId : TableId} {assembler : TableIntentAssembler}
    (applies : (new kv baseOrder).apply (.dropColumn tableId columnId) = .ok assembler) :
    ∃ table dropped, loadTableAt kv tableId baseOrder = some table ∧
      dropColumnFact table.columns columnId = .ok dropped ∧
      assembler.changedTables = [(tableId, ⟨table, { table with columns := dropped }⟩)] := by
  simp only [apply, tableMut, new, OrderedMap.get?_empty, bind_eq_ok, pure_eq_ok] at applies
  obtain ⟨intent, found, changed, accepted, rfl⟩ := applies
  simp only [existing, OrderedMap.get?_empty] at found
  split at found
  · cases found
  · rename_i table loaded
    obtain rfl := Except.ok.inj found
    obtain ⟨dropped, drops, rfl⟩ := map_eq_ok.mp accepted
    refine ⟨table, dropped, loaded, drops, ?_⟩
    have different : table ≠ { table with columns := dropped } := by
      intro same
      obtain ⟨before, removed, after, split, _, rfl⟩ := dropColumnFact_split drops
      have lengths := congrArg (fun table : TableRow => table.columns.length) same
      have split : table.columns = before ++ removed :: after := split
      simp only [split, List.length_append, List.length_cons] at lengths
      omega
    exact List.filter_cons_of_pos (decide_eq_true different)

end TableIntentAssembler

variable {toLowercase : String → String} {kv : CatalogKv} {baseOrder : CatalogOrderId} {facts : List TableFact}
  {assembler : TableIntentAssembler} {parts : TableCommitParts}

theorem sameAsColumnDrop_of_keepForest (linked : (TableIntentAssembler.new kv baseOrder).Linked)
    (assembled : facts.foldlM TableIntentAssembler.apply (.new kv baseOrder) = .ok assembler)
    (finished : assembler.Finished toLowercase parts) (keep : KeepForest (.new kv baseOrder) facts) :
    SameAsColumnDrop kv baseOrder facts parts := by
  rintro tableId columnId prepared rfl sameRow drops
  rw [List.foldlM_cons, bind_eq_ok] at assembled
  obtain ⟨_, applies, rest⟩ := assembled
  obtain rfl := Except.ok.inj rest
  obtain ⟨table, dropped, loaded, dropsFact, changed⟩ := TableIntentAssembler.dropColumn_changedTables applies
  have isRow := TableIntentAssembler.new_row.mpr loaded
  unfold columnDropVersion prepareColumnVersion at drops
  simp only [bind_eq_ok, pure_eq_ok] at drops
  obtain ⟨shape, shaped, _, _, previous, current, ⟨kept, record⟩, alone, rfl⟩ := drops
  have batch : rejectColumnDropBatchShape [⟨tableId, columnId⟩] = .ok tableId := by
    simp [rejectColumnDropBatchShape, columnBatchTableId, bind, Except.bind, pure, Except.pure]
  obtain rfl := Except.ok.inj (batch.symm.trans shaped)
  rw [loadCurrentTableRow, sameRow, loaded] at current
  obtain rfl := Except.ok.inj current
  rw [List.foldlM_cons, bind_eq_ok] at alone
  obtain ⟨_, alone, rest⟩ := alone
  obtain rfl := Except.ok.inj rest
  rw [finished.replaced, changed, dropColumn_same (linked tableId table isRow) (keep.1 table isRow) dropsFact alone]
  rfl

/-- Base tables in a forest, facts of which each but possibly the last keeps one: the committed tables
are well formed, and a single dropped column is dropped as it is outside of attempts, just when the last fact
keeps its forest too. -/
theorem assembledTables_wellFormed (ignores : IgnoresAsciiCase toLowercase)
    (base : ∀ tableId table, loadTableAt kv tableId baseOrder = some table → WellFormedColumns table.columns)
    (assembled : facts.foldlM TableIntentAssembler.apply (.new kv baseOrder) = .ok assembler)
    (accepted : assembler.intoCommitParts toLowercase = .ok parts)
    (keep : KeepForest (.new kv baseOrder) facts.dropLast) :
    (((∀ table ∈ parts.tables, WellFormedColumns table.columns) ∧ SameAsColumnDrop kv baseOrder facts parts) ↔
      KeepForest (.new kv baseOrder) facts) ∧
    (assembler.finishedTables.map fun table => (table.schemaId, table.name.toLower)).Nodup := by
  have finished := TableIntentAssembler.intoCommitParts_finished accepted
  have linked : (TableIntentAssembler.new kv baseOrder).Linked := fun tableId table found =>
    (base tableId table (TableIntentAssembler.new_row.mp found)).toLinkedColumns
  have sound := TableIntentAssembler.new_sound kv baseOrder
  refine ⟨⟨?_, ?_⟩, finished.names⟩
  · rintro ⟨wellFormed, _⟩
    rcases facts.eq_nil_or_concat with rfl | ⟨earlier, last, rfl⟩
    · trivial
    · rw [List.concat_eq_append] at assembled keep ⊢
      rw [List.dropLast_concat] at keep
      rw [List.foldlM_append, bind_eq_ok] at assembled
      obtain ⟨middle, before, applies⟩ := assembled
      rw [List.foldlM_cons, bind_eq_ok] at applies
      obtain ⟨_, applies, rest⟩ := applies
      obtain rfl := Except.ok.inj rest
      obtain ⟨middleLinked, middleSound, sameKv, sameOrder⟩ :=
        TableIntentAssembler.foldlM_apply_linked linked sound before keep
      obtain ⟨_, _, changes⟩ := TableIntentAssembler.apply_changesRow applies
      refine (TableIntentAssembler.keepForest_append before).mpr ⟨keep, ?_⟩
      refine (TableIntentAssembler.apply_linked middleLinked applies).mp ?_
      refine (finished.wellFormed_iff (changes.sound middleSound) ignores ?_).mp wellFormed
      rw [changes.kv, changes.baseOrder, sameKv, sameOrder]
      exact base
  · intro keepAll
    obtain ⟨finalLinked, finalSound, sameKv, sameOrder⟩ :=
      TableIntentAssembler.foldlM_apply_linked linked sound assembled keepAll
    refine ⟨(finished.wellFormed_iff finalSound ignores ?_).mpr finalLinked,
      sameAsColumnDrop_of_keepForest linked assembled finished keepAll⟩
    rw [sameKv, sameOrder]
    exact base

theorem loadTableAt_columns {tableId : TableId} {snapshotOrder : CatalogOrderId}
    (found : loadTableAt kv tableId snapshotOrder = some table) :
    table.columns ∈ kv.tableObject.entries.map fun entry => entry.2.columns := by
  unfold loadTableAt at found
  split at found
  · cases found
  · rename_i key row last
    dsimp only at found
    split at found
    · obtain rfl := Option.some.inj found
      exact List.mem_map.mpr ⟨(key, row), (List.mem_filter.mp (List.mem_of_getLast? last)).1, rfl⟩
    · cases found

/-! A table with a struct column, and attempts on it. -/

def structRow : TableRow := {
  tableId := 1, name := "events", validity := ⟨autoOrder, none⟩
  columns := [{ columnId := 1, name := "point", columnType := "struct", nullsAllowed := true },
    { columnId := 2, name := "x", columnType := "int32", nullsAllowed := true, parentId := some 1 }] }

def structKv : CatalogKv := (commitCreateTableRow {} 0 structRow).2

theorem structKv_wellFormed (tableId : TableId) (table : TableRow)
    (found : loadTableAt structKv tableId 1 = some table) : WellFormedColumns table.columns := by
  have stored : structKv.tableObject.entries.map (fun entry => entry.2.columns) = [structRow.columns] := by
    decide +kernel
  have listed := loadTableAt_columns found
  rw [stored] at listed
  rw [List.mem_singleton.mp listed]
  refine ⟨⟨by decide, ?_⟩, by decide +kernel⟩
  intro column member parentId hasParent
  rcases List.mem_cons.mp member with rfl | later
  · cases hasParent
  · rw [List.mem_singleton.mp later] at hasParent
    obtain rfl := Option.some.inj hasParent
    decide

theorem toLower_ignoresAsciiCase : IgnoresAsciiCase String.toLower := fun _ _ same => same

def newField : TableColumnRow :=
  { columnId := 3, name := "y", columnType := "int32", nullsAllowed := true, parentId := some 1 }

/-- A second field of the struct takes the place of the first. -/
def fieldFacts : List TableFact := [.addColumn 1 newField, .dropColumn 1 2]

def fieldAssembler : TableIntentAssembler :=
  (fieldFacts.foldlM TableIntentAssembler.apply (.new structKv 1)).toOption.getD (.new {} 0)

def fieldParts : TableCommitParts := (fieldAssembler.intoCommitParts String.toLower).toOption.getD ⟨[], [], []⟩

theorem fieldFacts_keepForest : KeepForest (.new structKv 1) fieldFacts := by
  constructor
  · intro table found
    have columns : ((TableIntentAssembler.new structKv 1).row 1).map TableRow.columns = .ok structRow.columns := by
      decide +kernel
    rw [found] at columns
    rw [Except.ok.inj columns]
    constructor
    · intro parentId hasParent
      obtain rfl := Option.some.inj hasParent
      exact Or.inr (by decide)
    · intro _ sibling isFound
      have missing : structRow.columns.find? (isSibling newField) = none := by decide +kernel
      rw [missing] at isFound
      cases isFound
  · intro next applies
    refine ⟨?_, fun _ _ => trivial⟩
    intro table found child member hasParent
    have columns : (((TableIntentAssembler.new structKv 1).apply (.addColumn 1 newField)).bind fun next =>
        (next.row 1).map TableRow.columns) = .ok (structRow.columns ++ [newField]) := by
      decide +kernel
    rw [applies, Except.bind, found] at columns
    rw [Except.ok.inj columns] at member
    have parents : ∀ child ∈ structRow.columns ++ [newField], child.parentId ≠ some 2 := by decide
    exact absurd hasParent (parents child member)

theorem assembledTables_wellFormed_fields :
    (∀ table ∈ fieldParts.tables, WellFormedColumns table.columns) ∧
      SameAsColumnDrop structKv 1 fieldFacts fieldParts := by
  have assembled := eq_ok_getD (.new {} 0) (by decide +kernel :
    (fieldFacts.foldlM TableIntentAssembler.apply (.new structKv 1)).toOption.isSome)
  have accepted := eq_ok_getD ⟨[], [], []⟩ (by decide +kernel :
    (fieldAssembler.intoCommitParts String.toLower).toOption.isSome)
  have keep := fieldFacts_keepForest
  exact (assembledTables_wellFormed toLower_ignoresAsciiCase structKv_wellFormed assembled accepted
    ⟨keep.1, fun _ _ => trivial⟩).1.mpr keep

/-- Dropping the struct column in an attempt leaves its field without a parent. -/
theorem assembledTables_drop_struct : ¬∀ (toLowercase : String → String) (kv : CatalogKv) (baseOrder : CatalogOrderId)
    (facts : List TableFact) (assembler : TableIntentAssembler) (parts : TableCommitParts),
    IgnoresAsciiCase toLowercase →
    (∀ tableId table, loadTableAt kv tableId baseOrder = some table → WellFormedColumns table.columns) →
    facts.foldlM TableIntentAssembler.apply (.new kv baseOrder) = .ok assembler →
    assembler.intoCommitParts toLowercase = .ok parts →
    (∀ table ∈ parts.tables, WellFormedColumns table.columns) ∧ SameAsColumnDrop kv baseOrder facts parts := by
  intro claimed
  let assembler := ((TableIntentAssembler.new structKv 1).apply (.dropColumn 1 1)).toOption.getD (.new {} 0)
  let parts := (assembler.intoCommitParts String.toLower).toOption.getD ⟨[], [], []⟩
  have assembled : [TableFact.dropColumn 1 1].foldlM TableIntentAssembler.apply (.new structKv 1) = .ok assembler := by
    rfl
  have accepted : assembler.intoCommitParts String.toLower = .ok parts := by decide +kernel
  have wellFormed := (claimed String.toLower structKv 1 _ assembler parts toLower_ignoresAsciiCase
    structKv_wellFormed assembled accepted).1
  have orphan : parts.tables.map TableRow.columns =
      [[{ columnId := 2, name := "x", columnType := "int32", nullsAllowed := true, parentId := some 1 }]] := by
    decide +kernel
  obtain ⟨table, member, columns⟩ := List.mem_map.mp (orphan.symm ▸ List.mem_singleton_self _)
  have listed := (wellFormed table member).parents _ (columns ▸ List.mem_singleton_self _) 1 rfl
  rw [columns] at listed
  exact absurd listed (by decide)

end DucklakeCatalog
