import DucklakeCatalog.Table.Commits

/-! Which changes of the columns of a table keep their ids and their names apart. -/
namespace DucklakeCatalog

open KeyedStore

/-- What a column may not share with another one of its table: its parent together with its
name, whatever the case of the letters. -/
def TableColumnRow.siblingName (column : TableColumnRow) : Option ColumnId × String :=
  (column.parentId, column.name.toLower)

structure UniqueColumns (columns : List TableColumnRow) : Prop where
  ids : (columns.map TableColumnRow.columnId).Nodup
  siblings : (columns.map TableColumnRow.siblingName).Nodup

namespace UniqueColumns

variable {columns : List TableColumnRow}

theorem sublist {fewer : List TableColumnRow} (unique : UniqueColumns columns) (sublist : fewer.Sublist columns) :
    UniqueColumns fewer where
  ids := unique.ids.sublist (sublist.map _)
  siblings := unique.siblings.sublist (sublist.map _)

end UniqueColumns

/-! ## Appended columns -/

/-- Accepted columns repeat neither an id nor a name, their own or one that was known. -/
theorem rejectDuplicateColumns_unique {table : TableRow} {columns : List TableColumnRow}
    (unique : UniqueColumns table.columns) (accepted : rejectDuplicateColumns table columns = .ok ()) :
    UniqueColumns (table.columns ++ columns) := by
  simp only [rejectDuplicateColumns, bind_eq_ok, pure, Except.pure, and_true] at accepted
  obtain ⟨⟨columnIds, columnNames⟩, folds⟩ := accepted
  -- the fold collects the ids and the names in front of the known ones
  suffices collected : ∀ (rest : List TableColumnRow) (ids : List ColumnId) (names : List (Option ColumnId × String))
      (finish : List ColumnId × List (Option ColumnId × String)),
      rest.foldlM (fun seen column =>
        if column.columnId ∈ seen.1 then
          .error (.invalidMutation s!"column id {column.columnId} already exists on table {table.tableId}")
        else if (column.parentId, column.name.toLower) ∈ seen.2 then
          .error (.invalidMutation s!"column {column.name} already exists on table {table.tableId}")
        else
          .ok (column.columnId :: seen.1, (column.parentId, column.name.toLower) :: seen.2))
        (ids, names) = (.ok finish : CatalogResult _) →
      ids.Nodup → names.Nodup →
        (ids ++ rest.map TableColumnRow.columnId).Nodup ∧ (names ++ rest.map TableColumnRow.siblingName).Nodup by
    obtain ⟨ids, siblings⟩ := collected columns _ _ _ folds unique.ids unique.siblings
    exact ⟨by rwa [List.map_append], by rw [List.map_append]; exact siblings⟩
  intro rest
  induction rest with
  | nil =>
    intro ids names finish _ distinctIds distinctNames
    simpa using ⟨distinctIds, distinctNames⟩
  | cons column rest ih =>
    intro ids names finish folds distinctIds distinctNames
    rw [List.foldlM_cons, bind_eq_ok] at folds
    obtain ⟨⟨nextIds, nextNames⟩, taken, folds⟩ := folds
    simp only at taken
    split_ifs at taken with knownId knownName
    obtain ⟨rfl, rfl⟩ := Prod.mk.inj (Except.ok.inj taken)
    obtain ⟨restIds, restNames⟩ := ih _ _ _ folds (List.nodup_cons.mpr ⟨knownId, distinctIds⟩)
      (List.nodup_cons.mpr ⟨knownName, distinctNames⟩)
    constructor
    · exact (List.perm_middle.nodup_iff).mpr restIds
    · exact (List.perm_middle.nodup_iff).mpr restNames

/-! ## Columns changed in their place -/

variable {columnId : ColumnId} {tableId : TableId} {state next : List TableColumnRow × List ChangedColumn}

/-- The first column with the id is changed in its place. -/
theorem updateColumn_split {columns : List TableColumnRow}
    (listed : columnId ∈ columns.map TableColumnRow.columnId) (update : TableColumnRow → TableColumnRow) :
    ∃ before existing after, columns = before ++ existing :: after ∧ existing.columnId = columnId ∧
      columns.find? (fun column => column.columnId = columnId) = some existing ∧
        updateColumn columnId update columns = before ++ update existing :: after := by
  induction columns with
  | nil => simp at listed
  | cons first rest ih =>
    by_cases same : first.columnId = columnId
    · exact ⟨[], first, rest, rfl, same, by simp [same], by simp [updateColumn, same]⟩
    · have later : columnId ∈ rest.map TableColumnRow.columnId := by
        rcases List.mem_cons.mp listed with isFirst | later
        · exact absurd isFirst.symm same
        · exact later
      obtain ⟨before, existing, after, rfl, named, found, changed⟩ := ih later
      exact ⟨first :: before, existing, after, rfl, named, by simpa [List.find?_cons, same] using found,
        by simp [updateColumn, same, changed]⟩

/-- A column that is found by its id keeps it, and takes a name that no other column has. -/
theorem UniqueColumns.update {columns : List TableColumnRow} {existing column : TableColumnRow}
    (unique : UniqueColumns columns) (found : columns.find? (fun column => column.columnId = columnId) = some existing)
    (sameId : column.columnId = existing.columnId)
    (free : ∀ other ∈ columns, other.columnId ≠ existing.columnId → other.siblingName ≠ column.siblingName) :
    UniqueColumns (updateColumn columnId (fun _ => column) columns) := by
  have named : existing.columnId = columnId := by simpa using List.find?_some found
  have listed : columnId ∈ columns.map TableColumnRow.columnId :=
    List.mem_map.mpr ⟨existing, List.mem_of_find?_eq_some found, named⟩
  obtain ⟨before, first, after, split, _, isFirst, changed⟩ := updateColumn_split listed fun _ => column
  obtain rfl : first = existing := Option.some.inj (isFirst.symm.trans found)
  have ids := unique.ids
  have siblings := unique.siblings
  rw [split, List.map_append, List.map_cons] at ids siblings
  have apart := (List.nodup_middle.mp ids)
  rw [← List.map_append] at apart
  have others {other : TableColumnRow} (member : other ∈ before ++ after) : other.columnId ≠ first.columnId :=
    fun same => (List.nodup_cons.mp apart).1 (List.mem_map.mpr ⟨other, member, same⟩)
  rw [changed]
  constructor
  · rw [List.map_append, List.map_cons, sameId]
    exact ids
  · rw [List.map_append, List.map_cons]
    refine List.nodup_middle.mpr (List.nodup_cons.mpr ⟨?_, (List.nodup_cons.mp (List.nodup_middle.mp siblings)).2⟩)
    rw [← List.map_append]
    intro taken
    obtain ⟨other, member, same⟩ := List.mem_map.mp taken
    have inColumns : other ∈ columns := by
      rw [split]
      rcases List.mem_append.mp member with earlier | later
      · exact List.mem_append_left _ earlier
      · exact List.mem_append_right _ (List.mem_cons_of_mem _ later)
    exact free other inColumns (others member) same

theorem renameColumn_unique
    {rename : ColumnChange} (unique : UniqueColumns state.1) (taken : renameColumn tableId state rename = .ok next) :
    UniqueColumns next.1 := by
  rw [renameColumn] at taken
  split at taken
  · cases taken
  · rename_i existing found
    simp only [bind_eq_ok, pure_eq_ok] at taken
    obtain ⟨_, _, _, free, rfl⟩ := taken
    refine unique.update found rfl ?_
    intro other member different same
    rw [rejectColumnNameConflict] at free
    split_ifs at free with conflicts
    refine conflicts (List.any_eq_true.mpr ⟨other, member, ?_⟩)
    obtain ⟨parent, name⟩ := Prod.mk.inj same
    simp [parent, name, different]

/-- A change of type keeps the parent and the name. -/
theorem changeColumnType_unique
    {change : ColumnChange} (unique : UniqueColumns state.1) (taken : changeColumnType tableId state change = .ok next) :
    UniqueColumns next.1 := by
  rw [changeColumnType] at taken
  split at taken
  · cases taken
  · rename_i existing found
    simp only [bind_eq_ok, pure_eq_ok] at taken
    obtain ⟨_, _, _, _, rfl⟩ := taken
    refine unique.update found rfl ?_
    intro other member different same
    have kept : (typeChangeReplacement existing change.column).siblingName = existing.siblingName := rfl
    have injective := List.inj_on_of_nodup_map unique.siblings
    have equal := injective member (List.mem_of_find?_eq_some found) (same.trans kept)
    exact different (congrArg TableColumnRow.columnId equal)

theorem dropColumn_unique {state next : List TableColumnRow × List DroppedColumn}
    {drop : ColumnDrop} (unique : UniqueColumns state.1) (taken : dropColumn tableId state drop = .ok next) :
    UniqueColumns next.1 := by
  rw [dropColumn] at taken
  split_ifs at taken
  obtain rfl := Except.ok.inj taken
  exact unique.sublist List.filter_sublist

end DucklakeCatalog
