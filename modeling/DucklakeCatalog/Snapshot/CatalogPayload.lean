import DucklakeCatalog.Attempt.SchemasAndViews
import DucklakeCatalog.Table.ColumnOrder

/-! The payload that hands a whole snapshot of the catalog to a client, as lines of fields. -/
namespace DucklakeCatalog.CatalogPayload

structure MacroParameterRow where
  parameterName : String
  parameterType : String
  defaultValue : String
  defaultValueType : String
  deriving DecidableEq, Repr

structure MacroImplementationRow where
  dialect : String
  sql : String
  macroType : String
  parameters : List MacroParameterRow
  deriving DecidableEq, Repr

structure MacroRow where
  macroId : Nat
  schemaId : SchemaId
  name : String
  implementations : List MacroImplementationRow
  validity : ValidityWindow
  deriving DecidableEq, Repr

structure CatalogSnapshotReadContext where
  schemas : List Fdb.SchemaRow := []
  tables : List TableRow := []
  views : List Fdb.ViewRow := []
  macros : List MacroRow := []
  deriving DecidableEq, Repr

/-- The fields of a line; tabs stand between them. -/
abbrev Line := List String

def duckdbTypeName (typeName : String) : String :=
  if typeName = "float32" then "float" else if typeName = "float64" then "double" else typeName

/-- A column as its line. -/
def columnLine (tableId : TableId) (column : TableColumnRow) : Line :=
  ["column", toString tableId, toString column.columnId, column.name, column.columnType, toString column.nullsAllowed,
    (column.parentId.map toString).getD "", column.comment.getD "", column.initialDefault.getD "",
    column.defaultValue.getD "NULL", column.defaultValueType]

def schemaLine (schema : Fdb.SchemaRow) : Line :=
  ["schema", toString schema.schemaId, schema.uuid, schema.name, schema.path,
    (schema.parentSchemaId.map toString).getD ""]

def partitionLines (tableId : TableId) (partition : TablePartitionRow) : List Line :=
  partition.fields.map fun field =>
    ["partition", toString tableId, toString partition.partitionId, toString field.partitionKeyIndex,
      toString field.columnId, field.transform]

def sortLines (tableId : TableId) (sort : TableSortRow) : List Line :=
  sort.fields.map fun field =>
    ["sort", toString tableId, toString sort.sortId, toString field.sortKeyIndex, field.expression, field.dialect,
      field.sortDirection, field.nullOrder]

def tableLines (table : TableRow) : List Line :=
  [["table", toString table.tableId, toString table.schemaId, table.uuid, table.name, table.path,
    table.comment.getD ""]] ++
  (columnsParentBeforeChildren table.columns).map (columnLine table.tableId) ++
  table.inlinedDataTables.map (fun inlined =>
    ["inlined_table", toString table.tableId, inlined.tableName, toString inlined.schemaVersion]) ++
  (table.partition.map (partitionLines table.tableId)).getD [] ++
  (table.sort.map (sortLines table.tableId)).getD []

def viewLine (view : Fdb.ViewRow) : Line :=
  ["view", toString view.viewId, toString view.schemaId, view.uuid, view.name, view.dialect, view.sql,
    String.intercalate (String.singleton (Char.ofNat 31)) view.columnAliases, view.comment.getD ""]

def macroParameterLine (macroId implId : Nat) (parameter : MacroParameterRow × Nat) : Line :=
  ["macro_param", toString macroId, toString implId, toString parameter.2, parameter.1.parameterName,
    duckdbTypeName parameter.1.parameterType, parameter.1.defaultValue, duckdbTypeName parameter.1.defaultValueType]

def macroLines (macroRow : MacroRow) : List Line :=
  ["macro", toString macroRow.macroId, toString macroRow.schemaId, macroRow.name] ::
    macroRow.implementations.zipIdx.flatMap fun (implementation, implId) =>
      ["macro_impl", toString macroRow.macroId, toString implId, implementation.dialect, implementation.sql,
        implementation.macroType] ::
        implementation.parameters.zipIdx.map (macroParameterLine macroRow.macroId implId)

def renderCatalogSnapshotPayload (context : CatalogSnapshotReadContext) : List Line :=
  [["schema_count=" ++ toString context.schemas.length]] ++ context.schemas.map schemaLine ++
  [["table_count=" ++ toString context.tables.length]] ++ context.tables.flatMap tableLines ++
  [["view_count=" ++ toString context.views.length]] ++ context.views.map viewLine ++
  [["macro_count=" ++ toString context.macros.length]] ++ context.macros.flatMap macroLines

/-! ## Reading line by line -/

/-- Whoever reads a column line has read the line of its parent. -/
def ParentsFirst (lines : List Line) : Prop :=
  ∀ before tableId columnId name columnType nullsAllowed parentId rest,
    before ++ ["column" :: tableId :: columnId :: name :: columnType :: nullsAllowed :: parentId :: rest] <+: lines →
    parentId ≠ "" → ∃ line ∈ before, ∃ described, line = "column" :: tableId :: parentId :: described

def NoColumns (lines : List Line) : Prop := ∀ line ∈ lines, line.head? ≠ some "column"

theorem NoColumns.parentsFirst {lines : List Line} (noColumns : NoColumns lines) : ParentsFirst lines := by
  intro before _ _ _ _ _ _ _ placed
  exact absurd rfl (noColumns _ (placed.subset (List.mem_append_right _ List.mem_cons_self)))

theorem concat_prefix_append {α : Type} {before first second : List α} {last : α}
    (placed : before ++ [last] <+: first ++ second) :
    before ++ [last] <+: first ∨ ∃ inner, before = first ++ inner ∧ inner ++ [last] <+: second := by
  obtain ⟨after, split⟩ := placed
  rcases List.append_eq_append_iff.mp split with ⟨rest, inside, _⟩ | ⟨tail, outside, isSecond⟩
  · exact Or.inl ⟨rest, inside.symm⟩
  · rcases tail.eq_nil_or_concat with rfl | ⟨inner, final, rfl⟩
    · rw [List.append_nil] at outside
      exact Or.inl (outside ▸ List.prefix_rfl)
    · rw [List.concat_eq_append, ← List.append_assoc] at outside
      obtain ⟨isBefore, same⟩ := List.append_inj' outside rfl
      obtain rfl := List.singleton_inj.mp same
      rw [List.concat_eq_append] at isSecond
      exact Or.inr ⟨inner, isBefore, after, isSecond.symm⟩

theorem ParentsFirst.append {first second : List Line} (firstSound : ParentsFirst first)
    (secondSound : ParentsFirst second) : ParentsFirst (first ++ second) := by
  intro before tableId columnId name columnType nullsAllowed parentId rest placed named
  rcases concat_prefix_append placed with inFirst | ⟨inner, rfl, inSecond⟩
  · exact firstSound before _ _ _ _ _ _ _ inFirst named
  · obtain ⟨line, member, described⟩ := secondSound inner _ _ _ _ _ _ _ inSecond named
    exact ⟨line, List.mem_append_right _ member, described⟩

theorem ParentsFirst.flatMap {α : Type} {items : List α} {render : α → List Line}
    (each : ∀ item ∈ items, ParentsFirst (render item)) : ParentsFirst (items.flatMap render) := by
  induction items with
  | nil => exact NoColumns.parentsFirst fun _ absent => nomatch absent
  | cons item rest ih =>
    rw [List.flatMap_cons]
    exact (each item List.mem_cons_self).append (ih fun other later => each other (List.mem_cons_of_mem _ later))

theorem columnLines_parentsFirst (tableId : TableId) {columns : List TableColumnRow}
    (rooted : ∀ column ∈ columns, Rooted columns column) :
    ParentsFirst ((columnsParentBeforeChildren columns).map (columnLine tableId)) := by
  rintro before tableText columnText name columnType nullsAllowed parentText rest ⟨after, split⟩ named
  rw [List.append_assoc] at split
  obtain ⟨earlier, later, isOutput, rfl, shown⟩ := List.map_eq_append_iff.mp split.symm
  obtain ⟨column, following, rfl, isLine, _⟩ := List.map_eq_cons_iff.mp shown
  simp only [columnLine, List.cons.injEq, true_and] at isLine
  obtain ⟨rfl, rfl, rfl, rfl, rfl, rfl, rfl⟩ := isLine
  cases hasParent : column.parentId with
  | none =>
    rw [hasParent] at named
    exact absurd rfl named
  | some parentId =>
    have placed : earlier ++ [column] <+: columnsParentBeforeChildren columns := ⟨following, by simp [isOutput]⟩
    obtain ⟨parent, member, rfl⟩ := columnsParentBeforeChildren_parents rooted placed hasParent
    exact ⟨columnLine tableId parent, List.mem_map_of_mem member, _, rfl⟩

theorem tableLines_parentsFirst {table : TableRow} (rooted : ∀ column ∈ table.columns, Rooted table.columns column) :
    ParentsFirst (tableLines table) := by
  refine (((NoColumns.parentsFirst ?_).append (columnLines_parentsFirst table.tableId rooted)).append
    (NoColumns.parentsFirst ?_)).append (NoColumns.parentsFirst ?_) |>.append (NoColumns.parentsFirst ?_)
  · intro line member
    rw [List.mem_singleton.mp member]
    simp
  · intro line member
    obtain ⟨inlined, _, rfl⟩ := List.mem_map.mp member
    simp
  · intro line member
    cases partitioned : table.partition with
    | none =>
      rw [partitioned] at member
      cases member
    | some partition =>
      rw [partitioned, Option.map_some, Option.getD_some] at member
      obtain ⟨field, _, rfl⟩ := List.mem_map.mp member
      simp
  · intro line member
    cases sorted : table.sort with
    | none =>
      rw [sorted] at member
      cases member
    | some sort =>
      rw [sorted, Option.map_some, Option.getD_some] at member
      obtain ⟨field, _, rfl⟩ := List.mem_map.mp member
      simp

theorem macroLines_noColumns (macroRow : MacroRow) : NoColumns (macroLines macroRow) := by
  intro line member
  rcases List.mem_cons.mp member with rfl | implemented
  · simp
  · obtain ⟨⟨implementation, implId⟩, _, inside⟩ := List.mem_flatMap.mp implemented
    rcases List.mem_cons.mp inside with rfl | parameter
    · simp
    · obtain ⟨parameter, _, rfl⟩ := List.mem_map.mp parameter
      simp [macroParameterLine]

theorem countLine_noColumns {label : String} (different : ¬label.toList <+: "column".toList) (count : Nat) :
    NoColumns [[label ++ toString count]] := by
  intro line member same
  rw [List.mem_singleton.mp member, List.head?_cons] at same
  have letters := congrArg String.toList (Option.some.inj same)
  rw [String.toList_append] at letters
  exact different (letters ▸ List.prefix_append _ _)

theorem renderCatalogSnapshotPayload_parentsFirst {context : CatalogSnapshotReadContext}
    (rooted : ∀ table ∈ context.tables, ∀ column ∈ table.columns, Rooted table.columns column) :
    ParentsFirst (renderCatalogSnapshotPayload context) := by
  have schemas : NoColumns (context.schemas.map schemaLine) := by
    intro line member
    obtain ⟨schema, _, rfl⟩ := List.mem_map.mp member
    simp [schemaLine]
  have views : NoColumns (context.views.map viewLine) := by
    intro line member
    obtain ⟨view, _, rfl⟩ := List.mem_map.mp member
    simp [viewLine]
  have macros : ParentsFirst (context.macros.flatMap macroLines) :=
    .flatMap fun macroRow _ => (macroLines_noColumns macroRow).parentsFirst
  have tables : ParentsFirst (context.tables.flatMap tableLines) :=
    .flatMap fun table member => tableLines_parentsFirst (rooted table member)
  have counted : ∀ label : String, ¬label.toList <+: "column".toList → ∀ count : Nat,
      ParentsFirst [[label ++ toString count]] := fun _ different count => (countLine_noColumns different count).parentsFirst
  rw [renderCatalogSnapshotPayload]
  refine .append (.append (.append (.append (.append (.append (.append ?_ schemas.parentsFirst) ?_) tables) ?_)
    views.parentsFirst) ?_) macros
  all_goals exact counted _ (by decide) _

/-- The loop ends, and puts out every column once; where parent links lead up to columns without parents, every column
comes after its parent, siblings keep their order, and whoever reads the payload meets no column before its parent. -/
theorem columnsParentBeforeChildren_ordered (columns : List TableColumnRow) :
    ((drainedColumns columns).next columns = none ∧ (columnsParentBeforeChildren columns).Perm columns) ∧
    ((∀ column ∈ columns, Rooted columns column) →
      (∀ before column, before ++ [column] <+: columnsParentBeforeChildren columns →
        ∀ parentId, column.parentId = some parentId → ∃ parent ∈ before, parent.columnId = parentId) ∧
      ∀ parentId, (columnsParentBeforeChildren columns).filter (fun column => column.parentId = parentId) =
        columns.filter fun column => column.parentId = parentId) ∧
    ∀ context : CatalogSnapshotReadContext,
      (∀ table ∈ context.tables, ∀ column ∈ table.columns, Rooted table.columns column) →
        ParentsFirst (renderCatalogSnapshotPayload context) := by
  refine ⟨⟨(drainedColumns_ends columns).1, columnsParentBeforeChildren_perm columns⟩, ?_, ?_⟩
  · intro rooted
    refine ⟨?_, columnsParentBeforeChildren_siblings rooted⟩
    intro before column placed parentId hasParent
    exact columnsParentBeforeChildren_parents rooted placed hasParent
  · exact fun context rooted => renderCatalogSnapshotPayload_parentsFirst rooted

/-- A field of a struct is listed before the struct. -/
def fieldFirst : List TableColumnRow :=
  [{ columnId := 2, name := "field", columnType := "INTEGER", nullsAllowed := true, parentId := some 1 },
    { columnId := 1, name := "struct", columnType := "STRUCT", nullsAllowed := true }]

theorem fieldFirst_rooted : List.Forall (Rooted fieldFirst) fieldFirst := by
  have struct : Rooted fieldFirst fieldFirst[1] := .root (List.mem_cons_of_mem _ List.mem_cons_self) rfl
  exact ⟨.child List.mem_cons_self rfl struct, struct⟩

theorem columnsParentBeforeChildren_ordered_field :
    (columnsParentBeforeChildren fieldFirst).map TableColumnRow.columnId = [1, 2] ∧
      ParentsFirst (renderCatalogSnapshotPayload
        { tables := [{ tableId := 1, name := "nested", columns := fieldFirst, validity := ⟨1, none⟩ }] }) ∧
      ∃ parent ∈ [fieldFirst[1]], parent.columnId = 1 := by
  have rooted := List.forall_iff_forall_mem.mp fieldFirst_rooted
  obtain ⟨_, ordered, payload⟩ := columnsParentBeforeChildren_ordered fieldFirst
  refine ⟨by decide, payload _ ?_, (ordered rooted).1 [fieldFirst[1]] fieldFirst[0] ⟨[], by decide⟩ 1 rfl⟩
  intro table member
  rw [List.mem_singleton.mp member]
  exact rooted

end DucklakeCatalog.CatalogPayload
