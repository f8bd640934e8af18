import DucklakeCatalog.Table.Commits
import Mathlib.Logic.Relation

/-! Columns go together with the columns nested in them. -/
namespace DucklakeCatalog

open KeyedStore

/-! ## The closure is what can be reached -/

def ColumnLink (columns : List TableColumnRow) (parent child : ColumnId) : Prop :=
  ∃ column ∈ columns, column.parentId = some parent ∧ column.columnId = child

/-- Reachable through parent links, in any number of steps. -/
abbrev Descends (columns : List TableColumnRow) : ColumnId → ColumnId → Prop :=
  Relation.ReflTransGen (ColumnLink columns)

variable {columns : List TableColumnRow} {ids : List ColumnId} {root id : ColumnId} {drops : List ColumnDrop}
  {tableId : TableId}

/-- A pass reaches the children of all the ids it starts with. -/
theorem mem_withChildColumns {parent child : ColumnId}
    (link : ColumnLink columns parent child) (known : parent ∈ ids) : child ∈ withChildColumns columns ids := by
  obtain ⟨column, listed, hasParent, rfl⟩ := link
  induction columns generalizing ids with
  | nil => cases listed
  | cons first rest ih =>
    rw [withChildColumns, List.foldl_cons]
    rcases List.mem_cons.mp listed with rfl | later
    · apply (withChildColumns_extends rest _).1.subset
      split_ifs with added
      · exact List.mem_append_right _ List.mem_cons_self
      · by_contra missing
        refine added ⟨?_, missing⟩
        rw [hasParent, Option.any_some, decide_eq_true_eq]
        exact known
    · apply ih _ later
      split_ifs
      · exact List.mem_append_left _ known
      · exact known

/-- And it adds only children of ids it starts with, or of ids it has added. -/
theorem withChildColumns_descends (reached : ∀ id ∈ ids, Descends columns root id) :
    ∀ id ∈ withChildColumns columns ids, Descends columns root id := by
  have pass : ∀ passed ⊆ columns, ∀ ids : List ColumnId, (∀ id ∈ ids, Descends columns root id) →
      ∀ id ∈ withChildColumns passed ids, Descends columns root id := by
    intro passed
    induction passed with
    | nil => exact fun _ _ reached => reached
    | cons column rest ih =>
      intro inside ids reached
      rw [withChildColumns, List.foldl_cons]
      apply ih fun other later => inside (List.mem_cons_of_mem _ later)
      split_ifs with added
      · obtain ⟨parent, hasParent, known⟩ := (Option.any_eq_true _ _).mp added.1
        intro id member
        rcases List.mem_append.mp member with earlier | new
        · exact reached id earlier
        · rw [List.mem_singleton.mp new]
          exact (reached parent (of_decide_eq_true known)).tail ⟨column, inside List.mem_cons_self, hasParent, rfl⟩
      · exact reached
  exact pass columns (List.Subset.refl columns) ids reached

theorem closeUnderChildren_descends {fuel : Nat} (reached : ∀ id ∈ ids, Descends columns root id) :
    ∀ id ∈ closeUnderChildren columns fuel ids, Descends columns root id := by
  induction fuel generalizing ids with
  | zero => exact reached
  | succ fuel ih =>
    rw [closeUnderChildren]
    split_ifs
    · exact reached
    · exact ih (withChildColumns_descends reached)

theorem closeUnderChildren_extends (columns : List TableColumnRow) (fuel : Nat) (ids : List ColumnId) :
    ids ⊆ closeUnderChildren columns fuel ids := by
  induction fuel generalizing ids with
  | zero => exact List.Subset.refl ids
  | succ fuel ih =>
    rw [closeUnderChildren]
    split_ifs
    · exact List.Subset.refl ids
    · exact List.Subset.trans (withChildColumns_extends columns ids).1.subset (ih _)

theorem mem_columnAndDescendantIds :
    id ∈ columnAndDescendantIds columns root ↔ Descends columns root id := by
  constructor
  · apply closeUnderChildren_descends
    intro start isRoot
    rw [List.mem_singleton.mp isRoot]
  · intro descends
    induction descends with
    | refl => exact closeUnderChildren_extends columns _ _ List.mem_cons_self
    | tail _ link ih =>
      rw [← columnAndDescendantIds_closed]
      exact mem_withChildColumns link ih

/-! ## A batch of drops -/

/-- The column is none of those dropped, and nested in none of them. -/
def Spared (columns : List TableColumnRow) (drops : List ColumnDrop) (id : ColumnId) : Bool :=
  drops.all fun drop => decide (id ∉ columnAndDescendantIds columns drop.columnId)

theorem spared_iff :
    Spared columns drops id = true ↔ ∀ drop ∈ drops, ¬Descends columns drop.columnId id := by
  simp only [Spared, List.all_eq_true, decide_eq_true_eq, mem_columnAndDescendantIds]

/-- A child of a column that goes does not stay. -/
theorem Spared.parent {column : TableColumnRow}
    {parent : ColumnId} (listed : column ∈ columns) (hasParent : column.parentId = some parent)
    (spared : Spared columns drops column.columnId = true) : Spared columns drops parent = true := by
  rw [spared_iff] at spared ⊢
  intro drop member descends
  exact spared drop member (descends.tail ⟨column, listed, hasParent, rfl⟩)

/-- A drop takes whole families, so the next drop finds of its own what was left of it. -/
theorem descends_retained {other : ColumnId} (kept : ¬Descends columns root id) :
    Descends (columns.filter fun column => decide (column.columnId ∉ columnAndDescendantIds columns root)) other id ↔
      Descends columns other id := by
  constructor
  · apply Relation.ReflTransGen.mono
    rintro parent child ⟨column, listed, linked⟩
    exact ⟨column, List.mem_of_mem_filter listed, linked⟩
  · intro descends
    induction descends with
    | refl => exact .refl
    | @tail parent child _ link ih =>
      have keptParent : ¬Descends columns root parent := fun gone => kept (gone.tail link)
      obtain ⟨column, listed, hasParent, rfl⟩ := link
      refine (ih keptParent).tail ⟨column, List.mem_filter.mpr ⟨listed, ?_⟩, hasParent, rfl⟩
      rw [decide_eq_true_eq, mem_columnAndDescendantIds]
      exact kept

theorem dropColumn_ok {kept : List TableColumnRow} {before record : List DroppedColumn}
    {drop : ColumnDrop} (drops : dropColumn tableId (columns, before) drop = .ok (kept, record)) :
    kept = columns.filter (fun column => decide (column.columnId ∉ columnAndDescendantIds columns drop.columnId)) ∧
      record = before ++ (columns.filter fun column =>
        decide (column.columnId ∈ columnAndDescendantIds columns drop.columnId)).map fun column => ⟨tableId, column⟩ := by
  rw [dropColumn] at drops
  split at drops
  · obtain ⟨rfl, rfl⟩ := Prod.mk.inj (Except.ok.inj drops)
    exact ⟨rfl, rfl⟩
  · cases drops

theorem foldlM_dropColumn {kept : List TableColumnRow} {before record : List DroppedColumn}
    (folds : drops.foldlM (dropColumn tableId) (columns, before) = .ok (kept, record)) :
    kept = columns.filter (fun column => Spared columns drops column.columnId) ∧
      ∃ gone : List TableColumnRow, record = before ++ gone.map (fun column => ⟨tableId, column⟩) ∧
        gone.Perm (columns.filter fun column => !Spared columns drops column.columnId) := by
  induction drops generalizing columns before with
  | nil =>
    obtain ⟨rfl, rfl⟩ := Prod.mk.inj (Except.ok.inj folds)
    refine ⟨(List.filter_eq_self.mpr fun _ _ => rfl).symm, [], (List.append_nil _).symm, ?_⟩
    rw [List.filter_eq_nil_iff.mpr]
    intro _ _ lost
    cases lost
  | cons drop rest ih =>
    rw [List.foldlM_cons, bind_eq_ok] at folds
    obtain ⟨⟨retained, first⟩, drops, folds⟩ := folds
    obtain ⟨rfl, rfl⟩ := dropColumn_ok drops
    obtain ⟨rfl, gone, rfl, taken⟩ := ih folds
    have sameSpared : ∀ column ∈ columns, column.columnId ∉ columnAndDescendantIds columns drop.columnId →
        Spared (columns.filter fun column => decide
          (column.columnId ∉ columnAndDescendantIds columns drop.columnId)) rest column.columnId =
          Spared columns rest column.columnId := by
      intro column _ stays
      rw [mem_columnAndDescendantIds] at stays
      rw [Bool.eq_iff_iff, spared_iff, spared_iff]
      simp only [descends_retained stays]
    have sparedBoth : ∀ column : TableColumnRow, Spared columns (drop :: rest) column.columnId =
        (decide (column.columnId ∉ columnAndDescendantIds columns drop.columnId) &&
          Spared columns rest column.columnId) := fun _ => rfl
    constructor
    · rw [List.filter_filter]
      apply List.filter_congr
      intro column listed
      rw [sparedBoth]
      by_cases stays : column.columnId ∈ columnAndDescendantIds columns drop.columnId
      · simp only [stays, not_true_eq_false, decide_false, Bool.and_false, Bool.false_and]
      · rw [sameSpared column listed stays, Bool.and_comm]
    · refine ⟨(columns.filter fun column => column.columnId ∈ columnAndDescendantIds columns drop.columnId) ++ gone,
        by rw [List.map_append, List.append_assoc], ?_⟩
      -- The columns that go are those of this drop, and those of the others among what it leaves.
      have split := List.filter_append_perm
        (fun column : TableColumnRow => decide (column.columnId ∈ columnAndDescendantIds columns drop.columnId))
        (columns.filter fun column => !Spared columns (drop :: rest) column.columnId)
      refine ((List.Perm.append_left _ taken).trans (List.Perm.of_eq ?_)).trans split
      rw [List.filter_filter, List.filter_filter, List.filter_filter]
      congr 1
      · apply List.filter_congr
        intro column _
        rw [sparedBoth]
        by_cases goes : column.columnId ∈ columnAndDescendantIds columns drop.columnId
        · simp [goes]
        · simp [goes]
      · apply List.filter_congr
        intro column listed
        rw [sparedBoth]
        by_cases stays : column.columnId ∈ columnAndDescendantIds columns drop.columnId
        · simp only [stays, not_true_eq_false, decide_false, decide_true, Bool.and_false, Bool.not_true, Bool.false_and]
        · rw [sameSpared column listed stays]
          simp only [stays, not_false_eq_true, decide_true, decide_false, Bool.not_false, Bool.true_and, Bool.and_true]

/-! ## The commit -/

theorem columnBatchTableId_ok {label : String} {entries : List (TableId × ColumnId)}
    (accepted : columnBatchTableId label entries = .ok tableId) : ∀ entry ∈ entries, entry.1 = tableId := by
  cases entries with
  | nil => cases accepted
  | cons first rest =>
    simp only [columnBatchTableId, bind_eq_ok, pure_eq_ok] at accepted
    obtain ⟨_, folds, rfl⟩ := accepted
    apply foldlM_establishes (fun _ entry => entry.1 = first.1) folds
    · intro seen entry next taken
      by_contra other
      rw [if_pos other] at taken
      cases taken
    · exact fun _ _ _ _ _ same => same

/-- One replacement puts its row in the place of the current one. -/
theorem commitTableReplacements_single (kv : CatalogKv) (now : Int) (sequence : RawSnapshotSequence)
    (replacement : TableVersionReplacement) :
    (commitTableReplacements kv now sequence [replacement]).1 = .ok () ∧
      (commitTableReplacements kv now sequence [replacement]).2.currentTableRow =
        kv.currentTableRow.insert replacement.tableId
          { replacement.next with validity := ⟨kv.generatedOrderId, none⟩ } := by
  rw [commitTableReplacements, if_neg (List.cons_ne_nil _ _)]
  constructor
  · rfl
  · simp [commitWith, stageTableReplacements, stageTableReplacement, stageMaxCatalogIdWatermark, CatalogKv.commit,
      stageSnapshot, CatalogKv.withGeneratedOrder]

/-- Accepted drops of some columns replace the row of their table. -/
theorem commitDropTableColumns_ok {kv next : CatalogKv} {now : Int} {dropped : List DroppedColumn} (some : drops ≠ [])
    (accepted : commitDropTableColumns kv now drops = (.ok dropped, next)) :
    ∃ tableId previous kept, (∀ drop ∈ drops, drop.tableId = tableId) ∧
      kv.currentTableRow.get? tableId = .some previous ∧
      drops.foldlM (dropColumn tableId) (previous.columns, []) = .ok (kept, dropped) ∧
      next.currentTableRow = kv.currentTableRow.insert tableId
        { previous with columns := kept, validity := ⟨kv.generatedOrderId, none⟩ } := by
  rw [commitDropTableColumns, if_neg some, commitPrepared.eq_def] at accepted
  split at accepted
  · cases (Prod.mk.inj accepted).1
  · rename_i prepared prepares
    simp only [prepareColumnVersion, bind_eq_ok, pure_eq_ok] at prepares
    obtain ⟨tableId, shape, latest, _, previous, loads, ⟨kept, record⟩, folds, rfl⟩ := prepares
    have stored := commitTableReplacements_single kv now latest.sequence
      ⟨tableId, previous, { previous with columns := kept }⟩
    obtain ⟨result, rfl⟩ := Prod.mk.inj accepted
    obtain rfl := Except.ok.inj result
    refine ⟨tableId, previous, kept, ?_, loadCurrentTableRow_ok loads, folds, stored.2⟩
    intro drop member
    exact columnBatchTableId_ok shape _ (List.mem_map_of_mem member)

/-- The closure of a column is the column and all that is nested in it, and the passes end there. Accepted drops take
these closures and nothing else, leave the other columns in order, and leave none without the parent it had. -/
theorem commitDropTableColumns_closure {kv next : CatalogKv} {now : Int} {drops : List ColumnDrop}
    {dropped : List DroppedColumn} (accepted : commitDropTableColumns kv now drops = (.ok dropped, next)) :
    (∀ columns root,
      withChildColumns columns (columnAndDescendantIds columns root) = columnAndDescendantIds columns root ∧
        ∀ id, id ∈ columnAndDescendantIds columns root ↔ Descends columns root id) ∧
    (drops = [] → dropped = [] ∧ next = kv) ∧
    (drops ≠ [] → ∃ tableId previous kept, (∀ drop ∈ drops, drop.tableId = tableId) ∧
      kv.currentTableRow.get? tableId = some previous ∧
      next.currentTableRow = kv.currentTableRow.insert tableId
        { previous with columns := kept, validity := ⟨kv.generatedOrderId, none⟩ } ∧
      kept = previous.columns.filter (fun column => Spared previous.columns drops column.columnId) ∧
      (dropped.map DroppedColumn.column).Perm
        (previous.columns.filter fun column => !Spared previous.columns drops column.columnId) ∧
      (∀ id, Spared previous.columns drops id = true ↔ ∀ drop ∈ drops, ¬Descends previous.columns drop.columnId id) ∧
      ∀ column ∈ kept, ∀ parent, column.parentId = some parent → Spared previous.columns drops parent = true) := by
  refine ⟨?_, ?_, ?_⟩
  · intro columns root
    exact ⟨columnAndDescendantIds_closed columns root, fun _ => mem_columnAndDescendantIds⟩
  · rintro rfl
    obtain ⟨result, rfl⟩ := Prod.mk.inj accepted
    exact ⟨(Except.ok.inj result).symm, rfl⟩
  · intro some
    obtain ⟨tableId, previous, kept, sameTable, isCurrent, folds, stored⟩ := commitDropTableColumns_ok some accepted
    obtain ⟨rfl, gone, recorded, taken⟩ := foldlM_dropColumn folds
    refine ⟨tableId, previous, _, sameTable, isCurrent, stored, rfl, ?_, fun _ => spared_iff, ?_⟩
    · rw [recorded, List.nil_append, List.map_map]
      exact (List.map_id gone).symm ▸ taken
    · intro column member parent hasParent
      obtain ⟨listed, spared⟩ := List.mem_filter.mp member
      exact Spared.parent listed hasParent spared

/-- A struct with a list in it, two columns in a cycle, and one under a column that is not there. -/
def nestedColumnsTable : TableRow :=
  let column (columnId : ColumnId) (parentId : Option ColumnId) : TableColumnRow :=
    { columnId, name := s!"column {columnId}", columnType := "INTEGER", nullsAllowed := true, parentId }
  { tableId := 7, name := "nested", validity := ⟨1, none⟩
    columns := [column 3 (some 2), column 1 none, column 2 (some 1), column 4 (some 5), column 5 (some 4),
      column 6 (some 9)] }

def nestedColumnsCatalog : CatalogKv :=
  { latestSnapshotRow := OrderedMap.empty.insert () (SnapshotRow.new 1 0 0)
    currentTableRow := OrderedMap.empty.insert 7 nestedColumnsTable }

def nestedColumnsDrop : CatalogResult (List DroppedColumn) × CatalogKv :=
  commitDropTableColumns nestedColumnsCatalog 0 [⟨7, 2⟩, ⟨7, 5⟩]

/-- Dropping the inner struct and one column of the cycle. -/
theorem commitDropTableColumns_closure_nested :
    (∃ tableId previous kept, nestedColumnsCatalog.currentTableRow.get? tableId = some previous ∧
      kept = previous.columns.filter (fun column => Spared previous.columns [⟨7, 2⟩, ⟨7, 5⟩] column.columnId) ∧
      nestedColumnsDrop.2.currentTableRow = nestedColumnsCatalog.currentTableRow.insert tableId
        { previous with columns := kept, validity := ⟨nestedColumnsCatalog.generatedOrderId, none⟩ }) ∧
    (nestedColumnsDrop.2.currentTableRow.get? 7).map (fun table => table.columns.map TableColumnRow.columnId) =
      some [1, 6] := by
  have accepted : nestedColumnsDrop =
      (.ok ([nestedColumnsTable.columns[0], nestedColumnsTable.columns[2], nestedColumnsTable.columns[3],
        nestedColumnsTable.columns[4]].map fun column => ⟨7, column⟩), nestedColumnsDrop.2) :=
    Prod.ext (by decide +kernel) rfl
  obtain ⟨-, -, replaced⟩ := commitDropTableColumns_closure accepted
  obtain ⟨tableId, previous, kept, _, isCurrent, stored, filtered, _⟩ := replaced (List.cons_ne_nil _ _)
  exact ⟨⟨tableId, previous, kept, isCurrent, filtered, stored⟩, by decide +kernel⟩

end DucklakeCatalog
