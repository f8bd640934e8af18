import DucklakeCatalog.Attempt.TableAssembly
import DucklakeCatalog.Table.UniqueColumns

/-! The columns of a table form a forest: ids name one column each, and a parent
is a column of the same table. Which facts of an attempt keep it that way. -/
namespace DucklakeCatalog

open KeyedStore

structure LinkedColumns (columns : List TableColumnRow) : Prop where
  ids : (columns.map TableColumnRow.columnId).Nodup
  parents : ∀ column ∈ columns, ∀ parentId, column.parentId = some parentId →
    parentId ∈ columns.map TableColumnRow.columnId

/-- A forest whose siblings have names of their own, ignoring the case of ASCII letters. -/
structure WellFormedColumns (columns : List TableColumnRow) : Prop extends LinkedColumns columns where
  names : (columns.map fun column => (column.parentId, column.name.toLower)).Nodup

namespace LinkedColumns

variable {columns before after : List TableColumnRow} {existing column : TableColumnRow}

/-- Only ids and parents matter. -/
theorem congr {left right : List TableColumnRow}
    (same : left.map (fun column => (column.columnId, column.parentId)) =
      right.map fun column => (column.columnId, column.parentId)) (linked : LinkedColumns left) :
    LinkedColumns right := by
  have sameIds : left.map TableColumnRow.columnId = right.map TableColumnRow.columnId := by
    have projected := congrArg (List.map Prod.fst) same
    simpa only [List.map_map, Function.comp_def] using projected
  refine ⟨sameIds ▸ linked.ids, ?_⟩
  intro column member parentId hasParent
  have listed : (column.columnId, column.parentId) ∈ left.map fun column => (column.columnId, column.parentId) := by
    rw [same]
    exact List.mem_map_of_mem member
  obtain ⟨original, present, equal⟩ := List.mem_map.mp listed
  have sameParent : original.parentId = column.parentId := congrArg Prod.snd equal
  exact sameIds ▸ linked.parents original present parentId (sameParent.trans hasParent)

theorem append (linked : LinkedColumns columns) (fresh : column.columnId ∉ columns.map TableColumnRow.columnId) :
    LinkedColumns (columns ++ [column]) ↔ ∀ parentId, column.parentId = some parentId →
      parentId = column.columnId ∨ parentId ∈ columns.map TableColumnRow.columnId := by
  constructor
  · intro added parentId hasParent
    have listed := added.parents column (by simp) parentId hasParent
    rw [List.map_append, List.mem_append] at listed
    exact listed.symm.imp_left fun last => List.mem_singleton.mp last
  · intro known
    constructor
    · rw [List.map_append, List.nodup_append]
      refine ⟨linked.ids, List.nodup_singleton _, ?_⟩
      intro id present other last same
      rw [List.mem_singleton.mp last] at same
      exact fresh (same ▸ present)
    · intro child member parentId hasParent
      rw [List.map_append, List.mem_append]
      rcases List.mem_append.mp member with earlier | last
      · exact Or.inl (linked.parents child earlier parentId hasParent)
      · rw [List.mem_singleton.mp last] at hasParent
        exact (known parentId hasParent).symm.imp_right fun same => List.mem_singleton.mpr same

section

variable (linked : LinkedColumns (before ++ existing :: after))

include linked

/-- A column that keeps its id may get any parent the table has. -/
theorem reparent (sameId : column.columnId = existing.columnId) :
    LinkedColumns (before ++ column :: after) ↔ ∀ parentId, column.parentId = some parentId →
      parentId ∈ (before ++ existing :: after).map TableColumnRow.columnId := by
  have sameIds : (before ++ column :: after).map TableColumnRow.columnId =
      (before ++ existing :: after).map TableColumnRow.columnId := by
    simp only [List.map_append, List.map_cons, sameId]
  constructor
  · intro changed parentId hasParent
    exact sameIds ▸ changed.parents column (by simp) parentId hasParent
  · intro known
    refine ⟨sameIds ▸ linked.ids, ?_⟩
    intro child member parentId hasParent
    rw [sameIds]
    rcases List.mem_append.mp member with earlier | later
    · exact linked.parents child (List.mem_append_left _ earlier) parentId hasParent
    · rcases List.mem_cons.mp later with rfl | later
      · exact known parentId hasParent
      · exact linked.parents child (List.mem_append_right _ (List.mem_cons_of_mem _ later)) parentId hasParent

/-- The id of a column is in no other place. -/
theorem id_apart :
    existing.columnId ∉ (before ++ after).map TableColumnRow.columnId := by
  have ids := linked.ids
  rw [List.map_append, List.map_cons] at ids
  have moved := List.nodup_middle.mp ids
  rw [List.map_append]
  exact (List.nodup_cons.mp moved).1

/-- Another id in the same place: no column may have been a child of the one before. -/
theorem exchange
    (fresh : column.columnId ∉ (before ++ existing :: after).map TableColumnRow.columnId)
    (sameParent : existing.parentId = column.parentId) :
    LinkedColumns (before ++ column :: after) ↔
      ∀ child ∈ before ++ existing :: after, child.parentId ≠ some existing.columnId := by
  have apart := linked.id_apart
  have gone : existing.columnId ∉ (before ++ column :: after).map TableColumnRow.columnId := by
    intro listed
    rw [List.map_append, List.map_cons] at listed
    rcases List.mem_append.mp listed with earlier | later
    · exact apart (by rw [List.map_append]; exact List.mem_append_left _ earlier)
    · rcases List.mem_cons.mp later with same | later
      · exact fresh (same ▸ List.mem_map_of_mem (by simp))
      · exact apart (by rw [List.map_append]; exact List.mem_append_right _ later)
  constructor
  · intro exchanged child member hasParent
    apply gone
    rcases List.mem_append.mp member with earlier | later
    · exact exchanged.parents child (List.mem_append_left _ earlier) _ hasParent
    · rcases List.mem_cons.mp later with rfl | later
      · exact exchanged.parents column (by simp) _ (sameParent.symm.trans hasParent)
      · exact exchanged.parents child (List.mem_append_right _ (List.mem_cons_of_mem _ later)) _ hasParent
  · intro childless
    have kept : ∀ child ∈ before ++ existing :: after, ∀ parentId, child.parentId = some parentId →
        parentId ∈ (before ++ column :: after).map TableColumnRow.columnId := by
      intro child member parentId hasParent
      have listed := linked.parents child member parentId hasParent
      rw [List.map_append, List.map_cons] at listed ⊢
      rcases List.mem_append.mp listed with earlier | later
      · exact List.mem_append_left _ earlier
      · rcases List.mem_cons.mp later with same | later
        · exact absurd (same ▸ hasParent) (childless child member)
        · exact List.mem_append_right _ (List.mem_cons_of_mem _ later)
    constructor
    · have ids := linked.ids
      rw [List.map_append, List.map_cons] at ids fresh ⊢
      rw [List.nodup_middle, List.nodup_cons] at ids ⊢
      refine ⟨?_, ids.2⟩
      intro listed
      apply fresh
      rcases List.mem_append.mp listed with earlier | later
      · exact List.mem_append_left _ earlier
      · exact List.mem_append_right _ (List.mem_cons_of_mem _ later)
    · intro child member parentId hasParent
      rcases List.mem_append.mp member with earlier | later
      · exact kept child (List.mem_append_left _ earlier) parentId hasParent
      · rcases List.mem_cons.mp later with rfl | later
        · exact kept existing (by simp) parentId (sameParent.trans hasParent)
        · exact kept child (List.mem_append_right _ (List.mem_cons_of_mem _ later)) parentId hasParent

/-- A column may go when it is nobody's parent but possibly its own. -/
theorem remove :
    LinkedColumns (before ++ after) ↔ ∀ child ∈ before ++ existing :: after,
      child.parentId = some existing.columnId → child.columnId = existing.columnId := by
  have apart := linked.id_apart
  have elsewhere : ∀ child ∈ before ++ existing :: after, child = existing ∨ child ∈ before ++ after := by
    intro child member
    rcases List.mem_append.mp member with earlier | later
    · exact Or.inr (List.mem_append_left _ earlier)
    · rcases List.mem_cons.mp later with same | later
      · exact Or.inl same
      · exact Or.inr (List.mem_append_right _ later)
  constructor
  · intro removed child member hasParent
    rcases elsewhere child member with rfl | stays
    · rfl
    · exact absurd (removed.parents child stays _ hasParent) apart
  · intro childless
    constructor
    · have ids := linked.ids
      rw [List.map_append, List.map_cons, List.nodup_middle, List.nodup_cons] at ids
      rw [List.map_append]
      exact ids.2
    · intro child stays parentId hasParent
      have member : child ∈ before ++ existing :: after := by
        rcases List.mem_append.mp stays with earlier | later
        · exact List.mem_append_left _ earlier
        · exact List.mem_append_right _ (List.mem_cons_of_mem _ later)
      obtain ⟨parent, present, named⟩ := List.mem_map.mp (linked.parents child member parentId hasParent)
      rcases elsewhere parent present with rfl | parentStays
      · have same := childless child member (named ▸ hasParent)
        exact absurd (same ▸ List.mem_map_of_mem stays) apart
      · exact named ▸ List.mem_map_of_mem parentStays

end

end LinkedColumns

/-! ## Columns found by their place -/

variable {wanted : TableColumnRow → Bool} {dropped changed : List TableColumnRow} {columnId : ColumnId}
  {tableId : TableId}

/-- Where the first column with a property stands. -/
theorem findIdx?_split {columns : List TableColumnRow} {index : Nat} (found : columns.findIdx? wanted = some index) :
    ∃ before existing after, columns = before ++ existing :: after ∧ index = before.length ∧
      columns.find? wanted = some existing ∧ wanted existing = true := by
  induction columns generalizing index with
  | nil => simp at found
  | cons first rest ih =>
    rw [List.findIdx?_cons] at found
    split at found
    · rename_i isFirst
      obtain rfl := Option.some.inj found
      exact ⟨[], first, rest, rfl, rfl, by rw [List.find?_cons, isFirst], isFirst⟩
    · rename_i notFirst
      obtain ⟨inner, foundLater, rfl⟩ := Option.map_eq_some_iff.mp found
      obtain ⟨before, existing, after, rfl, rfl, isFound, holds⟩ := ih foundLater
      refine ⟨first :: before, existing, after, rfl, rfl, ?_, holds⟩
      rw [List.find?_cons]
      simpa [notFirst] using isFound

theorem findIdx?_eq_none {columns : List TableColumnRow}
    (missing : columns.findIdx? wanted = none) : columns.find? wanted = none := by
  rw [List.findIdx?_eq_none_iff] at missing
  rw [List.find?_eq_none]
  intro column member
  rw [missing column member]
  exact Bool.false_ne_true

theorem updateColumn_map {β : Type} {view : TableColumnRow → β} {update : TableColumnRow → TableColumnRow}
    (kept : ∀ column, view (update column) = view column) (columnId : ColumnId) (columns : List TableColumnRow) :
    (updateColumn columnId update columns).map view = columns.map view := by
  induction columns with
  | nil => rfl
  | cons first rest ih =>
    rw [updateColumn]
    split
    · rw [List.map_cons, List.map_cons, kept]
    · rw [List.map_cons, List.map_cons, ih]

/-- A change of anything but ids and parents keeps the forest. -/
theorem LinkedColumns.update {columns : List TableColumnRow} {update : TableColumnRow → TableColumnRow}
    (linked : LinkedColumns columns) (sameId : ∀ column, (update column).columnId = column.columnId)
    (sameParent : ∀ column, (update column).parentId = column.parentId) (columnId : ColumnId) :
    LinkedColumns (updateColumn columnId update columns) := by
  refine linked.congr (updateColumn_map ?_ columnId columns).symm
  intro column
  rw [sameId, sameParent]

/-! ## What one fact does to the forest -/

/-- The parent of an added column is there, or is the column itself; a sibling it takes the place of has no children. -/
def AddsLinked (columns : List TableColumnRow) (column : TableColumnRow) : Prop :=
  (∀ parentId, column.parentId = some parentId →
    parentId = column.columnId ∨ parentId ∈ columns.map TableColumnRow.columnId) ∧
  (column.columnId ∉ columns.map TableColumnRow.columnId →
    ∀ sibling, columns.find? (isSibling column) = some sibling →
      ∀ child ∈ columns, child.parentId ≠ some sibling.columnId)

theorem readdColumn_links (existing column : TableColumnRow) :
    (readdColumn existing column).columnId = existing.columnId ∧
      (readdColumn existing column).parentId = column.parentId := by
  have shape : sameColumnShapeExceptName existing column = true → existing.parentId = column.parentId := by
    intro same
    simp only [sameColumnShapeExceptName, decide_eq_true_eq] at same
    exact same.2.2.2
  unfold readdColumn
  split
  · rename_i same
    refine ⟨rfl, shape ?_⟩
    simp only [sameColumnIdentity, decide_eq_true_eq] at same
    exact same.2.2
  · split
    · rename_i same
      exact ⟨rfl, shape same⟩
    · exact ⟨rfl, rfl⟩

theorem addColumn_linked {columns : List TableColumnRow} {column : TableColumnRow} (linked : LinkedColumns columns) :
    LinkedColumns (addColumn columns column) ↔ AddsLinked columns column := by
  unfold addColumn AddsLinked
  split
  · rename_i known
    have listed : column.columnId ∈ columns.map TableColumnRow.columnId := by
      simp only [List.any_eq_true, decide_eq_true_eq] at known
      obtain ⟨existing, member, same⟩ := known
      exact same ▸ List.mem_map_of_mem member
    obtain ⟨before, existing, after, rfl, named, _, changed⟩ := updateColumn_split listed (readdColumn · column)
    obtain ⟨sameId, newParent⟩ := readdColumn_links existing column
    rw [changed, linked.reparent sameId, newParent]
    constructor
    · intro inside
      exact ⟨fun parentId hasParent => Or.inr (inside parentId hasParent), fun fresh => absurd listed fresh⟩
    · rintro ⟨inside, _⟩ parentId hasParent
      rcases inside parentId hasParent with rfl | inside
      · exact listed
      · exact inside
  · rename_i unknown
    have fresh : column.columnId ∉ columns.map TableColumnRow.columnId := by
      intro listed
      obtain ⟨existing, member, same⟩ := List.mem_map.mp listed
      exact unknown (List.any_eq_true.mpr ⟨existing, member, decide_eq_true same⟩)
    split
    · rename_i index found
      obtain ⟨before, existing, after, rfl, rfl, isFound, sibling⟩ := findIdx?_split found
      have sameParent : existing.parentId = column.parentId := by
        simp only [isSibling, decide_eq_true_eq] at sibling
        exact sibling.1
      rw [List.set_append_right _ _ le_rfl, Nat.sub_self, List.set_cons_zero, linked.exchange fresh sameParent]
      constructor
      · intro childless
        refine ⟨fun parentId hasParent => Or.inr ?_, ?_⟩
        · exact linked.parents existing (by simp) parentId (sameParent.trans hasParent)
        · intro _ other isOther
          obtain rfl : existing = other := Option.some.inj (isFound.symm.trans isOther)
          exact childless
      · rintro ⟨_, childless⟩
        exact childless fresh existing isFound
    · rename_i missing
      rw [linked.append fresh]
      constructor
      · intro inside
        refine ⟨inside, ?_⟩
        intro _ sibling isFound
        rw [findIdx?_eq_none missing] at isFound
        cases isFound
      · exact fun both => both.1

theorem dropColumnFact_split {columns : List TableColumnRow} (drops : dropColumnFact columns columnId = .ok dropped) :
    ∃ before existing after, columns = before ++ existing :: after ∧ existing.columnId = columnId ∧
      dropped = before ++ after := by
  unfold dropColumnFact at drops
  split at drops
  · cases drops
  · rename_i index found
    obtain ⟨before, existing, after, rfl, rfl, _, named⟩ := findIdx?_split found
    obtain rfl := Except.ok.inj drops
    refine ⟨before, existing, after, rfl, of_decide_eq_true named, ?_⟩
    rw [List.eraseIdx_append_of_length_le le_rfl, Nat.sub_self, List.eraseIdx_cons_zero]

theorem dropColumnFact_linked {columns : List TableColumnRow}
    (linked : LinkedColumns columns) (drops : dropColumnFact columns columnId = .ok dropped) :
    LinkedColumns dropped ↔
      ∀ child ∈ columns, child.parentId = some columnId → child.columnId = columnId := by
  obtain ⟨before, existing, after, rfl, rfl, rfl⟩ := dropColumnFact_split drops
  exact linked.remove

theorem renameColumnFact_linked {columns renamed : List TableColumnRow} {column : TableColumnRow}
    (linked : LinkedColumns columns) (renames : renameColumnFact tableId columns column = .ok renamed) :
    LinkedColumns renamed := by
  unfold renameColumnFact at renames
  split at renames
  · cases renames
  · dsimp only at renames
    split at renames
    · cases renames
    · simp only [bind_eq_ok, pure_eq_ok] at renames
      obtain ⟨_, _, rfl⟩ := renames
      refine linked.update ?_ ?_ column.columnId <;> exact fun _ => rfl

theorem changeColumnDefaultFact_linked {columns : List TableColumnRow}
    {column : TableColumnRow} (linked : LinkedColumns columns)
    (changes : changeColumnDefaultFact tableId columns column = .ok changed) : LinkedColumns changed := by
  unfold changeColumnDefaultFact at changes
  split at changes
  · cases changes
  · simp only [bind_eq_ok] at changes
    obtain ⟨_, _, changes⟩ := changes
    split at changes
    · cases changes
    · obtain rfl := Except.ok.inj changes
      refine linked.update ?_ ?_ column.columnId <;> exact fun _ => rfl

theorem changeColumnTypeFact_linked {columns : List TableColumnRow}
    {column : TableColumnRow} (linked : LinkedColumns columns)
    (changes : changeColumnTypeFact tableId columns column = .ok changed) : LinkedColumns changed := by
  unfold changeColumnTypeFact at changes
  split at changes
  · cases changes
  · iterate 4
      split at changes
      · cases changes
    obtain rfl := Except.ok.inj changes
    refine linked.update ?_ ?_ column.columnId <;> exact fun _ => rfl

theorem changeColumnCommentFact_linked {columns : List TableColumnRow}
    {comment : Option String} (linked : LinkedColumns columns)
    (changes : changeColumnCommentFact columns columnId comment = .ok changed) : LinkedColumns changed := by
  unfold changeColumnCommentFact at changes
  split at changes
  · obtain rfl := Except.ok.inj changes
    refine linked.update ?_ ?_ columnId <;> exact fun _ => rfl
  · cases changes

end DucklakeCatalog
