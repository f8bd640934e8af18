import DucklakeCatalog.Snapshot.PublicSequences
import DucklakeCatalog.Table.Versions

/-! What other commits did to a table between the snapshot an attempt is based
on and the one it commits after. -/
namespace DucklakeCatalog

open KeyedStore

structure DataFileChange where
  tableId : TableId
  order : CatalogOrderId
  kind : DataFileChangeKind
  dataFileId : DataFileId
  deriving DecidableEq, Repr

inductive DataCommitIntent where
  | appendFiles
  | rewriteOrDeleteFiles
  deriving DecidableEq, Repr

def DataCommitIntent.conflictsWith : DataCommitIntent → DataFileChangeKind → Bool
  | appendFiles, kind => kind = .removed
  | rewriteOrDeleteFiles, _ => true

/-- The ways a check for conflicts fails. -/
inductive ConflictError where
  | invalidMutation (message : String)
  | tableLogicalConflict (tableId : TableId) (droppedAt : CatalogOrderId)
  | logicalConflict (tableId : TableId) (conflictingChanges : List DataFileChange)
  | tableSchemaConflict (tableId : TableId) (changedAt : CatalogOrderId)
  deriving DecidableEq, Repr

abbrev ConflictResult (α : Type) := Except ConflictError α

/-! ## Changes of data files -/

def TableDataFileChangeKey.change (key : TableDataFileChangeKey) : DataFileChange :=
  ⟨key.tableId, key.order, key.kind, key.dataFileId⟩

def SnapshotDataFileChangeKey.change (key : SnapshotDataFileChangeKey) : DataFileChange :=
  ⟨key.tableId, key.order, key.kind, key.dataFileId⟩

def listDataFileChanges (kv : CatalogKv) (tableId : TableId) (startOrder endOrder : CatalogOrderId) :
    ConflictResult (List DataFileChange) :=
  if endOrder < startOrder then .error (.invalidMutation "change-feed end order cannot precede start order")
  else
    .ok ((kv.tableDataFileChange.scan fun key =>
      key.tableId = tableId && startOrder ≤ key.order && key.order ≤ endOrder).map fun entry => entry.1.change)

def listDataFileChangesSinceBase (kv : CatalogKv) (baseOrder throughOrder : CatalogOrderId) :
    ConflictResult (List DataFileChange) :=
  if throughOrder < baseOrder then .error (.invalidMutation "logical conflict end order cannot precede base order")
  else
    .ok ((kv.snapshotDataFileChange.scan fun key =>
      baseOrder < key.order && key.order ≤ throughOrder).map fun entry => entry.1.change)

def listDataConflictsSinceBase (kv : CatalogKv) (tableId : TableId) (baseOrder throughOrder : CatalogOrderId)
    (intent : DataCommitIntent) : ConflictResult (List DataFileChange) := do
  let changes ← listDataFileChanges kv tableId baseOrder throughOrder
  return changes.filter fun change => baseOrder < change.order && intent.conflictsWith change.kind

/-! ## Changes of the table -/

/-- The order at which the version of the base snapshot ended, if that lies within the window. -/
def endedWithin (baseOrder throughOrder : CatalogOrderId) (table : Option TableRow) :
    Option (TableRow × CatalogOrderId) :=
  match table with
  | none => none
  | some table =>
    match table.validity.endOrder with
    | none => none
    | some endOrder => if baseOrder < endOrder ∧ endOrder ≤ throughOrder then some (table, endOrder) else none

def tableDropConflictForBaseTable (kv : CatalogKv) (tableId : TableId) (baseOrder throughOrder : CatalogOrderId)
    (table : Option TableRow) : Option CatalogOrderId :=
  match endedWithin baseOrder throughOrder table with
  | none => none
  | some (_, dropOrder) => if (loadTableAt kv tableId throughOrder).isSome then none else some dropOrder

def tableSchemaConflictForBaseTable (kv : CatalogKv) (tableId : TableId) (baseOrder throughOrder : CatalogOrderId)
    (table : Option TableRow) : Option CatalogOrderId :=
  match endedWithin baseOrder throughOrder table with
  | none => none
  | some (table, changedAt) =>
    match loadTableAt kv tableId throughOrder with
    | none => none
    | some currentTable => if currentTable.sameUserVisibleSchemaAs table then none else some changedAt

def rejectConflictsSinceBase (kv : CatalogKv) (tableId : TableId) (baseOrder throughOrder : CatalogOrderId)
    (intent : DataCommitIntent) : ConflictResult Unit :=
  if throughOrder < baseOrder then .error (.invalidMutation "logical conflict end order cannot precede base order")
  else if throughOrder = baseOrder then .ok ()
  else
    let baseTable := loadTableAt kv tableId baseOrder
    match tableDropConflictForBaseTable kv tableId baseOrder throughOrder baseTable with
    | some droppedAt => .error (.tableLogicalConflict tableId droppedAt)
    | none => do
      let conflicts ← listDataConflictsSinceBase kv tableId baseOrder throughOrder intent
      if conflicts ≠ [] then .error (.logicalConflict tableId conflicts)
      else
        match tableSchemaConflictForBaseTable kv tableId baseOrder throughOrder baseTable with
        | some changedAt => .error (.tableSchemaConflict tableId changedAt)
        | none => .ok ()

/-! ## The two change indexes -/

/-- Both indexes hold exactly these changes. -/
structure CatalogKv.IndexesChanges (kv : CatalogKv) (changes : List DataFileChange) : Prop where
  byTable : ∀ key, kv.tableDataFileChange.get? key = some () ↔ key.change ∈ changes
  bySnapshot : ∀ key, kv.snapshotDataFileChange.get? key = some () ↔ key.change ∈ changes

section

variable {kv : CatalogKv} {changes : List DataFileChange} {tableId : TableId} {baseOrder throughOrder : CatalogOrderId}

theorem CatalogKv.IndexesChanges.mem_listDataFileChanges (indexes : kv.IndexesChanges changes)
    {listed : List DataFileChange} (success : listDataFileChanges kv tableId baseOrder throughOrder = .ok listed)
    {change : DataFileChange} : change ∈ listed ↔
      change ∈ changes ∧ change.tableId = tableId ∧ baseOrder ≤ change.order ∧ change.order ≤ throughOrder := by
  unfold listDataFileChanges at success
  split at success
  · cases success
  · obtain rfl := Except.ok.inj success
    rw [List.mem_map]
    constructor
    · rintro ⟨⟨key, value⟩, member, rfl⟩
      obtain ⟨stored, inside⟩ := OrderedMap.mem_scan.mp member
      simp only [Bool.and_eq_true, decide_eq_true_eq] at inside
      exact ⟨(indexes.byTable key).mp stored, inside.1.1, inside.1.2, inside.2⟩
    · rintro ⟨made, named, above, below⟩
      refine ⟨(⟨change.tableId, change.order, change.kind, change.dataFileId⟩, ()), ?_, rfl⟩
      refine OrderedMap.mem_scan.mpr ⟨(indexes.byTable _).mpr made, ?_⟩
      simp only [named, above, below, decide_true, Bool.and_self]

theorem CatalogKv.IndexesChanges.mem_listDataFileChangesSinceBase (indexes : kv.IndexesChanges changes)
    {listed : List DataFileChange} (success : listDataFileChangesSinceBase kv baseOrder throughOrder = .ok listed)
    {change : DataFileChange} :
    change ∈ listed ↔ change ∈ changes ∧ baseOrder < change.order ∧ change.order ≤ throughOrder := by
  unfold listDataFileChangesSinceBase at success
  split at success
  · cases success
  · obtain rfl := Except.ok.inj success
    rw [List.mem_map]
    constructor
    · rintro ⟨⟨key, value⟩, member, rfl⟩
      obtain ⟨stored, inside⟩ := OrderedMap.mem_scan.mp member
      simp only [Bool.and_eq_true, decide_eq_true_eq] at inside
      exact ⟨(indexes.bySnapshot key).mp stored, inside.1, inside.2⟩
    · rintro ⟨made, above, below⟩
      refine ⟨(⟨change.order, change.tableId, change.kind, change.dataFileId⟩, ()), ?_, rfl⟩
      refine OrderedMap.mem_scan.mpr ⟨(indexes.bySnapshot _).mpr made, ?_⟩
      simp only [above, below, decide_true, Bool.and_self]

/-- Changes of one table are listed by their order, then by kind and file. -/
def DataFileChange.Below (left right : DataFileChange) : Prop :=
  toLex (left.order, toLex (left.kind.code, left.dataFileId)) <
    (toLex (right.order, toLex (right.kind.code, right.dataFileId)) : Nat ×ₗ Nat ×ₗ Nat)

instance : Std.Irrefl DataFileChange.Below := ⟨fun _ => lt_irrefl _⟩

instance : Std.Antisymm DataFileChange.Below := ⟨fun _ _ below above => absurd (below.trans above) (lt_irrefl _)⟩

theorem TableDataFileChangeKey.change_below {left right : TableDataFileChangeKey} (below : left < right)
    (same : left.tableId = right.tableId) : left.change.Below right.change := by
  rcases Prod.Lex.toLex_lt_toLex.mp below with other | ⟨_, rest⟩
  · exact absurd same other.ne
  · exact rest

theorem SnapshotDataFileChangeKey.change_below {left right : SnapshotDataFileChangeKey} (below : left < right)
    (same : left.tableId = right.tableId) : left.change.Below right.change := by
  rcases Prod.Lex.toLex_lt_toLex.mp below with earlier | ⟨sameOrder, rest⟩
  · exact Prod.Lex.toLex_lt_toLex.mpr (Or.inl earlier)
  · rcases Prod.Lex.toLex_lt_toLex.mp rest with other | ⟨_, rest⟩
    · exact absurd same other.ne
    · exact Prod.Lex.toLex_lt_toLex.mpr (Or.inr ⟨sameOrder, rest⟩)

/-- The two indexes list the same changes of a table after the base, in the same order. -/
theorem CatalogKv.IndexesChanges.windows_agree (indexes : kv.IndexesChanges changes)
    {ofTable ofSnapshots : List DataFileChange}
    (listsTable : listDataFileChanges kv tableId baseOrder throughOrder = .ok ofTable)
    (listsSnapshots : listDataFileChangesSinceBase kv baseOrder throughOrder = .ok ofSnapshots) :
    (ofTable.filter fun change => baseOrder < change.order) =
      ofSnapshots.filter fun change => change.tableId = tableId := by
  have tableSorted : (ofTable.filter fun change => baseOrder < change.order).Pairwise DataFileChange.Below := by
    refine List.Pairwise.filter _ ?_
    unfold listDataFileChanges at listsTable
    split at listsTable
    · cases listsTable
    · obtain rfl := Except.ok.inj listsTable
      refine List.pairwise_map.mpr (List.Pairwise.imp_of_mem ?_ (OrderedMap.scan_sorted _ _))
      intro left right leftMember rightMember below
      have leftInside := (OrderedMap.mem_scan.mp leftMember).2
      have rightInside := (OrderedMap.mem_scan.mp rightMember).2
      simp only [Bool.and_eq_true, decide_eq_true_eq] at leftInside rightInside
      exact TableDataFileChangeKey.change_below below (leftInside.1.1.trans rightInside.1.1.symm)
  have snapshotsSorted : (ofSnapshots.filter fun change => change.tableId = tableId).Pairwise DataFileChange.Below := by
    unfold listDataFileChangesSinceBase at listsSnapshots
    split at listsSnapshots
    · cases listsSnapshots
    · obtain rfl := Except.ok.inj listsSnapshots
      rw [List.filter_map]
      refine List.pairwise_map.mpr (List.Pairwise.imp_of_mem ?_ ((OrderedMap.scan_sorted _ _).filter _))
      intro left right leftMember rightMember below
      have leftNamed := of_decide_eq_true (List.mem_filter.mp leftMember).2
      have rightNamed := of_decide_eq_true (List.mem_filter.mp rightMember).2
      exact SnapshotDataFileChangeKey.change_below below (leftNamed.trans rightNamed.symm)
  refine List.Pairwise.eq_of_mem_iff tableSorted snapshotsSorted ?_
  intro change
  rw [List.mem_filter, List.mem_filter, indexes.mem_listDataFileChanges listsTable,
    indexes.mem_listDataFileChangesSinceBase listsSnapshots, decide_eq_true_eq, decide_eq_true_eq]
  constructor
  · rintro ⟨⟨made, named, _, below⟩, above⟩
    exact ⟨⟨made, above, below⟩, named⟩
  · rintro ⟨⟨made, above, below⟩, named⟩
    exact ⟨⟨made, named, above.le, below⟩, above⟩

end

/-! ## What the check accepts -/

/-- A change of the table after the base that the attempt cannot be committed after. -/
def DataFileChange.Conflicts (change : DataFileChange) (tableId : TableId) (baseOrder throughOrder : CatalogOrderId)
    (intent : DataCommitIntent) : Prop :=
  change.tableId = tableId ∧ baseOrder < change.order ∧ change.order ≤ throughOrder ∧
    intent.conflictsWith change.kind = true

theorem TableRow.sameUserVisibleSchemaAs_self (table : TableRow) : table.sameUserVisibleSchemaAs table = true :=
  decide_eq_true rfl

section

variable {kv : CatalogKv} {changes : List DataFileChange} {tableId : TableId} {through : CatalogOrderId}
  {baseOrder throughOrder : CatalogOrderId} {baseTable : TableRow} {intent : DataCommitIntent}

theorem CatalogKv.IndexesChanges.listDataConflictsSinceBase_eq (indexes : kv.IndexesChanges changes)
    (later : baseOrder < throughOrder) : ∃ conflicts,
      listDataConflictsSinceBase kv tableId baseOrder throughOrder intent = .ok conflicts ∧
        (conflicts = [] ↔ ∀ change ∈ changes, ¬change.Conflicts tableId baseOrder throughOrder intent) := by
  obtain ⟨listed, lists⟩ : ∃ listed, listDataFileChanges kv tableId baseOrder throughOrder = .ok listed := by
    rw [listDataFileChanges, if_neg later.le.not_gt]
    exact ⟨_, rfl⟩
  refine ⟨_, by rw [listDataConflictsSinceBase, lists]; rfl, ?_⟩
  rw [List.filter_eq_nil_iff]
  constructor
  · rintro unaffected change made ⟨named, above, below, conflicting⟩
    refine unaffected change ((indexes.mem_listDataFileChanges lists).mpr ⟨made, named, above.le, below⟩) ?_
    rw [decide_eq_true above, conflicting]
    rfl
  · intro unaffected change member conflicting
    obtain ⟨made, named, _, below⟩ := (indexes.mem_listDataFileChanges lists).mp member
    rw [Bool.and_eq_true, decide_eq_true_eq] at conflicting
    exact unaffected change made ⟨named, conflicting.1, below, conflicting.2⟩

/-- A version that does not end within the window is the one at its end, too. -/
theorem loadTableAt_of_lasting (sound : ∀ tableId, kv.tableMaps.SoundFor through tableId) (later : baseOrder < throughOrder)
    (atBase : loadTableAt kv tableId baseOrder = some baseTable)
    (lasting : endedWithin baseOrder throughOrder (some baseTable) = none) :
    loadTableAt kv tableId throughOrder = some baseTable := by
  obtain ⟨⟨stored, visible⟩, named⟩ := (loadTableAt_eq_some sound tableId).mp atBase
  obtain ⟨begun, stillOpen⟩ := ValidityWindow.isVisibleAt_iff.mp visible
  refine (loadTableAt_eq_some sound tableId).mpr ⟨⟨stored, ?_⟩, named⟩
  refine ValidityWindow.isVisibleAt_iff.mpr ⟨begun.trans later.le, ?_⟩
  intro endOrder ended
  simp only [endedWithin, ended] at lasting
  split at lasting
  · cases lasting
  · rename_i outside
    by_contra notAfter
    exact outside ⟨stillOpen endOrder ended, not_lt.mp notAfter⟩

/-- An attempt is accepted iff the table is still there as it was and nothing happened to its files that matters. -/
theorem rejectConflictsSinceBase_ok_iff (sound : ∀ tableId, kv.tableMaps.SoundFor through tableId)
    (indexes : kv.IndexesChanges changes) (later : baseOrder < throughOrder)
    (atBase : loadTableAt kv tableId baseOrder = some baseTable) :
    rejectConflictsSinceBase kv tableId baseOrder throughOrder intent = .ok () ↔
      (∃ table, loadTableAt kv tableId throughOrder = some table ∧ table.sameUserVisibleSchemaAs baseTable = true) ∧
        ∀ change ∈ changes, ¬change.Conflicts tableId baseOrder throughOrder intent := by
  obtain ⟨conflicts, lists, unaffected⟩ :=
    @CatalogKv.IndexesChanges.listDataConflictsSinceBase_eq kv changes tableId baseOrder throughOrder intent indexes later
  rw [rejectConflictsSinceBase, if_neg later.le.not_gt, if_neg later.ne', atBase, ← unaffected]
  dsimp only
  rw [lists]
  cases ended : endedWithin baseOrder throughOrder (some baseTable) with
  | none =>
    have lasts := loadTableAt_of_lasting sound later atBase ended
    simp only [tableDropConflictForBaseTable, tableSchemaConflictForBaseTable, ended]
    by_cases noConflicts : conflicts = []
    · subst noConflicts
      refine iff_of_true rfl ⟨⟨baseTable, lasts, baseTable.sameUserVisibleSchemaAs_self⟩, rfl⟩
    · refine iff_of_false ?_ fun both => noConflicts both.2
      intro accepted
      change (if conflicts ≠ [] then _ else _) = _ at accepted
      rw [if_pos noConflicts] at accepted
      cases accepted
  | some entry =>
    obtain ⟨table, endOrder⟩ := entry
    have same : table = baseTable := by
      unfold endedWithin at ended
      dsimp only at ended
      split at ended
      · cases ended
      · split at ended
        · exact (Prod.mk.inj (Option.some.inj ended)).1.symm
        · cases ended
    subst same
    cases atThrough : loadTableAt kv tableId throughOrder with
    | none =>
      simp [tableDropConflictForBaseTable, ended, atThrough]
    | some current =>
      simp only [tableDropConflictForBaseTable, tableSchemaConflictForBaseTable, ended, atThrough, Option.isSome_some,
        if_true, Option.some.injEq, exists_eq_left']
      by_cases noConflicts : conflicts = []
      · subst noConflicts
        change (match (if current.sameUserVisibleSchemaAs table then none else some endOrder) with
          | some changedAt => Except.error (ConflictError.tableSchemaConflict tableId changedAt)
          | none => Except.ok ()) = Except.ok () ↔ _
        by_cases unchanged : current.sameUserVisibleSchemaAs table = true
        · simp [unchanged]
        · simp [unchanged]
      · refine iff_of_false ?_ fun both => noConflicts both.2
        intro accepted
        change (if conflicts ≠ [] then _ else _) = _ at accepted
        rw [if_pos noConflicts] at accepted
        cases accepted

end

end DucklakeCatalog
