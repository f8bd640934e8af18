import DucklakeCatalog.Fdb.Effects
import DucklakeCatalog.Fdb.TableWrites

/-! What drops and mutations do to the current data files and delete files, and
to the rows of the tables they belong to. -/
namespace DucklakeCatalog.Fdb

open KeyedStore

structure CurrentFiles where
  dataFiles : OrderedMap TableFileKey DataFileRow
  deleteFiles : OrderedMap DataFileId DeleteFileRow

def FdbStore.currentFiles (store : FdbStore) : CurrentFiles := ⟨store.kv.currentDataFile, store.kv.currentDeleteFile⟩

def currentFileKey (row : DataFileRow) : TableFileKey := ⟨row.tableId, row.dataFileId⟩

/-! ## Drops -/

def PreparedTableDrop.dataFileKeys (drop : PreparedTableDrop) : List TableFileKey := drop.dataFiles.map currentFileKey

def PreparedTableDrop.deletedFrom (drop : PreparedTableDrop) : List DataFileId :=
  drop.deleteFiles.map DeleteFileRow.dataFileId

/-- Some current files of a store have been taken out of another one. -/
structure TakesOut (dataFileKeys : List TableFileKey) (deletedFrom : List DataFileId) (files next : CurrentFiles) :
    Prop where
  dataFiles : ∀ key, next.dataFiles.get? key = if key ∈ dataFileKeys then none else files.dataFiles.get? key
  deleteFiles : ∀ dataFileId, next.deleteFiles.get? dataFileId =
    if dataFileId ∈ deletedFrom then none else files.deleteFiles.get? dataFileId

theorem TakesOut.none (files : CurrentFiles) : TakesOut [] [] files files := ⟨by simp, by simp⟩

theorem stageDrop_takesOut (seen : CatalogKv) (order : CatalogOrderId) (store : FdbStore) (drop : PreparedTableDrop) :
    TakesOut drop.dataFileKeys drop.deletedFrom store.currentFiles (stageDrop seen order store drop).currentFiles := by
  have dataFiles := OrderedMap.get?_foldl_erases CatalogKv.currentDataFile currentFileKey
    (fun kv row => rfl : ∀ kv row, (stageExpiredDataFile seen order kv row).currentDataFile = _) drop.dataFiles store.kv
  have deleteFiles := OrderedMap.get?_foldl_erases CatalogKv.currentDeleteFile DeleteFileRow.dataFileId
    (fun kv row => rfl : ∀ kv row,
      (stageExpiredDeleteFile seen order kv drop.table.tableId row).currentDeleteFile = _) drop.deleteFiles
    (drop.dataFiles.foldl (stageExpiredDataFile seen order) store.kv)
  have dataFilesKept := foldl_view CatalogKv.currentDataFile
    (fun kv row => rfl : ∀ kv row,
      (stageExpiredDeleteFile seen order kv drop.table.tableId row).currentDataFile = _) drop.deleteFiles
    (drop.dataFiles.foldl (stageExpiredDataFile seen order) store.kv)
  have deleteFilesKept := foldl_view CatalogKv.currentDeleteFile
    (fun kv row => rfl : ∀ kv row, (stageExpiredDataFile seen order kv row).currentDeleteFile = _) drop.dataFiles store.kv
  rw [deleteFilesKept] at deleteFiles
  refine ⟨fun key => ?_, fun dataFileId => deleteFiles dataFileId⟩
  exact (congrArg (OrderedMap.get? · key) dataFilesKept).trans (dataFiles key)

theorem TakesOut.trans {firstKeys secondKeys : List TableFileKey} {firstIds secondIds : List DataFileId}
    {first second third : CurrentFiles} (left : TakesOut firstKeys firstIds first second)
    (right : TakesOut secondKeys secondIds second third) :
    TakesOut (firstKeys ++ secondKeys) (firstIds ++ secondIds) first third where
  dataFiles := by
    intro key
    rw [right.dataFiles, left.dataFiles]
    by_cases later : key ∈ secondKeys
    · simp [later]
    · simp [later]
  deleteFiles := by
    intro dataFileId
    rw [right.deleteFiles, left.deleteFiles]
    by_cases later : dataFileId ∈ secondIds
    · simp [later]
    · simp [later]

/-- Nothing else that a change of tables stages touches the current files. -/
theorem relatesStages_takesOut (order : CatalogOrderId) : RelatesStages order fun drops before after =>
    TakesOut (drops.flatMap PreparedTableDrop.dataFileKeys) (drops.flatMap PreparedTableDrop.deletedFrom)
      before.currentFiles after.currentFiles where
  refl store := TakesOut.none _
  trans left right := by
    rw [List.flatMap_append, List.flatMap_append]
    exact left.trans right
  creates store table := TakesOut.none _
  replaces store replacement := by
    unfold stageTableReplacement
    dsimp only [FdbStore.currentFiles, stageTableVisibilityBegin, stageTableVisibilityEnd, stageCurrentTableRow]
    rw [(stageCurrentTableNameReplacement_kv _ _).1]
    exact TakesOut.none _
  drops seen store drop := by
    simp only [List.flatMap_singleton]
    exact stageDrop_takesOut seen order store drop
  notes store tableIds := by
    unfold stageMaxTableId
    cases tableIds.max? with
    | none
    | some tableId => exact TakesOut.none _
  inserts stages := by
    have same := (stagePreparedInlineMutation_writes stages).sameFiles
    rw [FdbStore.currentFiles, FdbStore.currentFiles, same.currentDataFile, same.currentDeleteFile]
    exact TakesOut.none _
  commits store := TakesOut.none _

/-- A change of tables takes out the current files that its drops list, and no others. -/
theorem TableCommit.transact_takesOut (commit : TableCommit) {store next : FdbStore}
    (transacts : commit.transact store = some next) :
    TakesOut (commit.drops.flatMap PreparedTableDrop.dataFileKeys) (commit.drops.flatMap PreparedTableDrop.deletedFrom)
      store.currentFiles next.currentFiles :=
  transact_related (relatesStages_takesOut store.commitOrder) transacts

/-! ## The tables -/

variable {tableId : TableId} {order : CatalogOrderId} {kv : CatalogKv}

theorem TableWrite.apply_keepsRow (order : CatalogOrderId) (view : TableView) (write : TableWrite)
    (kept : ∀ table, write = .drop table → table.tableId ≠ tableId) (found : (view.rows.get? tableId).isSome) :
    ((write.apply order view).rows.get? tableId).isSome := by
  cases write with
  | create table
  | replace other previous next
  | rewrite previous next => exact OrderedMap.get?_insert_isSome found
  | drop table =>
    rw [apply, OrderedMap.get?_erase, if_neg fun same => kept table rfl same.symm]
    exact found

theorem foldl_apply_keepsRow (order : CatalogOrderId) (writes : List TableWrite) (view : TableView)
    (kept : ∀ table, TableWrite.drop table ∈ writes → table.tableId ≠ tableId)
    (found : (view.rows.get? tableId).isSome) :
    ((writes.foldl (TableWrite.apply order) view).rows.get? tableId).isSome := by
  induction writes generalizing view with
  | nil => exact found
  | cons write rest ih =>
    refine ih _ (fun table later => kept table (List.mem_cons_of_mem _ later)) ?_
    exact write.apply_keepsRow order view (fun table same => kept table (same ▸ List.mem_cons_self)) found

theorem TableCommit.mem_writes_drop {commit : TableCommit} {table : TableRow} (writes : .drop table ∈ commit.writes) :
    ∃ drop ∈ commit.drops, drop.table = table := by
  cases commit with
  | created now sequence recoveryId tables => simp [TableCommit.writes] at writes
  | changed now sequence metadata newTables replacements => simp [TableCommit.writes, replacementWrite] at writes
  | dropped seen now sequence drops => simpa [TableCommit.writes, TableCommit.drops, dropWrite] using writes
  | replaced seen now sequence recoveryId drops tables =>
    simpa [TableCommit.writes, TableCommit.drops, dropWrite] using writes
  | inlineRows now metadata prepared => simp [TableCommit.writes, inlineWrite] at writes

/-- A table that is current and is not dropped stays current. -/
theorem TableCommit.transact_rows {commit : TableCommit} {store next : FdbStore}
    (transacts : commit.transact store = some next) (kept : ∀ drop ∈ commit.drops, drop.table.tableId ≠ tableId)
    (found : (store.kv.currentTableRow.get? tableId).isSome) : (next.kv.currentTableRow.get? tableId).isSome := by
  have view := congrArg TableView.rows (commit.transact_tableView transacts)
  have rows := foldl_apply_keepsRow store.commitOrder commit.writes store.tableView ?_ found
  · rw [← view] at rows
    exact rows
  · intro table writes
    obtain ⟨drop, member, rfl⟩ := mem_writes_drop writes
    exact kept drop member

theorem stagePreparedInlineMutation_rows {store next : FdbStore}
    {prepared : PreparedInlineMutation} (stages : stagePreparedInlineMutation order store prepared = .ok next)
    (found : (store.kv.currentTableRow.get? tableId).isSome) :
    (next.kv.currentTableRow.get? tableId).isSome := by
  have view := congrArg TableView.rows (stagePreparedInlineMutation_tableView stages)
  have rows := foldl_apply_keepsRow order (prepared.replacements.map inlineWrite) store.tableView ?_ found
  · rw [← view] at rows
    exact rows
  · simp [inlineWrite]

/-! ## Data mutations -/

/-- Current files stand under their own keys and have not ended. -/
structure CurrentFiles.Keyed (files : CurrentFiles) : Prop where
  dataFiles : ∀ key row, files.dataFiles.get? key = some row → currentFileKey row = key ∧ row.validity.endOrder = none
  deleteFiles : ∀ dataFileId row, files.deleteFiles.get? dataFileId = some row → row.dataFileId = dataFileId

theorem CurrentFiles.Keyed.takesOut {keys : List TableFileKey} {ids : List DataFileId} {files next : CurrentFiles}
    (keyed : files.Keyed) (taken : TakesOut keys ids files next) : next.Keyed where
  dataFiles := by
    intro key row found
    rw [taken.dataFiles] at found
    split at found
    · cases found
    · exact keyed.dataFiles key row found
  deleteFiles := by
    intro dataFileId row found
    rw [taken.deleteFiles] at found
    split at found
    · cases found
    · exact keyed.deleteFiles dataFileId row found

/-- Staging an open data file puts a row with its ids under its key. -/
theorem stageDataFile_current {staged : CatalogKv} {row : DataFileRow}
    (stages : stageDataFile order kv row = .ok staged) :
    ∃ stored : DataFileRow, currentFileKey stored = currentFileKey row ∧
      stored.validity.endOrder = row.validity.endOrder ∧
      staged.currentDataFile = kv.currentDataFile.insert (currentFileKey row) stored := by
  unfold stageDataFile at stages
  rw [bind_eq_ok] at stages
  obtain ⟨appended, appends, stages⟩ := stages
  simp only [pure_eq_ok] at stages
  subst stages
  have current : ((dataFileNextRowId row).elim appended (stageTableNextRowId appended row.tableId)).currentDataFile =
      appended.currentDataFile := by
    cases dataFileNextRowId row <;> rfl
  rw [current]
  unfold stageDataFileWithoutWatermark at appends
  split at appends
  · rw [bind_eq_ok] at appends
    obtain ⟨compacted, compacts, appends⟩ := appends
    obtain rfl := Except.ok.inj appends
    unfold stageCompactedDataFile at compacts
    split at compacts
    · cases compacts
    · obtain rfl := Except.ok.inj compacts
      refine ⟨_, ?_, ?_, rfl⟩
      · rfl
      · rfl
  · obtain rfl := Except.ok.inj appends
    refine ⟨_, ?_, ?_, rfl⟩
    · rfl
    · rfl

/-- The current data files after appends of open files. -/
structure AppendsCurrent (rows : List DataFileRow) (before after : OrderedMap TableFileKey DataFileRow) : Prop where
  present : ∀ row ∈ rows, (after.get? (currentFileKey row)).isSome
  kept : ∀ key, (before.get? key).isSome → (after.get? key).isSome
  origin : ∀ key stored, after.get? key = some stored →
    before.get? key = some stored ∨
      ∃ row ∈ rows, currentFileKey row = key ∧ currentFileKey stored = key ∧
        stored.validity.endOrder = row.validity.endOrder

theorem stageDataFiles_current {staged : CatalogKv} {rows : List DataFileRow}
    (stages : stageDataFiles order kv rows = .ok staged) :
    AppendsCurrent rows kv.currentDataFile staged.currentDataFile := by
  constructor
  · refine foldlM_establishes (fun (kv : CatalogKv) row => (kv.currentDataFile.get? (currentFileKey row)).isSome)
      stages ?_ ?_
    · intro kv row next taken
      obtain ⟨stored, _, _, currents⟩ := stageDataFile_current taken
      rw [currents, OrderedMap.get?_insert_self]
      rfl
    · intro kv row next earlier taken present
      obtain ⟨stored, _, _, currents⟩ := stageDataFile_current taken
      rw [currents]
      exact OrderedMap.get?_insert_isSome present
  · intro key present
    refine foldlM_invariant (fun staged : CatalogKv => (staged.currentDataFile.get? key).isSome) stages present ?_
    intro kv row next _ soFar taken
    obtain ⟨stored, _, _, currents⟩ := stageDataFile_current taken
    rw [currents]
    exact OrderedMap.get?_insert_isSome soFar
  · refine foldlM_invariant (fun staged : CatalogKv => ∀ key stored, staged.currentDataFile.get? key = some stored →
      kv.currentDataFile.get? key = some stored ∨ ∃ row ∈ rows, currentFileKey row = key ∧
        currentFileKey stored = key ∧ stored.validity.endOrder = row.validity.endOrder) stages
      (fun _ _ found => Or.inl found) ?_
    intro kv row next member soFar taken key found isFound
    obtain ⟨stored, sameKey, sameEnd, currents⟩ := stageDataFile_current taken
    rw [currents, OrderedMap.get?_insert] at isFound
    split at isFound
    · rename_i here
      obtain rfl := Option.some.inj isFound
      exact Or.inr ⟨row, member, here.symm, sameKey.trans here.symm, sameEnd⟩
    · exact soFar key found isFound

theorem stageDroppedDataFiles_current {seen next : CatalogKv} {now : Int}
    {policy : ExpiredObjectCleanupPolicy} {context : MutationDataFileContext} {droppedIds : List DataFileId}
    (stages : stageDroppedDataFiles seen now order policy context droppedIds kv = .ok next) (keyed : context.Keyed) :
    (∀ key row, next.currentDataFile.get? key = some row → kv.currentDataFile.get? key = some row) ∧
      ∀ key, key.dataFileId ∉ droppedIds → next.currentDataFile.get? key = kv.currentDataFile.get? key := by
  unfold stageDroppedDataFiles at stages
  rw [bind_eq_ok] at stages
  obtain ⟨rows, loads, stages⟩ := stages
  have erased : ∀ key, next.currentDataFile.get? key =
      if key ∈ rows.map currentFileKey then none else kv.currentDataFile.get? key := by
    intro key
    rw [← Except.ok.inj stages]
    refine OrderedMap.get?_foldl_erases CatalogKv.currentDataFile currentFileKey ?_ rows kv key
    intro kv row
    cases policy <;> rfl
  constructor
  · intro key row found
    rw [erased] at found
    split at found
    · cases found
    · exact found
  · intro key kept
    rw [erased, if_neg]
    intro listed
    obtain ⟨row, member, rfl⟩ := List.mem_map.mp listed
    obtain ⟨droppedId, isDropped, loaded⟩ := mapM_source loads member
    have present : context.get? droppedId = some row := by
      unfold MutationDataFileContext.load at loaded
      cases found : context.get? droppedId with
      | none =>
        rw [found] at loaded
        cases loaded
      | some known =>
        rw [found] at loaded
        exact congrArg some (Except.ok.inj loaded)
    have sameId : (currentFileKey row).dataFileId = droppedId := keyed droppedId row present
    rw [sameId] at kept
    exact kept isDropped

variable {attempt : MutationAttempt} {store next : FdbStore}

section

variable (applied : AppliedMutation attempt store next)

include applied

/-- The current data files of an applied mutation: the ones before, with its appends and without its drops. -/
theorem AppliedMutation.currentDataFiles :
    ∃ appended, AppendsCurrent applied.prepared.mutation.dataFiles store.kv.currentDataFile appended ∧
      (∀ key row, next.kv.currentDataFile.get? key = some row → appended.get? key = some row) ∧
      ∀ key, key.dataFileId ∉ applied.plan.mutation.droppedDataFileIds →
        next.kv.currentDataFile.get? key = appended.get? key := by
  obtain ⟨opening⟩ := applied.opening
  have same := applied.opened_sameFiles opening
  have appends := stageDataFiles_current opening.files.appends
  rw [same.currentDataFile] at appends
  have dropped := stageDroppedDataFiles_current opening.files.drops (prepareDataMutation_keyed applied.prepares)
  have sameDrops : applied.prepared.mutation.droppedDataFileIds = applied.plan.mutation.droppedDataFileIds := by
    rw [prepareDataMutation_mutation applied.prepares]
    rfl
  have after : next.kv.currentDataFile = opening.files.dropped.currentDataFile := by
    have ended := congrArg (fun store : FdbStore => store.kv.currentDataFile) opening.ends
    exact ended.trans opening.files.next_writes.others.2.1
  rw [sameDrops, opening.files.noted_dataFile.2] at dropped
  refine ⟨_, appends, ?_, ?_⟩
  · rw [after]
    exact dropped.1
  · rw [after]
    exact dropped.2

/-- The tables of appended files are current when the mutation commits. -/
theorem AppliedMutation.append_table {row : DataFileRow}
    (member : row ∈ applied.prepared.mutation.dataFiles) : (store.kv.currentTableRow.get? row.tableId).isSome := by
  have validated := applied.validated
  unfold rejectStaleDataFileTargetsInTransaction at validated
  rw [bind_eq_ok] at validated
  obtain ⟨active, _, validated⟩ := validated
  split at validated
  · cases validated
  · simp only [bind_eq_ok] at validated
    obtain ⟨⟨⟩, _, ⟨⟩, appends, _⟩ := validated
    have listed : row.tableId ∈ tablesOf applied.prepared.mutation.dataFiles := by
      unfold tablesOf
      rw [List.mem_insertionSort, List.mem_dedup]
      exact List.mem_map_of_mem member
    have passes := forM_eq_ok_iff.mp appends row.tableId listed
    cases found : store.kv.currentTableRow.get? row.tableId with
    | none =>
      rw [found] at passes
      cases passes
    | some table => rfl

theorem AppliedMutation.rows
    (found : (store.kv.currentTableRow.get? tableId).isSome) : (next.kv.currentTableRow.get? tableId).isSome := by
  obtain ⟨opening⟩ := applied.opening
  have flushed : applied.flushed.kv.currentTableRow = store.kv.currentTableRow := by
    obtain ⟨_, _, _, _, _, _, same⟩ := stagePreparedInlineFlushes_writes applied.flushes
    rw [same]
  have begun : opening.begun.kv.currentTableRow = store.kv.currentTableRow :=
    (congrArg (fun store : FdbStore => store.kv.currentTableRow) opening.begins).trans flushed
  have inlined : (opening.inlined.kv.currentTableRow.get? tableId).isSome := by
    rw [← begun] at found
    have inlines := opening.inlines
    unfold stageOptionalInlineMutation at inlines
    split at inlines
    · rw [← Except.ok.inj inlines]
      exact found
    · exact stagePreparedInlineMutation_rows inlines found
  have filed : opening.filed.currentTableRow = opening.inlined.kv.currentTableRow := by
    obtain ⟨_, _, _, _, _, _, _, _, _, appended⟩ := stageDataFiles_writes opening.files.appends
    obtain ⟨_, _, _, _, _, _, described⟩ := opening.files.describes
    obtain ⟨_, _, _, _, _, _, _, deleted⟩ := stageDeleteFiles_writes opening.files.deletes
    obtain ⟨_, noted⟩ := opening.files.notes
    obtain ⟨_, folded⟩ := stageInlineFileDeletions_writes store.commitOrder
      applied.prepared.mutation.inlineFileDeletions opening.files.deleted
    obtain ⟨_, _, _, _, _, _, _, _, _, dropped⟩ := stageDroppedDataFiles_writes opening.files.drops
    obtain ⟨_, _, _, _, _, _, _, expired⟩ := opening.files.next_writes
    obtain ⟨_, opened⟩ := opening.opens
    have openedRows := congrArg CatalogKv.currentTableRow opened
    have appendedRows := congrArg CatalogKv.currentTableRow appended
    have describedRows := congrArg CatalogKv.currentTableRow described
    have deletedRows := congrArg CatalogKv.currentTableRow deleted
    have foldedRows := congrArg CatalogKv.currentTableRow folded
    have notedRows := congrArg CatalogKv.currentTableRow noted
    have droppedRows := congrArg CatalogKv.currentTableRow dropped
    have expiredRows := congrArg CatalogKv.currentTableRow expired
    exact expiredRows.trans (droppedRows.trans (notedRows.trans (foldedRows.trans
      (deletedRows.trans (describedRows.trans (appendedRows.trans openedRows))))))
  have ended := congrArg (fun store : FdbStore => store.kv.currentTableRow) opening.ends
  rw [ended]
  exact (congrArg (fun rows : OrderedMap TableId TableRow => (rows.get? tableId).isSome) filed).trans inlined

end

end DucklakeCatalog.Fdb
