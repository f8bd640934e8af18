import DucklakeCatalog.Fdb.CurrentFiles
import DucklakeCatalog.Run.FdbDeleters
import DucklakeCatalog.Run.SharedStores

/-! Drops of tables against the clients that append files to them. A drop ends
the files it has read before its transaction, and an append only looks at the
row of its table. -/
namespace DucklakeCatalog.Fdb

open KeyedStore

/-- Every current data file has a current table, every current delete file a current data file. -/
structure FilesOwned (store : FdbStore) : Prop where
  dataFiles : ∀ key, (store.kv.currentDataFile.get? key).isSome → (store.kv.currentTableRow.get? key.tableId).isSome
  deleteFiles : ∀ dataFileId, (store.kv.currentDeleteFile.get? dataFileId).isSome →
    ∃ tableId, (store.kv.currentDataFile.get? ⟨tableId, dataFileId⟩).isSome

abbrev DropRun (history : SharedHistory) : Prop :=
  History.Reachable (fun moment => moment.action = none ∧ FilesOwned moment.store ∧ moment.store.currentFiles.Keyed)
    SharedStep history

/-- The tables an operation drops, as it has read them. -/
def TableOperation.droppedTables : TableOperation → List (FdbStore × TableRow)
  | .dropTables seen _ tableIds _ => tableIds.filterMap fun tableId =>
    (seen.kv.currentTableRow.get? tableId).map fun table => (seen, table)
  | .replaceTables seen _ tableIds _ _ _ => tableIds.filterMap fun tableId =>
    (seen.kv.currentTableRow.get? tableId).map fun table => (seen, table)
  | _ => []

/-- Since it has read the files of a table, the drop has missed no new data file
of it and no first delete file of a data file. -/
structure SeesFiles (store seen : FdbStore) (tableId : TableId) : Prop where
  dataFiles : ∀ dataFileId, (store.kv.currentDataFile.get? ⟨tableId, dataFileId⟩).isSome →
    (seen.kv.currentDataFile.get? ⟨tableId, dataFileId⟩).isSome
  deleteFiles : ∀ dataFileId, (store.kv.currentDataFile.get? ⟨tableId, dataFileId⟩).isSome →
    (store.kv.currentDeleteFile.get? dataFileId).isSome → (seen.kv.currentDeleteFile.get? dataFileId).isSome

/-- What a data mutation deletes from it has seen begin, and the delete files of what it drops it expires. -/
structure KeepsOwners (store : FdbStore) (attempt : MutationAttempt) (plan : FdbMutationPlan) : Prop where
  begun : ∀ prepared, prepareDataMutation attempt.seen plan = .ok prepared →
    ∀ dataFileId ∈ plan.mutation.deleteFiles.map DeleteFileRow.dataFileId,
      ∀ row, prepared.dataFileContext.get? dataFileId = some row →
        ∀ order, plan.readContext.order = some order → row.validity.beginOrder ≤ order
  expires : ∀ dataFileId ∈ plan.mutation.droppedDataFileIds,
    dataFileId ∉ plan.mutation.deleteFiles.map DeleteFileRow.dataFileId ∧
      ((store.kv.currentDeleteFile.get? dataFileId).isSome →
        dataFileId ∈ plan.expiredDeleteFiles.map fun expired => expired.deleteFile.dataFileId)

def StepKeepsOwners (earlier : SharedHistory) (moment : SharedMoment) : Prop :=
  (∀ tableOperation commit, moment.action = some (.tables tableOperation commit) →
      ∀ dropped ∈ tableOperation.droppedTables, SeesFiles earlier.current.store dropped.1 dropped.2.tableId) ∧
    ∀ attempt plan, moment.action = some (.files (.dataMutation attempt)) → attempt.reserved = .ok plan →
      KeepsOwners earlier.current.store attempt plan

/-! ## Drops -/

theorem prepareTableDrops_mem {seen : FdbStore} {tableIds : List TableId} {drops : List PreparedTableDrop}
    (prepares : prepareTableDrops seen.kv tableIds = .ok drops) :
    ∀ drop ∈ drops, drop = prepareTableDrop seen.kv drop.table ∧
      (seen, drop.table) ∈ tableIds.filterMap fun tableId =>
        (seen.kv.currentTableRow.get? tableId).map fun table => (seen, table) := by
  intro drop member
  obtain ⟨tableId, listed, prepared⟩ := mapM_source prepares member
  cases loads : loadCurrentTableRow seen.kv tableId with
  | error failure =>
    rw [loads] at prepared
    cases prepared
  | ok table =>
    rw [loads] at prepared
    obtain rfl := Except.ok.inj prepared
    refine ⟨rfl, List.mem_filterMap.mpr ⟨tableId, listed, ?_⟩⟩
    rw [loadCurrentTableRow_ok loads]
    rfl

/-- Each drop of a change of tables was prepared from the files the operation has read. -/
theorem TableOperation.prepare_drops {tableOperation : TableOperation} {commit : TableCommit}
    (prepares : tableOperation.prepare = .ok (some commit)) :
    ∀ drop ∈ commit.drops, ∃ dropped ∈ tableOperation.droppedTables, dropped.1 ∈ tableOperation.reads ∧
      drop = prepareTableDrop dropped.1.kv dropped.2 := by
  cases tableOperation with
  | createTables seen now tables commitRawSnapshot recoveryId =>
    simp only [prepare, Fdb.createTables, createTablesVersionstamped, bind_eq_ok] at prepares
    obtain ⟨_, _, prepares⟩ := prepares
    split at prepares
    · cases prepares
    · simp only [bind_eq_ok, pure_eq_ok] at prepares
      obtain ⟨recovered, _, prepares⟩ := prepares
      split at prepares
      · cases prepares
      · obtain rfl := Option.some.inj prepares
        exact fun drop member => absurd member List.not_mem_nil
  | editTables seen now edit =>
    simp only [prepare, Fdb.editTables, bind_eq_ok, pure_eq_ok, Option.some.injEq] at prepares
    obtain ⟨_, _, rfl⟩ := prepares
    exact fun drop member => absurd member List.not_mem_nil
  | dropTables seen now tableIds commitRawSnapshot =>
    simp only [prepare, Fdb.dropTables] at prepares
    split at prepares
    · cases prepares
    · simp only [bind_eq_ok, pure_eq_ok, Option.some.injEq] at prepares
      obtain ⟨_, _, _, _, drops, prepared, rfl⟩ := prepares
      intro drop member
      obtain ⟨isDrop, listed⟩ := prepareTableDrops_mem prepared drop member
      exact ⟨_, listed, List.mem_singleton_self _, isDrop⟩
  | replaceTables seen now tableIds tables commitRawSnapshot recoveryId =>
    simp only [prepare, Fdb.replaceTables] at prepares
    split at prepares
    · cases prepares
    · rw [bind_eq_ok] at prepares
      obtain ⟨recovered, _, prepares⟩ := prepares
      split at prepares
      · cases prepares
      · rw [map_eq_ok] at prepares
        obtain ⟨replaced, replaces, same⟩ := prepares
        obtain rfl := Option.some.inj same
        unfold prepareReplacedTables at replaces
        simp only [bind_eq_ok, pure_eq_ok] at replaces
        obtain ⟨_, _, _, _, drops, prepared, _, _, rfl⟩ := replaces
        intro drop member
        obtain ⟨isDrop, listed⟩ := prepareTableDrops_mem prepared drop member
        exact ⟨_, listed, List.mem_singleton_self _, isDrop⟩
  | insertInlineRows read seen now requests deletes context =>
    simp only [prepare, Fdb.insertInlineRows, bind_eq_ok, pure_eq_ok,
      Option.some.injEq] at prepares
    obtain ⟨_, _, _, _, rfl⟩ := prepares
    exact fun drop member => absurd member List.not_mem_nil

/-- The keys and files a drop takes out are those its table has in the state it has read. -/
theorem prepareTableDrop_takes {seen : FdbStore} {table : TableRow} (keyed : seen.currentFiles.Keyed) :
    (∀ key ∈ (prepareTableDrop seen.kv table).dataFileKeys, key.tableId = table.tableId) ∧
      (∀ dataFileId, (seen.kv.currentDataFile.get? ⟨table.tableId, dataFileId⟩).isSome →
        ⟨table.tableId, dataFileId⟩ ∈ (prepareTableDrop seen.kv table).dataFileKeys ∧
          ((seen.kv.currentDeleteFile.get? dataFileId).isSome →
            dataFileId ∈ (prepareTableDrop seen.kv table).deletedFrom)) := by
  constructor
  · intro key listed
    obtain ⟨row, scanned, rfl⟩ := List.mem_map.mp listed
    have scans := (List.mem_filter.mp scanned).1
    obtain ⟨⟨key, stored⟩, entry, rfl⟩ := List.mem_map.mp scans
    obtain ⟨found, sameTable⟩ := OrderedMap.mem_scan.mp entry
    rw [(keyed.dataFiles key stored found).1]
    exact of_decide_eq_true sameTable
  · intro dataFileId present
    obtain ⟨row, found⟩ := Option.isSome_iff_exists.mp present
    obtain ⟨sameKey, isOpen⟩ := keyed.dataFiles _ row found
    have scanned : row ∈ scanCurrentDataFiles seen.kv table.tableId := by
      refine List.mem_filter.mpr ⟨List.mem_map.mpr ⟨⟨_, row⟩, OrderedMap.mem_scan.mpr ⟨found, ?_⟩, rfl⟩, ?_⟩
      · exact decide_eq_true rfl
      · rw [isOpen]
        rfl
    refine ⟨List.mem_map.mpr ⟨row, scanned, sameKey⟩, fun deleted => ?_⟩
    obtain ⟨deleteFile, current⟩ := Option.isSome_iff_exists.mp deleted
    have sameFile : row.dataFileId = dataFileId := congrArg TableFileKey.dataFileId sameKey
    refine List.mem_map.mpr ⟨deleteFile, List.mem_filterMap.mpr ⟨row, scanned, ?_⟩, ?_⟩
    · rw [sameFile]
      exact current
    · exact keyed.deleteFiles dataFileId deleteFile current

/-- A drop that has seen the current files of its tables leaves no file without its owner. -/
theorem TableCommit.transact_filesOwned {tableOperation : TableOperation} {commit : TableCommit} {store next : FdbStore}
    (prepares : tableOperation.prepare = .ok (some commit)) (transacts : commit.transact store = some next)
    (owned : FilesOwned store) (keyed : ∀ seen ∈ tableOperation.reads, seen.currentFiles.Keyed)
    (sees : ∀ dropped ∈ tableOperation.droppedTables, SeesFiles store dropped.1 dropped.2.tableId) :
    FilesOwned next := by
  have drops := TableOperation.prepare_drops prepares
  have taken := commit.transact_takesOut transacts
  have takes : ∀ drop ∈ commit.drops, ∀ key : TableFileKey, key.tableId = drop.table.tableId →
      (store.kv.currentDataFile.get? key).isSome →
      key ∈ drop.dataFileKeys ∧
        ((store.kv.currentDeleteFile.get? key.dataFileId).isSome → key.dataFileId ∈ drop.deletedFrom) := by
    intro drop member key sameTable present
    obtain ⟨⟨seen, table⟩, listed, read, rfl⟩ := drops drop member
    obtain ⟨tableId, dataFileId⟩ := key
    obtain rfl : tableId = table.tableId := sameTable
    have seesFiles := sees _ listed
    have prepared := (@prepareTableDrop_takes seen table (keyed seen read)).2 dataFileId
      (seesFiles.dataFiles dataFileId present)
    exact ⟨prepared.1, fun deleted => prepared.2 (seesFiles.deleteFiles dataFileId present deleted)⟩
  constructor
  · intro key present
    have current := taken.dataFiles key
    dsimp only [FdbStore.currentFiles] at current
    rw [current] at present
    split at present
    · cases present
    · rename_i kept
      refine TableCommit.transact_rows transacts ?_ (owned.dataFiles key present)
      intro drop member sameTable
      exact kept (List.mem_flatMap.mpr ⟨drop, member, (takes drop member key sameTable.symm present).1⟩)
  · intro dataFileId present
    have current := taken.deleteFiles dataFileId
    dsimp only [FdbStore.currentFiles] at current
    rw [current] at present
    split at present
    · cases present
    · rename_i kept
      obtain ⟨tableId, isCurrent⟩ := owned.deleteFiles dataFileId present
      refine ⟨tableId, ?_⟩
      have dataFile := taken.dataFiles ⟨tableId, dataFileId⟩
      dsimp only [FdbStore.currentFiles] at dataFile
      rw [dataFile, if_neg]
      · exact isCurrent
      · intro listed
        obtain ⟨drop, member, inDrop⟩ := List.mem_flatMap.mp listed
        obtain ⟨⟨seen, table⟩, _, read, same⟩ := drops drop member
        have sameTable : tableId = drop.table.tableId := by
          rw [same] at inDrop ⊢
          exact (prepareTableDrop_takes (keyed seen read)).1 _ inDrop
        have taken := (takes drop member ⟨tableId, dataFileId⟩ sameTable isCurrent).2 present
        exact kept (List.mem_flatMap.mpr ⟨drop, member, taken⟩)

/-! ## Mutations -/

variable {attempt : MutationAttempt} {store next : FdbStore}

section

variable (applied : AppliedMutation attempt store next)

include applied

theorem AppliedMutation.filesKeyed (keyed : store.currentFiles.Keyed) :
    next.currentFiles.Keyed := by
  obtain ⟨appended, appends, kept, _⟩ := applied.currentDataFiles
  constructor
  · intro key row found
    rcases appends.origin key row (kept key row found) with before | ⟨given, member, _, sameKey, sameEnd⟩
    · exact keyed.dataFiles key row before
    · refine ⟨sameKey, sameEnd.trans ?_⟩
      rw [prepareDataMutation_mutation applied.prepares] at member
      obtain ⟨row, _, rfl⟩ := List.mem_map.mp member
      unfold preparedDataFile
      split
      · rfl
      · rfl
  · intro dataFileId
    refine applied.currentDeleteFile (fun current => ∀ row, current = some row → row.dataFileId = dataFileId)
      (keyed.deleteFiles dataFileId) (fun _ _ found => nomatch found) ?_
    intro row _ sameFile current timelineOrder _ staged same
    rw [← Option.some.inj same]
    refine Eq.trans ?_ sameFile
    cases current.map fun current => current.validity.beginOrder with
    | none
    | some beginOrder =>
      unfold stampedDeleteFile
      split
      · rfl
      · rfl

theorem AppliedMutation.currentDeleteFile_of_expired
    {dataFileId : DataFileId}
    (expired : dataFileId ∈ applied.plan.expiredDeleteFiles.map fun expired => expired.deleteFile.dataFileId) :
    next.kv.currentDeleteFile.get? dataFileId = none := by
  obtain ⟨opening⟩ := applied.opening
  rw [opening.ends]
  change opening.filed.currentDeleteFile.get? dataFileId = none
  rw [opening.files.expires, stageExpiredDeleteFiles_current, if_pos expired]

/-- The mutation has loaded the committed files that it deletes from. -/
theorem AppliedMutation.deleteTarget_known {dataFileId : DataFileId}
    (deletes : dataFileId ∈ applied.plan.mutation.deleteFiles.map DeleteFileRow.dataFileId)
    (committed : dataFileId ∉ applied.plan.mutation.dataFiles.map DataFileRow.dataFileId) :
    ∃ row, applied.prepared.dataFileContext.get? dataFileId = some row ∧ row.dataFileId = dataFileId := by
  obtain ⟨active, listed, _⟩ := applied.active
  unfold activeTargets at listed
  rw [bind_eq_ok] at listed
  obtain ⟨rows, loads, _⟩ := listed
  have wanted : dataFileId ∈ targetIds applied.prepared.mutation := by
    rw [prepareDataMutation_mutation applied.prepares, mem_targetIds, prepared_dataFile_ids,
      prepared_deleteFile_dataFileIds]
    exact ⟨List.mem_append_left _ deletes, committed⟩
  obtain ⟨row, _, loaded⟩ := mapM_accepts loads wanted
  unfold MutationDataFileContext.load at loaded
  cases known : applied.prepared.dataFileContext.get? dataFileId with
  | none =>
    rw [known] at loaded
    cases loaded
  | some found =>
    exact ⟨found, rfl, prepareDataMutation_keyed applied.prepares dataFileId found known⟩

/-- A mutation that knows the files it deletes from leaves no file without its owner. -/
theorem AppliedMutation.filesOwned (owned : FilesOwned store)
    (keeps : KeepsOwners store attempt applied.plan) : FilesOwned next := by
  obtain ⟨appended, appends, origin, keptFiles⟩ := applied.currentDataFiles
  have sameMutation := prepareDataMutation_mutation applied.prepares
  constructor
  · intro key present
    obtain ⟨row, found⟩ := Option.isSome_iff_exists.mp present
    rcases appends.origin key row (origin key row found) with before | ⟨given, member, rfl, _⟩
    · exact applied.rows (owned.dataFiles key (Option.isSome_of_mem before))
    · exact applied.rows (applied.append_table member)
  · intro dataFileId present
    by_cases deletes : dataFileId ∈ applied.plan.mutation.deleteFiles.map DeleteFileRow.dataFileId
    · have notDropped : dataFileId ∉ applied.plan.mutation.droppedDataFileIds :=
        fun dropped => (keeps.expires dataFileId dropped).1 deletes
      by_cases appendsFile : dataFileId ∈ applied.plan.mutation.dataFiles.map DataFileRow.dataFileId
      · rw [← prepared_dataFile_ids, ← sameMutation] at appendsFile
        obtain ⟨row, member, rfl⟩ := List.mem_map.mp appendsFile
        refine ⟨row.tableId, ?_⟩
        rw [keptFiles ⟨row.tableId, row.dataFileId⟩ notDropped]
        exact appends.present row member
      · obtain ⟨row, known, rfl⟩ := applied.deleteTarget_known deletes appendsFile
        have target : ValidatedTarget applied.plan applied.prepared row :=
          ⟨List.mem_append_left _ deletes, appendsFile, known, keeps.begun _ applied.prepares _ deletes row known⟩
        refine ⟨row.tableId, ?_⟩
        rw [keptFiles ⟨row.tableId, row.dataFileId⟩ notDropped]
        exact appends.kept _ (applied.target_current target)
    · have before : (store.kv.currentDeleteFile.get? dataFileId).isSome := by
        refine applied.currentDeleteFile (fun current => current.isSome →
          (store.kv.currentDeleteFile.get? dataFileId).isSome) id (fun _ none => nomatch none) ?_ present
        intro row member sameFile
        exact absurd (List.mem_map.mpr ⟨row, member, sameFile⟩) deletes
      have notDropped : dataFileId ∉ applied.plan.mutation.droppedDataFileIds := by
        intro dropped
        rw [applied.currentDeleteFile_of_expired ((keeps.expires dataFileId dropped).2 before)] at present
        cases present
      obtain ⟨tableId, isCurrent⟩ := owned.deleteFiles dataFileId before
      refine ⟨tableId, ?_⟩
      rw [keptFiles ⟨tableId, dataFileId⟩ notDropped]
      exact appends.kept _ isCurrent

end

/-! ## Runs -/

theorem FdbCommit.Applies.rows {commit : FdbCommit} (applies : commit.Applies store next) {tableId : TableId}
    (found : (store.kv.currentTableRow.get? tableId).isSome) : (next.kv.currentTableRow.get? tableId).isSome := by
  cases commit with
  | dataMutation attempt =>
    obtain ⟨applied⟩ := transact_staged applies
    exact applied.rows found
  | inlineRows seen now mutation context =>
    simp only [FdbCommit.Applies, commitInlineTableMutations, bind_eq_ok, pure_eq_ok] at applies
    obtain ⟨prepared, _, staged, stages, rfl⟩ := applies
    have kept := stagePreparedInlineMutation_rows stages found
    exact kept
  | inlineDeletes seen now delete commitSnapshot =>
    obtain ⟨latest, _, target, _, rfl⟩ := commitDeleteInlineTableRows_ok applies
    have deleted := fun opened : FdbStore => congrArg TableView.rows (stageInlineDelete_tableView
      target.snapshot.order opened (prepareInlineDelete seen target.snapshot.sequence delete))
    change ((stageInlineDelete _ _ _).tableView.rows.get? tableId).isSome
    rw [deleted]
    split
    · exact found
    · exact found
  | fileIds count =>
    obtain ⟨first, reserves⟩ := applies
    obtain ⟨_, rfl⟩ := reserveFileIdRange_ok reserves
    exact found

/-- The files of a state stand under their keys and have their owners. -/
structure OwnedFiles (moment : SharedMoment) : Prop where
  owned : FilesOwned moment.store
  keyed : moment.store.currentFiles.Keyed

theorem SharedStep.ownedFiles {history : SharedHistory} {moment : SharedMoment}
    (before : ∀ state ∈ history.states, OwnedFiles state) (step : SharedStep history moment)
    (keeps : StepKeepsOwners history moment) : OwnedFiles moment := by
  obtain ⟨action, acts, reads, applies⟩ := step
  obtain ⟨owned, keyed⟩ := before _ history.current_mem
  cases action with
  | tables tableOperation commit =>
    obtain ⟨prepares, transacts⟩ := applies
    refine ⟨commit.transact_filesOwned prepares transacts owned ?_ (keeps.1 tableOperation commit acts), ?_⟩
    · intro seen read
      obtain ⟨state, member, rfl⟩ := List.mem_map.mp (reads seen read)
      exact (before state member).keyed
    · exact keyed.takesOut (commit.transact_takesOut transacts)
  | files commit =>
    rcases applies.cases with ⟨attempt, rfl, ⟨applied⟩⟩ | ⟨_, left⟩
    · exact ⟨applied.filesOwned owned (keeps.2 attempt applied.plan acts applied.reserves), applied.filesKeyed keyed⟩
    · refine ⟨⟨fun key present => ?_, fun dataFileId present => ?_⟩, ?_⟩
      · rw [left.files.currentDataFile] at present
        exact FdbCommit.Applies.rows applies (owned.dataFiles key present)
      · rw [left.files.currentDeleteFile] at present
        rw [left.files.currentDataFile]
        exact owned.deleteFiles dataFileId present
      · unfold FdbStore.currentFiles
        rw [left.files.currentDataFile, left.files.currentDeleteFile]
        exact keyed

/-- While drops see the files of their tables and mutations know the files they delete from,
every current file has its owner. -/
theorem droppedTables_leave_no_files {history : SharedHistory} (run : DropRun history)
    (keeps : ∀ earlier moment, history.Took earlier moment → StepKeepsOwners earlier moment) :
    ∀ moment ∈ history.states, FilesOwned moment.store := by
  have restricted := run.restrict StepKeepsOwners keeps
  intro moment member
  refine (restricted.invariant OwnedFiles ?_ ?_ moment member).owned
  · exact fun state starts => ⟨starts.2.1, starts.2.2⟩
  · exact fun history next before step => SharedStep.ownedFiles before step.1 step.2

/-! ## A drop beside an append -/

def inventoryAppender : MutationAttempt :=
  { plan := { mutation := { dataFiles := [inventoryFile] } }, recoveryId := none, seen := inventoryStore }

def inventoryFiled : SharedHistory :=
  (History.start ⟨inventoryStore, none⟩).extend (.mutating inventoryStore inventoryAppender)

def dropInventory (seen : FdbStore) : TableOperation := .dropTables seen 0 [1] none

def inventoryTableDropped (seen : FdbStore) : SharedHistory :=
  inventoryFiled.extend (.operating inventoryFiled.current.store (dropInventory seen))

theorem inventoryAppender_step :
    SharedStep (History.start ⟨inventoryStore, none⟩) (.mutating inventoryStore inventoryAppender) ∧
      (SharedMoment.mutating inventoryStore inventoryAppender).action = some (.files (.dataMutation inventoryAppender)) :=
  SharedMoment.mutating_step (History.start ⟨inventoryStore, none⟩) inventoryAppender (List.mem_singleton_self _)
    (by decide +kernel)

theorem inventoryFiled_run : DropRun inventoryFiled := by
  refine History.Reachable.step (History.Reachable.start ⟨rfl, ⟨?_, ?_⟩, ⟨?_, ?_⟩⟩) inventoryAppender_step.1
  · exact fun key found => nomatch found
  · exact fun dataFileId found => nomatch found
  · exact fun key row found => nomatch found
  · exact fun dataFileId row found => nomatch found

theorem dropInventory_step {seen : FdbStore} (read : seen ∈ inventoryFiled.states.map SharedMoment.store)
    (commits : (inventoryTableDropped seen).current.action.isSome) :
    SharedStep inventoryFiled (inventoryTableDropped seen).current ∧
      ∀ action, (inventoryTableDropped seen).current.action = some action →
        ∃ commit, action = .tables (dropInventory seen) commit :=
  SharedMoment.operating_step inventoryFiled (dropInventory seen)
    (by simpa [dropInventory, TableOperation.reads] using read) commits

/-- A drop that has read the appended file takes it out with its table. -/
theorem droppedTables_leave_no_files_inventory :
    (inventoryFiled.current.store.kv.currentDataFile.get? ⟨1, 0⟩).isSome ∧
      ∀ moment ∈ (inventoryTableDropped inventoryFiled.current.store).states, FilesOwned moment.store := by
  refine ⟨by decide +kernel, ?_⟩
  have drops := @dropInventory_step inventoryFiled.current.store (List.mem_map_of_mem inventoryFiled.current_mem)
    (by decide +kernel)
  refine droppedTables_leave_no_files (inventoryFiled_run.step drops.1) ?_
  intro earlier moment took
  rcases History.took_extend.mp took with ⟨rfl, rfl⟩ | took
  · constructor
    · intro tableOperation commit acts dropped listed
      obtain ⟨commit, same⟩ := drops.2 _ acts
      obtain ⟨rfl, _⟩ := SharedAction.tables.inj same
      obtain ⟨tableId, _, found⟩ := List.mem_filterMap.mp listed
      obtain ⟨table, _, rfl⟩ := Option.map_eq_some_iff.mp found
      exact ⟨fun _ present => present, fun _ _ present => present⟩
    · intro attempt plan acts
      obtain ⟨commit, same⟩ := drops.2 _ acts
      cases same
  · rcases History.took_extend.mp took with ⟨rfl, rfl⟩ | took
    · have acts := inventoryAppender_step.2
      constructor
      · intro tableOperation commit isTables
        exact nomatch Option.some.inj (acts.symm.trans isTables)
      · intro attempt plan isFiles reserves
        obtain rfl : inventoryAppender = attempt := by simpa using acts.symm.trans isFiles
        have reserved : inventoryAppender.reserved = .ok inventoryAppender.plan := rfl
        obtain rfl : inventoryAppender.plan = plan := Except.ok.inj (reserved.symm.trans reserves)
        constructor
        · exact fun _ _ dataFileId deletes => absurd deletes List.not_mem_nil
        · exact fun dataFileId dropped => absurd dropped List.not_mem_nil
    · exact absurd took (History.not_took_start _ _ _)

/-- A drop that has read its table before the append leaves the appended file current. -/
theorem droppedTable_keeps_file :
    ¬∀ history, DropRun history → ∀ moment ∈ history.states, FilesOwned moment.store := by
  intro owned
  have drops := @dropInventory_step inventoryStore (by simp [inventoryFiled]) (by decide +kernel)
  have files := owned _ (inventoryFiled_run.step drops.1) _ (History.current_mem _)
  have table := files.dataFiles ⟨1, 0⟩ (by decide +kernel)
  exact absurd table (by decide +kernel)

end DucklakeCatalog.Fdb
