import DucklakeCatalog.File.Listing
import DucklakeCatalog.Table.Store

namespace DucklakeCatalog

open KeyedStore

structure DeleteFileCleanupRow where
  deleteFile : DeleteFileRow
  tableId : TableId
  deriving DecidableEq, Repr

structure ScheduledDataFileCleanupRow where
  dataFile : DataFileRow
  scheduleStartMicros : Int
  cleanupKind : ScheduledDataFileCleanupKind
  deriving DecidableEq, Repr

structure ScheduledDeleteFileCleanupRow where
  deleteFile : DeleteFileRow
  tableId : TableId
  scheduleStartMicros : Int
  deriving DecidableEq, Repr

/-! ## Schedules -/

def stageScheduledDataFileCleanupWithKind (batch : KvBatch) (dataFileId : DataFileId)
    (cleanupKind : ScheduledDataFileCleanupKind) (now : Int) : KvBatch :=
  { batch with scheduledDataFileCleanup := batch.scheduledDataFileCleanup.put dataFileId (cleanupKind, now) }

def stageScheduledDataFileCleanup (batch : KvBatch) (dataFileId : DataFileId) (now : Int) : KvBatch :=
  stageScheduledDataFileCleanupWithKind batch dataFileId .unreachableOnly now

def stageScheduledCompactedDataFileCleanup (batch : KvBatch) (dataFileId : DataFileId) (now : Int) : KvBatch :=
  stageScheduledDataFileCleanupWithKind batch dataFileId .compactionReplacement now

def stageScheduledDeleteFileCleanup (batch : KvBatch) (tableId : TableId) (deleteFileId : DeleteFileId)
    (now : Int) : KvBatch :=
  { batch with scheduledDeleteFileCleanup := batch.scheduledDeleteFileCleanup.put deleteFileId (tableId, now) }

/-- Scheduled ids joined with their primary rows; a schedule without a row is skipped. -/
def listScheduledDataFileCleanupRows (kv : CatalogKv) : List ScheduledDataFileCleanupRow :=
  kv.scheduledDataFileCleanup.entries.filterMap fun (dataFileId, cleanupKind, scheduleStartMicros) =>
    (kv.dataFile.get? dataFileId).map fun dataFile => { dataFile, scheduleStartMicros, cleanupKind }

def listScheduledDeleteFileCleanupRows (kv : CatalogKv) : List ScheduledDeleteFileCleanupRow :=
  kv.scheduledDeleteFileCleanup.entries.filterMap fun (deleteFileId, tableId, scheduleStartMicros) =>
    (kv.deleteFile.get? deleteFileId).map fun deleteFile => { deleteFile, tableId, scheduleStartMicros }

/-! ## Data files that may be cleaned up -/

def rowIsUnreachable (row : DataFileRow) (snapshots : List SnapshotRow) : Bool :=
  row.validity.endOrder.isSome && !snapshots.any fun snapshot => dataFileVisibleAt row snapshot.order

def dataFileCovers (candidate row : DataFileRow) : Bool :=
  if candidate.tableId ≠ row.tableId ∨ ¬candidate.rowIdStartKnown ∨ ¬row.rowIdStartKnown ∨
      row.recordCount = 0 then false
  else decide (candidate.rowIdStart ≤ row.rowIdStart) && decide (row.rowIdEnd ≤ candidate.rowIdEnd)

def dataFilePartitionKey (kv : CatalogKv) (dataFileId : DataFileId) : List (Nat ×ₗ String) :=
  ((listFilePartitionValuesForDataFiles kv [dataFileId]).map fun row =>
    toLex (row.partitionKeyIndex, row.partitionValue)).insertionSort (· ≤ ·)

def partitionReplacementCovers (kv : CatalogKv) (candidate row : DataFileRow) (snapshotOrder : CatalogOrderId) :
    Bool :=
  if candidate.tableId ≠ row.tableId ∨ candidate.recordCount = 0 ∨ candidate.recordCount ≤ row.recordCount ∨
      snapshotOrder < candidate.validity.beginOrder then false
  else
    let candidateKey := dataFilePartitionKey kv candidate.dataFileId
    decide (candidateKey ≠ []) && decide (candidateKey = dataFilePartitionKey kv row.dataFileId)

def hasCoveringDataFile (kv : CatalogKv) (row : DataFileRow) (snapshotOrder : CatalogOrderId) : Bool :=
  kv.dataFile.entries.any fun (_, candidate) =>
    decide (candidate.dataFileId ≠ row.dataFileId) && decide (candidate.validity.beginOrder ≤ snapshotOrder) &&
      (dataFileCovers candidate row || partitionReplacementCovers kv candidate row snapshotOrder)

def dataFileIsSafeForPhysicalCleanup (kv : CatalogKv) (row : DataFileRow) (snapshots : List SnapshotRow) : Bool :=
  row.validity.endOrder.isSome &&
    (snapshots.filter fun snapshot => dataFileVisibleAt row snapshot.order).all fun snapshot =>
      hasCoveringDataFile kv row snapshot.order

def scheduledDataFileIsSafeForPhysicalCleanup (kv : CatalogKv) (row : ScheduledDataFileCleanupRow)
    (snapshots : List SnapshotRow) : Bool :=
  row.dataFile.validity.endOrder.isSome &&
    (decide (row.cleanupKind = .compactionReplacement) ||
      dataFileIsSafeForPhysicalCleanup kv row.dataFile snapshots)

/-- Entries whose file was not seen before, in order; a listed file is seen from then on. -/
def unseenEntries (fileId : α → Nat) (seen : List Nat) : List α → List α
  | [] => []
  | entry :: rest =>
    if fileId entry ∈ seen then unseenEntries fileId seen rest
    else entry :: unseenEntries fileId (fileId entry :: seen) rest

theorem mem_of_mem_unseenEntries {fileId : α → Nat} {entries : List α} {seen : List Nat}
    (member : entry ∈ unseenEntries fileId seen entries) : entry ∈ entries := by
  induction entries generalizing seen with
  | nil => exact member
  | cons first rest ih =>
    simp only [unseenEntries] at member
    split at member
    · exact List.mem_cons_of_mem _ (ih member)
    · rcases List.mem_cons.mp member with rfl | later
      · exact List.mem_cons_self
      · exact List.mem_cons_of_mem _ (ih later)

def listOldDataFilesForCleanup (kv : CatalogKv) : CatalogResult (List DataFileRow) := do
  let snapshots ← listSnapshots kv
  let scheduled := ((listScheduledDataFileCleanupRows kv).filter fun row =>
    scheduledDataFileIsSafeForPhysicalCleanup kv row snapshots).map ScheduledDataFileCleanupRow.dataFile
  let ended := (unseenEntries TableOrderKey.fileId (scheduled.map DataFileRow.dataFileId)
      (kv.dataFileEnd.entries.map Prod.fst)).filterMap fun key =>
    (kv.dataFile.get? key.fileId).filter fun row => rowIsUnreachable row snapshots
  return scheduled ++ ended

/-! ## Delete files that may be cleaned up -/

inductive DeleteFilePhysicalCleanupDecision where
  | notCleanupCandidate
  | cleanupCandidateStillNeededByRetainedSnapshot
  | safeToRemove
  deriving DecidableEq, Repr

def deleteFileTimelineOrders (kv : CatalogKv) (row : DeleteFileRow) : List CatalogOrderId :=
  ((kv.deleteFileTimeline.scan fun key => key.dataFileId = row.dataFileId).filter fun entry =>
    entry.2.deleteFileId = row.deleteFileId).map fun entry => entry.1.order

def deleteFileAnswersAnyRetainedSnapshot (kv : CatalogKv) (row : DeleteFileRow) (snapshots : List SnapshotRow) :
    Bool :=
  ((deleteFileTimelineOrders kv row).any fun timelineOrder =>
      snapshots.any fun snapshot => deleteFileCanAnswerSnapshot row timelineOrder snapshot.order) ||
    snapshots.any fun snapshot => row.validity.isVisibleAt snapshot.order

def deleteFilePhysicalCleanupDecision (kv : CatalogKv) (row : DeleteFileRow) (snapshots : List SnapshotRow) :
    DeleteFilePhysicalCleanupDecision :=
  if row.validity.endOrder.isNone then .notCleanupCandidate
  else if deleteFileAnswersAnyRetainedSnapshot kv row snapshots then
    .cleanupCandidateStillNeededByRetainedSnapshot
  else .safeToRemove

def deleteFileIsSafeForPhysicalCleanup (kv : CatalogKv) (row : DeleteFileRow) (snapshots : List SnapshotRow) :
    Bool :=
  decide (deleteFilePhysicalCleanupDecision kv row snapshots = .safeToRemove)

/-- A delete file that is safe to clean up ends by every retained snapshot it began before. -/
theorem deleteFileIsSafeForPhysicalCleanup_ended {kv : CatalogKv} {row : DeleteFileRow}
    {snapshots : List SnapshotRow} {snapshot : SnapshotRow} {endOrder : CatalogOrderId}
    (safe : deleteFileIsSafeForPhysicalCleanup kv row snapshots = true) (member : snapshot ∈ snapshots)
    (begun : row.validity.beginOrder ≤ snapshot.order) (closes : row.validity.endOrder = some endOrder) :
    endOrder ≤ snapshot.order := by
  refine not_lt.mp ?_
  intro later
  have visible : row.validity.isVisibleAt snapshot.order = true := by
    refine ValidityWindow.isVisibleAt_iff.mpr ⟨begun, ?_⟩
    intro other closesAt
    obtain rfl := Option.some.inj (closes.symm.trans closesAt)
    exact later
  have answers : deleteFileAnswersAnyRetainedSnapshot kv row snapshots = true := by
    unfold deleteFileAnswersAnyRetainedSnapshot
    rw [Bool.or_eq_true]
    exact Or.inr (List.any_eq_true.mpr ⟨snapshot, member, visible⟩)
  simp [deleteFileIsSafeForPhysicalCleanup, deleteFilePhysicalCleanupDecision, closes, answers] at safe

def sourceDataFileHasCompactionReplacementCleanup (kv : CatalogKv) (dataFileId : DataFileId) : Bool :=
  (kv.scheduledDataFileCleanup.get? dataFileId).any fun scheduled =>
    decide (scheduled.1 = .compactionReplacement)

/-- Delete files of a compacted source may go while retained snapshots still see them. -/
def deleteFileCleanupIsAllowed (kv : CatalogKv) (row : DeleteFileRow) (snapshots : List SnapshotRow) : Bool :=
  deleteFileIsSafeForPhysicalCleanup kv row snapshots ||
    sourceDataFileHasCompactionReplacementCleanup kv row.dataFileId

def listOldDeleteFilesForCleanup (kv : CatalogKv) : CatalogResult (List DeleteFileCleanupRow) := do
  let snapshots ← listSnapshots kv
  let scheduled := (listScheduledDeleteFileCleanupRows kv).filter fun row =>
    row.deleteFile.validity.endOrder.isSome && deleteFileCleanupIsAllowed kv row.deleteFile snapshots
  let ended := (unseenEntries TableOrderKey.fileId (scheduled.map fun row => row.deleteFile.deleteFileId)
      (kv.deleteFileEnd.entries.map Prod.fst)).filterMap fun key =>
    ((kv.deleteFile.get? key.fileId).filter fun row =>
      row.validity.endOrder.isSome && deleteFileCleanupIsAllowed kv row snapshots).map fun row =>
        DeleteFileCleanupRow.mk row key.tableId
  return scheduled.map (fun row => ⟨row.deleteFile, row.tableId⟩) ++ ended

/-! ## Removal -/

def stageRemoveUnreachableTableMetadata (kv : CatalogKv) (batch : KvBatch) (tableId : TableId)
    (snapshots : List SnapshotRow) : KvBatch :=
  let stored := kv.tableObject.scan fun key => key.tableId = tableId
  let tableRows := stored.map fun (key, row) => { row with validity := { row.validity with beginOrder := key.order } }
  if tableRows = [] ∨ tableRows.any fun row =>
      snapshots.any fun snapshot => row.validity.isVisibleAt snapshot.order then
    batch
  else
    { batch with
      tableVisibility := batch.tableVisibility.deleteAll
        (tableRows.map fun row => ⟨row.validity.beginOrder, row.tableId⟩)
      currentTableRow := batch.currentTableRow.delete tableId
      tableObject := batch.tableObject.deleteAll (stored.map Prod.fst) }

def stageRemoveDataFileMetadata (kv : CatalogKv) (batch : KvBatch) (row : DataFileRow) : KvBatch :=
  let batch := { batch with
    dataFile := batch.dataFile.delete row.dataFileId
    dataFileBegin := batch.dataFileBegin.delete ⟨row.tableId, row.validity.beginOrder, row.dataFileId⟩
    dataFileEnd := row.validity.endOrder.elim batch.dataFileEnd fun endOrder =>
      batch.dataFileEnd.delete ⟨row.tableId, endOrder, row.dataFileId⟩
    currentDataFile := batch.currentDataFile.delete ⟨row.tableId, row.dataFileId⟩ }
  deletePartitionValuesForDataFile kv (stageRemoveFileColumnStats kv batch row.dataFileId) row.dataFileId

def stageRemoveOldDataFile (kv : CatalogKv) (snapshots : List SnapshotRow) (batch : KvBatch) (row : DataFileRow) :
    KvBatch :=
  let batch :=
    if (kv.scheduledDataFileCleanup.get? row.dataFileId).isSome then
      { batch with scheduledDataFileCleanup := batch.scheduledDataFileCleanup.delete row.dataFileId }
    else batch
  -- A compacted source may be listed while a retained snapshot still sees it; then only its schedule goes.
  if rowIsUnreachable row snapshots then stageRemoveDataFileMetadata kv batch row else batch

def stageRemoveUnreachableTables (kv : CatalogKv) (batch : KvBatch) (tableIds : List TableId)
    (snapshots : List SnapshotRow) : KvBatch :=
  (tableIds.dedup.insertionSort (· ≤ ·)).foldl
    (fun batch tableId => stageRemoveUnreachableTableMetadata kv batch tableId snapshots) batch

theorem stageRemoveUnreachableTableMetadata_changes (kv : CatalogKv) (batch : KvBatch) (tableId : TableId)
    (snapshots : List SnapshotRow) :
    batch.ChangesTables (stageRemoveUnreachableTableMetadata kv batch tableId snapshots) := by
  unfold stageRemoveUnreachableTableMetadata
  extract_lets stored tableRows
  split
  · exact ⟨_, _, _, rfl⟩
  · exact ⟨_, _, _, rfl⟩

theorem stageRemoveUnreachableTables_changes (kv : CatalogKv) (batch : KvBatch) (tableIds : List TableId)
    (snapshots : List SnapshotRow) :
    batch.ChangesTables (stageRemoveUnreachableTables kv batch tableIds snapshots) :=
  foldl_relates (fun _ => ⟨_, _, _, rfl⟩) (fun left right => left.trans right)
    (fun batch tableId => stageRemoveUnreachableTableMetadata_changes kv batch tableId snapshots) _ _

def stageRemoveOldDataFiles (kv : CatalogKv) (dataFileIds : List DataFileId) :
    CatalogResult (List DataFileRow × KvBatch) := do
  let cleanupRows ← listOldDataFilesForCleanup kv
  let snapshots ← listSnapshots kv
  let rows := cleanupRows.filter fun row => row.dataFileId ∈ dataFileIds
  let batch := rows.foldl (stageRemoveOldDataFile kv snapshots) {}
  return (rows, stageRemoveUnreachableTables kv batch (rows.map DataFileRow.tableId) snapshots)

def removeOldDataFiles (kv : CatalogKv) (dataFileIds : List DataFileId) :
    CatalogResult (List DataFileRow × CatalogKv) :=
  if dataFileIds = [] then
    .ok ([], kv)
  else do
    let (rows, batch) ← stageRemoveOldDataFiles kv dataFileIds
    return (rows, kv.commit batch)

/-- The index keys are rebuilt from the row, at its begin order. -/
def stageRemoveDeleteFileMetadata (batch : KvBatch) (row : DeleteFileCleanupRow) : KvBatch :=
  let deleteFile := row.deleteFile
  let beginOrder := deleteFile.validity.beginOrder
  { batch with
    deleteFile := batch.deleteFile.delete deleteFile.deleteFileId
    deleteFileTimeline :=
      batch.deleteFileTimeline.delete ⟨deleteFile.dataFileId, beginOrder, deleteFile.deleteFileId⟩
    tableDeleteFileChange := batch.tableDeleteFileChange.delete ⟨row.tableId, beginOrder, deleteFile.deleteFileId⟩
    orderDeleteFileChange := batch.orderDeleteFileChange.delete ⟨beginOrder, row.tableId, deleteFile.deleteFileId⟩
    deleteFileEnd := deleteFile.validity.endOrder.elim batch.deleteFileEnd fun endOrder =>
      batch.deleteFileEnd.delete ⟨row.tableId, endOrder, deleteFile.deleteFileId⟩ }

def stageRemoveOldDeleteFile (kv : CatalogKv) (batch : KvBatch) (row : DeleteFileCleanupRow) : KvBatch :=
  let batch :=
    if (kv.scheduledDeleteFileCleanup.get? row.deleteFile.deleteFileId).isSome then
      { batch with
        scheduledDeleteFileCleanup := batch.scheduledDeleteFileCleanup.delete row.deleteFile.deleteFileId }
    else batch
  stageRemoveDeleteFileMetadata batch row

def stageRemoveOldDeleteFiles (kv : CatalogKv) (deleteFileIds : List DeleteFileId) :
    CatalogResult (List DeleteFileCleanupRow × KvBatch) := do
  let cleanupRows ← listOldDeleteFilesForCleanup kv
  let snapshots ← listSnapshots kv
  let rows := cleanupRows.filter fun row =>
    decide (row.deleteFile.deleteFileId ∈ deleteFileIds) &&
      deleteFileCleanupIsAllowed kv row.deleteFile snapshots
  let batch := rows.foldl (stageRemoveOldDeleteFile kv) {}
  return (rows, stageRemoveUnreachableTables kv batch (rows.map DeleteFileCleanupRow.tableId) snapshots)

def removeOldDeleteFiles (kv : CatalogKv) (deleteFileIds : List DeleteFileId) :
    CatalogResult (List DeleteFileCleanupRow × CatalogKv) :=
  if deleteFileIds = [] then
    .ok ([], kv)
  else do
    let (rows, batch) ← stageRemoveOldDeleteFiles kv deleteFileIds
    return (rows, kv.commit batch)

/-! ## What removal leaves alone -/

/-- Removing a data file touches its own indexes, its partition values, its statistics and its schedule. -/
def KvBatch.ErasesDataFiles (before after : KvBatch) : Prop :=
  ∃ files current begins ends values lookups stats statsLookups tableVersions catalogVersion scheduled, after =
    { before with
      dataFile := files, currentDataFile := current, dataFileBegin := begins, dataFileEnd := ends
      filePartitionValue := values, partitionValueLookup := lookups
      fileColumnStats := stats, fileColumnStatsLookup := statsLookups
      tableFileStatsVersion := tableVersions, catalogFileStatsVersion := catalogVersion
      scheduledDataFileCleanup := scheduled }

theorem KvBatch.ErasesDataFiles.trans {first second third : KvBatch} (left : first.ErasesDataFiles second)
    (right : second.ErasesDataFiles third) : first.ErasesDataFiles third := by
  obtain ⟨_, _, _, _, _, _, _, _, _, _, _, rfl⟩ := left
  obtain ⟨_, _, _, _, _, _, _, _, _, _, _, rfl⟩ := right
  exact ⟨_, _, _, _, _, _, _, _, _, _, _, rfl⟩

theorem stageRemoveOldDataFile_changes (kv : CatalogKv) (snapshots : List SnapshotRow) (batch : KvBatch)
    (row : DataFileRow) : batch.ErasesDataFiles (stageRemoveOldDataFile kv snapshots batch row) := by
  unfold stageRemoveOldDataFile
  extract_lets unscheduled
  have opening : batch.ErasesDataFiles unscheduled := by
    simp only [unscheduled]
    split
    · exact ⟨_, _, _, _, _, _, _, _, _, _, _, rfl⟩
    · exact ⟨_, _, _, _, _, _, _, _, _, _, _, rfl⟩
  split
  · refine opening.trans ?_
    unfold stageRemoveDataFileMetadata
    extract_lets erased
    obtain ⟨_, _, _, _, stats⟩ := stageRemoveFileColumnStats_changes kv erased row.dataFileId
    obtain ⟨_, _, values⟩ := deletePartitionValuesForDataFile_changes kv
      (stageRemoveFileColumnStats kv erased row.dataFileId) row.dataFileId
    rw [values, stats]
    exact ⟨_, _, _, _, _, _, _, _, _, _, _, rfl⟩
  · exact opening

theorem foldl_stageRemoveOldDataFile_changes (kv : CatalogKv) (snapshots : List SnapshotRow) (rows : List DataFileRow)
    (batch : KvBatch) : batch.ErasesDataFiles (rows.foldl (stageRemoveOldDataFile kv snapshots) batch) :=
  foldl_relates (fun _ => ⟨_, _, _, _, _, _, _, _, _, _, _, rfl⟩) (fun left right => left.trans right)
    (stageRemoveOldDataFile_changes kv snapshots) rows batch

/-- Removing a delete file touches its own indexes and its schedule. -/
def KvBatch.ErasesDeleteFiles (before after : KvBatch) : Prop :=
  ∃ files timeline ends tableChanges orderChanges scheduled, after =
    { before with
      deleteFile := files, deleteFileTimeline := timeline, deleteFileEnd := ends
      tableDeleteFileChange := tableChanges, orderDeleteFileChange := orderChanges
      scheduledDeleteFileCleanup := scheduled }

theorem KvBatch.ErasesDeleteFiles.trans {first second third : KvBatch} (left : first.ErasesDeleteFiles second)
    (right : second.ErasesDeleteFiles third) : first.ErasesDeleteFiles third := by
  obtain ⟨_, _, _, _, _, _, rfl⟩ := left
  obtain ⟨_, _, _, _, _, _, rfl⟩ := right
  exact ⟨_, _, _, _, _, _, rfl⟩

theorem stageRemoveOldDeleteFile_changes (kv : CatalogKv) (batch : KvBatch) (row : DeleteFileCleanupRow) :
    batch.ErasesDeleteFiles (stageRemoveOldDeleteFile kv batch row) := by
  unfold stageRemoveOldDeleteFile
  split
  · exact ⟨_, _, _, _, _, _, rfl⟩
  · exact ⟨_, _, _, _, _, _, rfl⟩

theorem foldl_stageRemoveOldDeleteFile_changes (kv : CatalogKv) (rows : List DeleteFileCleanupRow) (batch : KvBatch) :
    batch.ErasesDeleteFiles (rows.foldl (stageRemoveOldDeleteFile kv) batch) :=
  foldl_relates (fun _ => ⟨_, _, _, _, _, _, rfl⟩) (fun left right => left.trans right)
    (stageRemoveOldDeleteFile_changes kv) rows batch

section

variable {kv : CatalogKv} {batch : KvBatch} {dataFileIds : List DataFileId} {deleteFileIds : List DeleteFileId}

theorem stageRemoveOldDataFiles_ok {removed : List DataFileRow}
    (staged : stageRemoveOldDataFiles kv dataFileIds = .ok (removed, batch)) :
    ∃ rows, listOldDataFilesForCleanup kv = .ok rows ∧ ∃ snapshots, listSnapshots kv = .ok snapshots ∧
      (rows.filter fun row => row.dataFileId ∈ dataFileIds) = removed ∧
      stageRemoveUnreachableTables kv (removed.foldl (stageRemoveOldDataFile kv snapshots) {})
        (removed.map DataFileRow.tableId) snapshots = batch := by
  unfold stageRemoveOldDataFiles at staged
  simp only [bind_eq_ok, pure_eq_ok, Prod.mk.injEq] at staged
  obtain ⟨rows, listed, snapshots, retained, rfl, rfl⟩ := staged
  exact ⟨rows, listed, snapshots, retained, rfl, rfl⟩

theorem stageRemoveOldDataFiles_changes {removed : List DataFileRow}
    (staged : stageRemoveOldDataFiles kv dataFileIds = .ok (removed, batch)) :
    ∃ files, ({} : KvBatch).ErasesDataFiles files ∧ files.ChangesTables batch := by
  obtain ⟨rows, _, snapshots, _, rfl, rfl⟩ := stageRemoveOldDataFiles_ok staged
  exact ⟨_, foldl_stageRemoveOldDataFile_changes kv snapshots _ {}, stageRemoveUnreachableTables_changes kv _ _ snapshots⟩

theorem stageRemoveOldDeleteFiles_ok {removed : List DeleteFileCleanupRow}
    (staged : stageRemoveOldDeleteFiles kv deleteFileIds = .ok (removed, batch)) :
    ∃ rows, listOldDeleteFilesForCleanup kv = .ok rows ∧ ∃ snapshots, listSnapshots kv = .ok snapshots ∧
      (rows.filter fun row => decide (row.deleteFile.deleteFileId ∈ deleteFileIds) &&
        deleteFileCleanupIsAllowed kv row.deleteFile snapshots) = removed ∧
      stageRemoveUnreachableTables kv (removed.foldl (stageRemoveOldDeleteFile kv) {})
        (removed.map DeleteFileCleanupRow.tableId) snapshots = batch := by
  unfold stageRemoveOldDeleteFiles at staged
  simp only [bind_eq_ok, pure_eq_ok, Prod.mk.injEq] at staged
  obtain ⟨rows, listed, snapshots, retained, rfl, rfl⟩ := staged
  exact ⟨rows, listed, snapshots, retained, rfl, rfl⟩

theorem stageRemoveOldDeleteFiles_changes {removed : List DeleteFileCleanupRow}
    (staged : stageRemoveOldDeleteFiles kv deleteFileIds = .ok (removed, batch)) :
    ∃ files, ({} : KvBatch).ErasesDeleteFiles files ∧ files.ChangesTables batch := by
  obtain ⟨rows, _, snapshots, _, rfl, rfl⟩ := stageRemoveOldDeleteFiles_ok staged
  exact ⟨_, foldl_stageRemoveOldDeleteFile_changes kv _ {}, stageRemoveUnreachableTables_changes kv _ _ snapshots⟩

end

end DucklakeCatalog
