import DucklakeCatalog.Run.DeleteFileRemoval
import Mathlib.Data.List.Dedup

namespace DucklakeCatalog

open KeyedStore

/-! ## Listings of a coherent store -/

/-- The current entries add nothing to the begin index of a coherent store. -/
theorem DataFileIndexes.Coherent.visibleDataFilesAt_eq {kv : CatalogKv} (coherent : kv.dataFileIndexes.Coherent)
    (tableId : TableId) (snapshotOrder : CatalogOrderId) :
    visibleDataFilesAt kv tableId snapshotOrder =
      (dataFilesBegunBy kv tableId snapshotOrder).filter fun row => dataFileVisibleAt row snapshotOrder := by
  unfold visibleDataFilesAt
  extract_lets begun seen
  have nothing : (scanCurrentDataFiles kv tableId).filter (fun row =>
      decide (row.dataFileId ∉ seen) && dataFileVisibleAt row snapshotOrder) = [] := by
    refine List.filter_eq_nil_iff.mpr ?_
    intro row listed unseen
    rw [Bool.and_eq_true, decide_eq_true_eq] at unseen
    obtain ⟨notSeen, visible⟩ := unseen
    obtain ⟨entry, scanned, rfl⟩ := List.mem_map.mp (List.mem_filter.mp listed).1
    obtain ⟨found, inTable⟩ := OrderedMap.mem_scan.mp scanned
    obtain ⟨primary, table, _⟩ := coherent.current.mp found
    let key : TableOrderKey := ⟨entry.2.tableId, entry.2.validity.beginOrder, entry.1.dataFileId⟩
    have begins : kv.dataFileBegin.get? key = some entry.2 := coherent.begins.mpr ⟨primary, rfl, rfl⟩
    have inRange : (decide (key.tableId = tableId) && decide (key.order ≤ snapshotOrder)) = true := by
      rw [Bool.and_eq_true, decide_eq_true_eq, decide_eq_true_eq]
      exact ⟨table.trans (of_decide_eq_true inTable), (ValidityWindow.isVisibleAt_iff.mp visible).1⟩
    have indexed : entry.2 ∈ dataFilesBegunBy kv tableId snapshotOrder :=
      List.mem_map.mpr ⟨(key, entry.2), OrderedMap.mem_scan.mpr ⟨begins, inRange⟩, rfl⟩
    exact notSeen (List.mem_map_of_mem (List.mem_filter.mpr ⟨indexed, visible⟩))
  rw [nothing, List.append_nil]

theorem DataFileIndexes.Coherent.mem_visibleDataFilesAt {kv : CatalogKv} (coherent : kv.dataFileIndexes.Coherent) :
    row ∈ visibleDataFilesAt kv tableId snapshotOrder ↔
      kv.dataFile.get? row.dataFileId = some row ∧ row.tableId = tableId ∧
        dataFileVisibleAt row snapshotOrder = true := by
  rw [coherent.visibleDataFilesAt_eq, List.mem_filter, dataFilesBegunBy, List.mem_map]
  constructor
  · rintro ⟨⟨⟨key, stored⟩, scanned, same⟩, visible⟩
    obtain ⟨found, inside⟩ := OrderedMap.mem_scan.mp scanned
    rw [Bool.and_eq_true, decide_eq_true_eq, decide_eq_true_eq] at inside
    obtain ⟨primary, table, begun⟩ := coherent.begins.mp found
    have whole : row = stored := by
      rw [← same, dataFileFromBeginIndexItem, ← begun]
      rfl
    subst whole
    exact ⟨coherent.named primary ▸ primary, table.trans inside.1, visible⟩
  · rintro ⟨primary, rfl, visible⟩
    refine ⟨⟨(⟨row.tableId, row.validity.beginOrder, row.dataFileId⟩, row), OrderedMap.mem_scan.mpr
      ⟨coherent.begins.mpr ⟨primary, rfl, rfl⟩, ?_⟩, rfl⟩, visible⟩
    rw [Bool.and_eq_true, decide_eq_true_eq, decide_eq_true_eq]
    exact ⟨rfl, (ValidityWindow.isVisibleAt_iff.mp visible).1⟩

/-- Two coherent stores with the same rows in sight list the same files. -/
theorem visibleDataFilesAt_congr {before after : CatalogKv} (coherent : before.dataFileIndexes.Coherent)
    (coherentAfter : after.dataFileIndexes.Coherent) {tableId : TableId} {snapshotOrder : CatalogOrderId}
    (same : ∀ dataFileId row, dataFileVisibleAt row snapshotOrder = true →
      (after.dataFile.get? dataFileId = some row ↔ before.dataFile.get? dataFileId = some row)) :
    visibleDataFilesAt after tableId snapshotOrder = visibleDataFilesAt before tableId snapshotOrder := by
  rw [coherent.visibleDataFilesAt_eq, coherentAfter.visibleDataFilesAt_eq, dataFilesBegunBy, dataFilesBegunBy,
    List.filter_map, List.filter_map]
  refine congrArg (List.map dataFileFromBeginIndexItem) (OrderedMap.filter_scan_congr ?_)
  intro key row _ visible
  have alike (found : row.validity.beginOrder = key.order) : dataFileVisibleAt row snapshotOrder = true := by
    have whole : dataFileFromBeginIndexItem (key, row) = row := by
      rw [dataFileFromBeginIndexItem, ← found]
      rfl
    rw [← whole]
    exact visible
  constructor
  · intro found
    obtain ⟨primary, table, begun⟩ := coherentAfter.begins.mp found
    exact coherent.begins.mpr ⟨(same _ _ (alike begun)).mp primary, table, begun⟩
  · intro found
    obtain ⟨primary, table, begun⟩ := coherent.begins.mp found
    exact coherentAfter.begins.mpr ⟨(same _ _ (alike begun)).mpr primary, table, begun⟩

theorem withoutBackfilledSourceDuplicates_congr {before after : CatalogKv} {rows : List DataFileRow}
    (same : ∀ row ∈ rows, filePartitionValuesOf after row.dataFileId = filePartitionValuesOf before row.dataFileId) :
    withoutBackfilledSourceDuplicates after rows = withoutBackfilledSourceDuplicates before rows := by
  have values : listFilePartitionValuesForDataFiles after
      ((rows.map DataFileRow.dataFileId).dedup.insertionSort (· ≤ ·)) =
      listFilePartitionValuesForDataFiles before
        ((rows.map DataFileRow.dataFileId).dedup.insertionSort (· ≤ ·)) := by
    unfold listFilePartitionValuesForDataFiles
    refine congrArg (List.insertionSort comparePartitionValues) (List.flatMap_congr ?_)
    intro dataFileId member
    rw [List.mem_insertionSort, List.mem_dedup] at member
    obtain ⟨row, listed, rfl⟩ := List.mem_map.mp member
    rw [same row listed]
  unfold withoutBackfilledSourceDuplicates
  rw [values]

/-! ## Removing data files -/

section

variable {kv : CatalogKv} {batch : KvBatch} {removed : List DataFileRow} {dataFileIds : List DataFileId}

theorem stageRemoveOldDataFile_values (kv : CatalogKv) (snapshots : List SnapshotRow) (batch : KvBatch)
    (row : DataFileRow) :
    (stageRemoveOldDataFile kv snapshots batch row).dataFile =
        batch.dataFile.deleteAll (if rowIsUnreachable row snapshots then [row.dataFileId] else []) ∧
      (stageRemoveOldDataFile kv snapshots batch row).filePartitionValue =
        batch.filePartitionValue.deleteAll
          (if rowIsUnreachable row snapshots then (filePartitionValuesOf kv row.dataFileId).map Prod.fst else []) := by
  unfold stageRemoveOldDataFile
  extract_lets unscheduled
  have opening : unscheduled.dataFile = batch.dataFile ∧ unscheduled.filePartitionValue = batch.filePartitionValue := by
    simp only [unscheduled]
    split
    · exact ⟨rfl, rfl⟩
    · exact ⟨rfl, rfl⟩
  split
  · unfold stageRemoveDataFileMetadata
    extract_lets erased
    obtain ⟨_, _, _, _, stats⟩ := stageRemoveFileColumnStats_changes kv erased row.dataFileId
    constructor
    · obtain ⟨_, _, values⟩ := deletePartitionValuesForDataFile_changes kv
        (stageRemoveFileColumnStats kv erased row.dataFileId) row.dataFileId
      rw [values, stats, ← opening.1]
      rfl
    · rw [deletePartitionValuesForDataFile_values, stats, ← opening.2]
  · exact opening

/-- Files that a retained snapshot sees keep their rows and partition values. -/
theorem stageRemoveOldDataFiles_reachable {snapshots : List SnapshotRow}
    (named : ∀ {dataFileId row}, kv.dataFile.get? dataFileId = some row → row.dataFileId = dataFileId)
    (staged : stageRemoveOldDataFiles kv dataFileIds = .ok (removed, batch))
    (retained : listSnapshots kv = .ok snapshots) {row : DataFileRow}
    (stored : kv.dataFile.get? row.dataFileId = some row) (reachable : rowIsUnreachable row snapshots = false) :
    (kv.commit batch).dataFile.get? row.dataFileId = some row ∧
      filePartitionValuesOf (kv.commit batch) row.dataFileId = filePartitionValuesOf kv row.dataFileId := by
  unfold stageRemoveOldDataFiles at staged
  simp only [retained, bind_eq_ok, pure, Except.pure, Except.ok.injEq, Prod.mk.injEq] at staged
  obtain ⟨rows, listed, _, rfl, rfl, rfl⟩ := staged
  have offered := listOldDataFilesForCleanup_stored named listed
  -- A removed row under the same id would be this row, which is reachable.
  have other : ∀ gone ∈ rows, rowIsUnreachable gone snapshots = true → gone.dataFileId ≠ row.dataFileId := by
    intro gone member unreachable same
    have sameRow := (offered gone member).1
    rw [same, stored] at sameRow
    obtain rfl := Option.some.inj sameRow
    simp [reachable] at unreachable
  obtain ⟨_, _, _, tables⟩ := stageRemoveUnreachableTables_changes kv
    ((rows.filter fun row => row.dataFileId ∈ dataFileIds).foldl (stageRemoveOldDataFile kv snapshots) {})
    ((rows.filter fun row => row.dataFileId ∈ dataFileIds).map DataFileRow.tableId) snapshots
  rw [tables]
  constructor
  · have deleted := Staged.foldl_deleteAll KvBatch.dataFile _
      (fun batch row => (stageRemoveOldDataFile_values kv snapshots batch row).1)
      (rows.filter fun row => row.dataFileId ∈ dataFileIds) {}
    refine (congrArg (fun staged => (kv.dataFile.commit staged).get? row.dataFileId) deleted).trans ?_
    refine (kv.dataFile.get?_commit_deleteAll _).mpr ⟨stored, ?_⟩
    intro member
    obtain ⟨gone, listed, named⟩ := List.mem_flatMap.mp member
    split at named
    · rename_i unreachable
      exact other gone (List.mem_filter.mp listed).1 unreachable (List.mem_singleton.mp named).symm
    · exact List.not_mem_nil named
  · have deleted := Staged.foldl_deleteAll KvBatch.filePartitionValue _
      (fun batch row => (stageRemoveOldDataFile_values kv snapshots batch row).2)
      (rows.filter fun row => row.dataFileId ∈ dataFileIds) {}
    refine (congrArg (fun staged => (kv.filePartitionValue.commit staged).scan
      fun key => key.dataFileId = row.dataFileId) deleted).trans ?_
    refine OrderedMap.scan_congr ?_
    intro key inside
    have kept : key ∉ ((rows.filter fun row => row.dataFileId ∈ dataFileIds).flatMap fun gone =>
        if rowIsUnreachable gone snapshots then (filePartitionValuesOf kv gone.dataFileId).map Prod.fst else []) := by
      intro member
      obtain ⟨gone, listed, named⟩ := List.mem_flatMap.mp member
      split at named
      · rename_i unreachable
        obtain ⟨entry, scanned, rfl⟩ := List.mem_map.mp named
        have owner := of_decide_eq_true (OrderedMap.mem_scan.mp scanned).2
        exact other gone (List.mem_filter.mp listed).1 unreachable (owner.symm.trans (of_decide_eq_true inside))
      · exact List.not_mem_nil named
    refine Option.ext ?_
    intro value
    exact (kv.filePartitionValue.get?_commit_deleteAll _).trans (and_iff_left kept)

theorem reachable_of_visible {row : DataFileRow} {snapshots : List SnapshotRow} {snapshot : SnapshotRow}
    (retained : snapshot ∈ snapshots) (visible : dataFileVisibleAt row snapshot.order = true) :
    rowIsUnreachable row snapshots = false := by
  have seen : (snapshots.any fun snapshot => dataFileVisibleAt row snapshot.order) = true :=
    List.any_eq_true.mpr ⟨snapshot, retained, visible⟩
  simp [rowIsUnreachable, seen]

theorem attachDeleteFilesAt_congr {before after : CatalogKv}
    (timeline : after.deleteFileTimeline = before.deleteFileTimeline)
    (changes : after.orderDeleteFileChange = before.orderDeleteFileChange) (dataFiles : List DataFileRow)
    (snapshotOrder : CatalogOrderId) :
    attachDeleteFilesAt after dataFiles snapshotOrder = attachDeleteFilesAt before dataFiles snapshotOrder := by
  have loads : loadDeleteFileAt after = loadDeleteFileAt before := by
    unfold loadDeleteFileAt
    rw [timeline]
  have exist : deleteFileChangesExistForFilesAt after = deleteFileChangesExistForFilesAt before := by
    unfold deleteFileChangesExistForFilesAt tableDeleteFileChangesExistAt
    rw [changes]
  unfold attachDeleteFilesAt
  rw [loads, exist]

theorem stageRemoveOldDataFiles_listing {history : CatalogHistory} {snapshots : List SnapshotRow}
    {snapshot : SnapshotRow} (data : DataFilesSound history)
    (staged : stageRemoveOldDataFiles history.kv dataFileIds = .ok (removed, batch))
    (retained : listSnapshots history.kv = .ok snapshots) (member : snapshot ∈ snapshots) (tableId : TableId) :
    listDataFilesWithDeletesAt (history.kv.commit batch) tableId snapshot.order =
      listDataFilesWithDeletesAt history.kv tableId snapshot.order := by
  have maintains : CatalogOperation.Maintains history.kv (.removeOldDataFiles dataFileIds) batch :=
    .removeOldDataFiles staged
  have coherentAfter := (data.maintain maintains).coherent
  have removes := maintains.dataFiles data.coherent.named
  have visible : visibleDataFilesAt (history.kv.commit batch) tableId snapshot.order =
      visibleDataFilesAt history.kv tableId snapshot.order := by
    refine visibleDataFilesAt_congr data.coherent coherentAfter ?_
    intro dataFileId row seen
    constructor
    · exact removes.kept
    · intro stored
      obtain rfl := data.coherent.named stored
      exact (stageRemoveOldDataFiles_reachable data.coherent.named staged retained stored
        (reachable_of_visible member seen)).1
  have listed : listDataFilesAt (history.kv.commit batch) tableId snapshot.order =
      listDataFilesAt history.kv tableId snapshot.order := by
    unfold listDataFilesAt
    rw [visible]
    refine withoutBackfilledSourceDuplicates_congr ?_
    intro row inSight
    obtain ⟨stored, _, seen⟩ := data.coherent.mem_visibleDataFilesAt.mp inSight
    exact (stageRemoveOldDataFiles_reachable data.coherent.named staged retained stored
      (reachable_of_visible member seen)).2
  have deleteMaps := history.kv.commit_deleteFileIndexes_congr (stageRemoveOldDataFiles_deleteFileMaps staged)
  unfold listDataFilesWithDeletesAt
  rw [listed]
  exact attachDeleteFilesAt_congr (congrArg DeleteFileIndexes.timeline deleteMaps)
    (congrArg DeleteFileIndexes.orderChange deleteMaps) _ _

end

theorem stageRemoveOldDataFiles_snapshots {kv : CatalogKv} {batch : KvBatch} {removed : List DataFileRow}
    {dataFileIds : List DataFileId} (staged : stageRemoveOldDataFiles kv dataFileIds = .ok (removed, batch)) :
    (kv.commit batch).snapshotTimestamp = kv.snapshotTimestamp := by
  obtain ⟨_, ⟨_, _, _, _, _, _, _, _, _, _, _, rfl⟩, _, _, _, rfl⟩ := stageRemoveOldDataFiles_changes staged
  rfl

/-! ## Removing delete files -/

section

variable {history : CatalogHistory}

/-- The change index never hides an attached delete file of a listed data file. -/
theorem DeleteFilesSound.attachDeleteFilesAt_eq (deletes : DeleteFilesSound history) {dataFiles : List DataFileRow}
    (stored : ∀ row ∈ dataFiles, history.kv.dataFile.get? row.dataFileId = some row) (snapshotOrder : CatalogOrderId) :
    attachDeleteFilesAt history.kv dataFiles snapshotOrder =
      dataFiles.map fun dataFile => ⟨dataFile, loadDeleteFileAt history.kv dataFile.dataFileId snapshotOrder⟩ := by
  obtain ⟨tables, sound⟩ := deletes.sound
  unfold attachDeleteFilesAt
  split
  · rfl
  · rename_i noChanges
    refine List.map_congr_left ?_
    intro dataFile member
    cases loaded : loadDeleteFileAt history.kv dataFile.dataFileId snapshotOrder with
    | none => rfl
    | some row =>
      unfold loadDeleteFileAt at loaded
      split at loaded
      · simp at loaded
      · rename_i key entry last
        obtain ⟨indexed, inside⟩ := OrderedMap.mem_scan.mp (OrderedMap.getLast?_scan_eq_some.mp last).1
        rw [Bool.and_eq_true, decide_eq_true_eq, decide_eq_true_eq] at inside
        obtain ⟨⟨_, owned⟩, _, changed⟩ := sound.changed indexed
        have table := owned dataFile (inside.1 ▸ stored dataFile member)
        refine absurd (List.any_eq_true.mpr ⟨dataFile, member, List.any_eq_true.mpr
          ⟨(_, ()), OrderedMap.mem_scan.mpr ⟨changed, ?_⟩, ?_⟩⟩) noChanges
        · exact decide_eq_true inside.2
        · exact decide_eq_true table.symm

section

variable {batch : KvBatch} {deleteFileIds : List DeleteFileId} {removed : List DeleteFileCleanupRow}
  {snapshots : List SnapshotRow} {snapshot : SnapshotRow} {dataFile : DataFileRow}

def newestRange (dataFileId : DataFileId) (snapshotOrder : CatalogOrderId) (key : DeleteFileTimelineKey) : Bool :=
  key.dataFileId = dataFileId && key.order ≤ snapshotOrder

/-- The newest entry at or before a retained snapshot survives unless the data file was compacted away. -/
theorem stageRemoveOldDeleteFiles_keepsNewest (deletes : DeleteFilesSound history)
    (staged : stageRemoveOldDeleteFiles history.kv deleteFileIds = .ok (removed, batch))
    (retained : listSnapshots history.kv = .ok snapshots) (member : snapshot ∈ snapshots)
    (stored : history.kv.dataFile.get? dataFile.dataFileId = some dataFile)
    (visible : dataFileVisibleAt dataFile snapshot.order = true)
    (notCompacted : sourceDataFileHasCompactionReplacementCleanup history.kv dataFile.dataFileId = false)
    {key : DeleteFileTimelineKey} {row : DeleteFileRow}
    (last : (history.kv.deleteFileTimeline.scan (newestRange dataFile.dataFileId snapshot.order)).getLast? =
      some (key, row)) :
    ∀ gone ∈ removed, gone.timelineKey ≠ key := by
  obtain ⟨tables, sound⟩ := deletes.sound
  obtain ⟨_, offered⟩ := stageRemoveOldDeleteFiles_removes sound staged
  obtain ⟨listed, greatest⟩ := OrderedMap.getLast?_scan_eq_some.mp last
  obtain ⟨indexed, inside⟩ := OrderedMap.mem_scan.mp listed
  rw [newestRange, Bool.and_eq_true, decide_eq_true_eq, decide_eq_true_eq] at inside
  intro gone goneMember sameKey
  obtain ⟨rfl, file⟩ := (offered gone goneMember).entry sound indexed
    (congrArg DeleteFileTimelineKey.deleteFileId sameKey).symm
  have safe := stageRemoveOldDeleteFiles_allowed staged retained gone goneMember
  rw [deleteFileCleanupIsAllowed, ← file, inside.1, notCompacted, Bool.or_false] at safe
  obtain ⟨endOrder, closes⟩ := Option.isSome_iff_exists.mp (offered gone goneMember).closed
  have begun : gone.deleteFile.validity.beginOrder ≤ snapshot.order :=
    (congrArg DeleteFileTimelineKey.order sameKey).le.trans inside.2
  have ended := deleteFileIsSafeForPhysicalCleanup_ended safe member begun closes
  -- What ended the row by then is a newer entry or the end of the data file.
  obtain ⟨later, ⟨deleteFileId, row, replaced, _⟩ | fileEnded⟩ := sound.closed indexed closes
  · have within : newestRange dataFile.dataFileId snapshot.order ⟨key.dataFileId, endOrder, deleteFileId⟩ = true := by
      rw [newestRange, Bool.and_eq_true, decide_eq_true_eq, decide_eq_true_eq]
      exact ⟨inside.1, ended⟩
    have above : key < ⟨key.dataFileId, endOrder, deleteFileId⟩ := DeleteFileTimelineKey.lt_of_order_lt rfl later
    exact absurd (greatest (_, row) (OrderedMap.mem_scan.mpr ⟨replaced, within⟩)) (not_le.mpr above)
  · obtain ⟨closedAt, before, closed⟩ := fileEnded dataFile (inside.1 ▸ stored)
    exact absurd ((ValidityWindow.isVisibleAt_iff.mp visible).2 closedAt closed) (not_lt.mpr (before.trans ended))

theorem stageRemoveOldDeleteFiles_load (deletes : DeleteFilesSound history)
    (staged : stageRemoveOldDeleteFiles history.kv deleteFileIds = .ok (removed, batch))
    (retained : listSnapshots history.kv = .ok snapshots) (member : snapshot ∈ snapshots)
    (stored : history.kv.dataFile.get? dataFile.dataFileId = some dataFile)
    (visible : dataFileVisibleAt dataFile snapshot.order = true)
    (notCompacted : sourceDataFileHasCompactionReplacementCleanup history.kv dataFile.dataFileId = false) :
    loadDeleteFileAt (history.kv.commit batch) dataFile.dataFileId snapshot.order =
      loadDeleteFileAt history.kv dataFile.dataFileId snapshot.order := by
  obtain ⟨tables, sound⟩ := deletes.sound
  obtain ⟨removes, _⟩ := stageRemoveOldDeleteFiles_removes sound staged
  have earlier {entry : DeleteFileTimelineKey × DeleteFileRow}
      (listed : entry ∈ (history.kv.commit batch).deleteFileTimeline.scan
        (newestRange dataFile.dataFileId snapshot.order)) :
      entry ∈ history.kv.deleteFileTimeline.scan (newestRange dataFile.dataFileId snapshot.order) := by
    obtain ⟨found, within⟩ := OrderedMap.mem_scan.mp listed
    exact OrderedMap.mem_scan.mpr ⟨(removes.timeline.mp found).1, within⟩
  have same : ((history.kv.commit batch).deleteFileTimeline.scan
      (newestRange dataFile.dataFileId snapshot.order)).getLast? =
      (history.kv.deleteFileTimeline.scan (newestRange dataFile.dataFileId snapshot.order)).getLast? := by
    cases last : (history.kv.deleteFileTimeline.scan (newestRange dataFile.dataFileId snapshot.order)).getLast? with
    | none =>
      have empty := List.getLast?_eq_none_iff.mp last
      refine List.getLast?_eq_none_iff.mpr (List.eq_nil_iff_forall_not_mem.mpr ?_)
      intro entry listed
      exact List.not_mem_nil (empty ▸ earlier listed)
    | some newest =>
      have kept := stageRemoveOldDeleteFiles_keepsNewest deletes staged retained member stored visible notCompacted last
      obtain ⟨listed, greatest⟩ := OrderedMap.getLast?_scan_eq_some.mp last
      obtain ⟨indexed, inside⟩ := OrderedMap.mem_scan.mp listed
      have remains := OrderedMap.mem_scan.mpr ⟨removes.timeline.mpr ⟨indexed, kept⟩, inside⟩
      exact OrderedMap.getLast?_scan_eq_some.mpr ⟨remains, fun other alsoListed => greatest other (earlier alsoListed)⟩
  unfold newestRange at same
  unfold loadDeleteFileAt
  rw [same]

/-- The staged part of what decides which data files a snapshot lists. -/
def KvBatch.listingMaps (batch : KvBatch) :=
  (batch.dataFileBegin, batch.currentDataFile, batch.filePartitionValue, batch.snapshotTimestamp)

theorem stageRemoveOldDeleteFile_listingMaps (kv : CatalogKv) (batch : KvBatch) (row : DeleteFileCleanupRow) :
    (stageRemoveOldDeleteFile kv batch row).listingMaps = batch.listingMaps := by
  rw [stageRemoveOldDeleteFile_eq]
  rfl

/-- Removing delete files touches neither data files nor snapshots. -/
theorem stageRemoveOldDeleteFiles_untouched {kv : CatalogKv}
    (staged : stageRemoveOldDeleteFiles kv deleteFileIds = .ok (removed, batch)) :
    (kv.commit batch).dataFileBegin = kv.dataFileBegin ∧ (kv.commit batch).currentDataFile = kv.currentDataFile ∧
      (kv.commit batch).filePartitionValue = kv.filePartitionValue ∧
      (kv.commit batch).snapshotTimestamp = kv.snapshotTimestamp := by
  obtain ⟨rows, listed, snapshots, _, rfl, rfl⟩ := stageRemoveOldDeleteFiles_ok staged
  generalize rows.filter _ = removed
  obtain ⟨_, _, _, tables⟩ := stageRemoveUnreachableTables_changes kv (removed.foldl (stageRemoveOldDeleteFile kv) {})
    (removed.map DeleteFileCleanupRow.tableId) snapshots
  have untouched := foldl_view KvBatch.listingMaps (stageRemoveOldDeleteFile_listingMaps kv) removed {}
  simp only [KvBatch.listingMaps, Prod.mk.injEq] at untouched
  obtain ⟨begins, current, values, timestamps⟩ := untouched
  rw [tables]
  exact ⟨congrArg kv.dataFileBegin.commit begins, congrArg kv.currentDataFile.commit current,
    congrArg kv.filePartitionValue.commit values, congrArg kv.snapshotTimestamp.commit timestamps⟩

/-- The listings before and after agree on the data files, and on the delete files outside the exempt data files. -/
def AgreeExcept (exempt : DataFileId → Bool) (before after : List AttachedDataFile) : Prop :=
  List.Forall₂ (fun earlier later => later.dataFile = earlier.dataFile ∧
    (exempt earlier.dataFile.dataFileId = false → later.deleteFile = earlier.deleteFile)) before after

theorem stageRemoveOldDeleteFiles_listing (data : DataFilesSound history) (deletes : DeleteFilesSound history)
    (staged : stageRemoveOldDeleteFiles history.kv deleteFileIds = .ok (removed, batch))
    (retained : listSnapshots history.kv = .ok snapshots) (member : snapshot ∈ snapshots) (tableId : TableId) :
    AgreeExcept (sourceDataFileHasCompactionReplacementCleanup history.kv)
      (listDataFilesWithDeletesAt history.kv tableId snapshot.order)
      (listDataFilesWithDeletesAt (history.kv.commit batch) tableId snapshot.order) := by
  have maintains : CatalogOperation.Maintains history.kv (.removeOldDeleteFiles deleteFileIds) batch :=
    .removeOldDeleteFiles staged
  obtain ⟨begins, current, values, _⟩ := stageRemoveOldDeleteFiles_untouched staged
  have listed : listDataFilesAt (history.kv.commit batch) tableId snapshot.order =
      listDataFilesAt history.kv tableId snapshot.order := by
    have visible : visibleDataFilesAt (history.kv.commit batch) tableId snapshot.order =
        visibleDataFilesAt history.kv tableId snapshot.order := by
      unfold visibleDataFilesAt dataFilesBegunBy scanCurrentDataFiles
      rw [begins, current]
    unfold listDataFilesAt
    rw [visible]
    refine withoutBackfilledSourceDuplicates_congr ?_
    intro row _
    unfold filePartitionValuesOf
    rw [values]
  have inSight : ∀ row ∈ listDataFilesAt history.kv tableId snapshot.order,
      row ∈ visibleDataFilesAt history.kv tableId snapshot.order := fun row listedRow => (List.mem_filter.mp listedRow).1
  have stored : ∀ row ∈ listDataFilesAt history.kv tableId snapshot.order,
      history.kv.dataFile.get? row.dataFileId = some row :=
    fun row listedRow => (data.coherent.mem_visibleDataFilesAt.mp (inSight row listedRow)).1
  have storedAfter : ∀ row ∈ listDataFilesAt (history.maintained batch).kv tableId snapshot.order,
      (history.maintained batch).kv.dataFile.get? row.dataFileId = some row :=
    fun row listedRow => ((data.maintain maintains).coherent.mem_visibleDataFilesAt.mp
      (List.mem_filter.mp listedRow).1).1
  have attachedAfter : attachDeleteFilesAt (history.kv.commit batch)
      (listDataFilesAt (history.kv.commit batch) tableId snapshot.order) snapshot.order = _ :=
    (deletes.maintain data maintains).attachDeleteFilesAt_eq storedAfter snapshot.order
  unfold AgreeExcept listDataFilesWithDeletesAt
  rw [deletes.attachDeleteFilesAt_eq stored, attachedAfter]
  rw [show listDataFilesAt (history.maintained batch).kv tableId snapshot.order = _ from listed]
  refine List.forall₂_map_left_iff.mpr (List.forall₂_map_right_iff.mpr (List.forall₂_same.mpr ?_))
  intro dataFile listedFile
  refine ⟨rfl, fun notCompacted => ?_⟩
  have visible := (data.coherent.mem_visibleDataFilesAt.mp (inSight dataFile listedFile)).2.2
  exact stageRemoveOldDeleteFiles_load deletes staged retained member (stored dataFile listedFile) visible notCompacted

end

end

/-! ## Cleanup -/

/-- Cleanup keeps what every retained snapshot lists, up to the delete files of compacted data files. -/
theorem cleanup_preservesTimeTravel (reachable : CatalogHistory.Reachable CatalogHistory.FreshFileIds history)
    (tableId : TableId) :
    (∀ dataFileIds snapshots snapshot,
        listSnapshots (history.after (.removeOldDataFiles dataFileIds)).kv = .ok snapshots → snapshot ∈ snapshots →
        listDataFilesWithDeletesAt (history.after (.removeOldDataFiles dataFileIds)).kv tableId snapshot.order =
          listDataFilesWithDeletesAt history.kv tableId snapshot.order) ∧
      ∀ deleteFileIds snapshots snapshot,
        listSnapshots (history.after (.removeOldDeleteFiles deleteFileIds)).kv = .ok snapshots → snapshot ∈ snapshots →
        AgreeExcept (sourceDataFileHasCompactionReplacementCleanup history.kv)
          (listDataFilesWithDeletesAt history.kv tableId snapshot.order)
          (listDataFilesWithDeletesAt (history.after (.removeOldDeleteFiles deleteFileIds)).kv tableId
            snapshot.order) := by
  obtain ⟨data, deletes⟩ := reachable.deleteFilesSound fun _ _ fresh => fresh
  constructor
  · intro dataFileIds snapshots snapshot retained member
    rcases history.after_removeOldDataFiles dataFileIds with ⟨_, same⟩ | ⟨removed, batch, staged, same⟩
    · rw [same]
    · rw [same] at retained ⊢
      have retainedBefore : listSnapshots history.kv = .ok snapshots := by
        rw [← retained, listSnapshots, listSnapshots, stageRemoveOldDataFiles_snapshots staged]
      exact stageRemoveOldDataFiles_listing data staged retainedBefore member tableId
  · intro deleteFileIds snapshots snapshot retained member
    rcases history.after_removeOldDeleteFiles deleteFileIds with ⟨_, same⟩ | ⟨removed, batch, staged, same⟩
    · rw [same]
      exact List.forall₂_same.mpr fun _ _ => ⟨rfl, fun _ => rfl⟩
    · rw [same] at retained ⊢
      have retainedBefore : listSnapshots history.kv = .ok snapshots := by
        rw [← retained, listSnapshots, listSnapshots, (stageRemoveOldDeleteFiles_untouched staged).2.2.2]
      exact stageRemoveOldDeleteFiles_listing data deletes staged retainedBefore member tableId

/-- The delete file of a rewritten data file may go while a retained snapshot reads both. -/
def rewritten : List CatalogOperation :=
  let dataFile (dataFileId recordCount : Nat) : DataFileRow :=
    { dataFileId, tableId := 1, path := "", recordCount, fileSizeBytes := 1, rowIdStartKnown := true,
      validity := ⟨autoOrder, none⟩ }
  let deleteFile : DeleteFileRow :=
    { deleteFileId := 10, dataFileId := 1, path := "", recordCount := 1, fileSizeBytes := 1,
      validity := ⟨autoOrder, none⟩ }
  [.appendDataFiles 0 [dataFile 1 10] [], .registerDeleteFiles 0 [deleteFile],
    .rewriteDelete 0 { sourceFileIds := [1], newFiles := [dataFile 2 9] }]

/-- One delete file id given to two data files, one of which is then rewritten. -/
def deleteFileIdReused : List CatalogOperation :=
  let dataFile (dataFileId rowIdStart recordCount : Nat) : DataFileRow :=
    { dataFileId, tableId := 1, path := "", recordCount, fileSizeBytes := 1, rowIdStart, rowIdStartKnown := true,
      validity := ⟨autoOrder, none⟩ }
  let deleteFile (dataFileId : Nat) : DeleteFileRow :=
    { deleteFileId := 10, dataFileId, path := "", recordCount := 1, fileSizeBytes := 1, validity := ⟨autoOrder, none⟩ }
  [.appendDataFiles 0 [dataFile 1 0 10, dataFile 2 10 10] [], .registerDeleteFiles 0 [deleteFile 1, deleteFile 2],
    .rewriteDelete 0 { sourceFileIds := [2], newFiles := [dataFile 3 10 9] }]

/-- A data file id used again for a file that ends between two retained snapshots. -/
def dataFileIdReused : List CatalogOperation :=
  let dataFile : DataFileRow :=
    { dataFileId := 1, tableId := 1, path := "", recordCount := 1, fileSizeBytes := 1, validity := ⟨autoOrder, none⟩ }
  let replacement : DataFileRow :=
    { dataFileId := 2, tableId := 1, path := "", recordCount := 2, fileSizeBytes := 1, maxPartialOrder := some 3,
      validity := ⟨2, none⟩ }
  let partitionValue (dataFileId : Nat) : FilePartitionValueRow :=
    { tableId := 1, dataFileId, partitionKeyIndex := 0, partitionValue := "x" }
  [.dataMutation 0 { dataFiles := [dataFile], partitionValues := [partitionValue 1] },
    .dataMutation 0 { dataFiles := [replacement], partitionValues := [partitionValue 2] },
    .dataMutation 0 { dataFiles := [dataFile], partitionValues := [partitionValue 1] },
    .dataMutation 0 { droppedDataFileIds := [1] }, .expireSnapshots [3]]

/-- Some retained snapshot lists something else after the operation. -/
def ChangesTimeTravel (history : CatalogHistory) (operation : CatalogOperation) (tableId : TableId) : Prop :=
  ∃ snapshot ∈ (listSnapshots (history.after operation).kv).toOption.getD [],
    listDataFilesWithDeletesAt (history.after operation).kv tableId snapshot.order ≠
      listDataFilesWithDeletesAt history.kv tableId snapshot.order

instance : Decidable (ChangesTimeTravel history operation tableId) := inferInstanceAs (Decidable (∃ _ ∈ _, _))

theorem cleanup_changesTimeTravel :
    (CatalogHistory.Reachable CatalogHistory.FreshFileIds ((CatalogHistory.start 0 0).run rewritten) ∧
        ChangesTimeTravel ((CatalogHistory.start 0 0).run rewritten) (.removeOldDeleteFiles [10]) 1) ∧
      ChangesTimeTravel ((CatalogHistory.start 0 0).run deleteFileIdReused) (.removeOldDeleteFiles [10]) 1 ∧
      ChangesTimeTravel ((CatalogHistory.start 0 0).run dataFileIdReused) (.removeOldDataFiles [1]) 1 :=
  ⟨⟨.run (.start 0 0) (by decide +kernel), by decide +kernel⟩, by decide +kernel, by decide +kernel⟩

/-- The data files of the rewritten history stay listed at the snapshot before the rewrite. -/
theorem cleanup_preservesTimeTravel_rewritten :
    listDataFilesWithDeletesAt (((CatalogHistory.start 0 0).run rewritten).after (.removeOldDataFiles [1])).kv 1 3 =
      listDataFilesWithDeletesAt ((CatalogHistory.start 0 0).run rewritten).kv 1 3 := by
  have reachable : CatalogHistory.Reachable CatalogHistory.FreshFileIds ((CatalogHistory.start 0 0).run rewritten) :=
    .run (.start 0 0) (by decide +kernel)
  exact (cleanup_preservesTimeTravel reachable 1).1 [1]
    ((listSnapshots (((CatalogHistory.start 0 0).run rewritten).after (.removeOldDataFiles [1])).kv).toOption.getD [])
    (SnapshotRow.new 3 2 0) (by decide +kernel) (by decide +kernel)

end DucklakeCatalog
