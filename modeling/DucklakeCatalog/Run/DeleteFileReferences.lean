import DucklakeCatalog.Run.DeleteFileRemoval

namespace DucklakeCatalog

open KeyedStore

/-- The delete files that timeline, change and end entries name. -/
def deleteFileReferences (kv : CatalogKv) : List DeleteFileId :=
  kv.deleteFileTimeline.entries.map (fun entry => entry.1.deleteFileId) ++
    kv.tableDeleteFileChange.entries.map (fun entry => entry.1.fileId) ++
    kv.orderDeleteFileChange.entries.map (fun entry => entry.1.fileId) ++
    kv.deleteFileEnd.entries.map (fun entry => entry.1.fileId)

/-- No index entry names a delete file whose primary row is gone. -/
def NoDanglingDeleteFiles (kv : CatalogKv) : Prop :=
  ∀ deleteFileId ∈ deleteFileReferences kv, (kv.deleteFile.get? deleteFileId).isSome

instance : Decidable (NoDanglingDeleteFiles kv) := inferInstanceAs (Decidable (∀ _ ∈ _, _))

/-- The delete file is filed at the begin order its row carries. -/
def FiledAtBegin (kv : CatalogKv) (row : DeleteFileCleanupRow) : Prop :=
  (kv.deleteFileTimeline.get? row.timelineKey).isSome

instance : Decidable (FiledAtBegin kv row) := inferInstanceAs (Decidable (_ = true))

/-- Every requested delete file that is on offer is filed at its begin order. -/
def OffersFiledAtBegin (kv : CatalogKv) (deleteFileIds : List DeleteFileId) : Prop :=
  ∀ row ∈ (listOldDeleteFilesForCleanup kv).toOption.getD [],
    row.deleteFile.deleteFileId ∈ deleteFileIds → FiledAtBegin kv row

instance : Decidable (OffersFiledAtBegin kv deleteFileIds) := inferInstanceAs (Decidable (∀ _ ∈ _, _))

def CatalogOperation.removedDeleteFileIds : CatalogOperation → List DeleteFileId
  | removeOldDeleteFiles deleteFileIds => deleteFileIds
  | _ => []

/-- Fresh file ids, and removals only of delete files filed at their begin order. -/
def RemovesFiledAtBegin (history : CatalogHistory) (operation : CatalogOperation) : Prop :=
  history.FreshFileIds operation ∧ OffersFiledAtBegin history.kv operation.removedDeleteFileIds

instance : Decidable (RemovesFiledAtBegin history operation) := inferInstanceAs (Decidable (_ ∧ _))

section

variable {kv : CatalogKv} {scope : DeleteFileScope} {tableOf : DeleteFileId → TableId}

/-- Every reference is backed by a timeline entry or by a primary row. -/
theorem noDanglingDeleteFiles_iff (sound : kv.deleteFileIndexes.Sound scope tableOf) :
    NoDanglingDeleteFiles kv ↔ kv.deleteFileIndexes.EntriesStored := by
  constructor
  · intro backed key row found
    refine backed key.deleteFileId ?_
    have entry := kv.deleteFileTimeline.get?_eq_some_iff.mp found
    simp only [deleteFileReferences, List.mem_append]
    exact Or.inl (Or.inl (Or.inl (List.mem_map_of_mem (f := fun entry => entry.1.deleteFileId) entry)))
  · intro stored deleteFileId member
    simp only [deleteFileReferences, List.mem_append] at member
    rcases member with ((timeline | table) | ordered) | ended
    · obtain ⟨⟨key, row⟩, entry, rfl⟩ := List.mem_map.mp timeline
      exact stored _ _ (kv.deleteFileTimeline.get?_eq_some_iff.mpr entry)
    · obtain ⟨⟨key, _⟩, entry, rfl⟩ := List.mem_map.mp table
      obtain ⟨_, dataFileId, row, indexed⟩ := sound.tableChanged (kv.tableDeleteFileChange.get?_eq_some_iff.mpr entry)
      exact stored _ _ indexed
    · obtain ⟨⟨key, _⟩, entry, rfl⟩ := List.mem_map.mp ordered
      obtain ⟨_, dataFileId, row, indexed⟩ := sound.orderChanged (kv.orderDeleteFileChange.get?_eq_some_iff.mpr entry)
      exact stored _ _ indexed
    · obtain ⟨⟨key, _⟩, entry, rfl⟩ := List.mem_map.mp ended
      obtain ⟨_, row, primary, _⟩ := sound.ends (kv.deleteFileEnd.get?_eq_some_iff.mpr entry)
      exact Option.isSome_iff_exists.mpr ⟨row, primary⟩

/-- Removal keeps every reference backed exactly when it finds the entries of all rows it removes. -/
theorem DeleteFileIndexes.Removes.entriesStored_iff {after : DeleteFileIndexes} {removed : List DeleteFileCleanupRow}
    (sound : kv.deleteFileIndexes.Sound scope tableOf) (stored : kv.deleteFileIndexes.EntriesStored)
    (removes : kv.deleteFileIndexes.Removes after removed)
    (offered : ∀ gone ∈ removed, kv.deleteFileIndexes.Offered tableOf gone) :
    after.EntriesStored ↔ ∀ gone ∈ removed, FiledAtBegin kv gone := by
  constructor
  · intro backed gone member
    obtain ⟨_, order, indexed⟩ := sound.primary (offered gone member).stored
    by_contra missing
    have remains : after.timeline.get? ⟨gone.deleteFile.dataFileId, order, gone.deleteFile.deleteFileId⟩ =
        some gone.deleteFile := by
      refine removes.timeline.mpr ⟨indexed, ?_⟩
      intro other alsoMember same
      have named : gone.deleteFile.deleteFileId = other.deleteFile.deleteFileId :=
        (congrArg DeleteFileTimelineKey.deleteFileId same).symm
      obtain ⟨sameRow, _⟩ := (offered other alsoMember).entry sound indexed named
      refine missing (Option.isSome_iff_exists.mpr ⟨gone.deleteFile, ?_⟩)
      have key : gone.timelineKey = other.timelineKey := by
        simp only [DeleteFileCleanupRow.timelineKey, sameRow]
      rw [key, same]
      exact indexed
    obtain ⟨row, primary⟩ := Option.isSome_iff_exists.mp (backed _ _ remains)
    exact (removes.deleteFile.mp primary).2 gone member rfl
  · intro filed key row found
    obtain ⟨indexed, kept⟩ := removes.timeline.mp found
    obtain ⟨primary, present⟩ := Option.isSome_iff_exists.mp (stored _ _ indexed)
    refine Option.isSome_iff_exists.mpr ⟨primary, removes.deleteFile.mpr ⟨present, ?_⟩⟩
    intro gone member named
    obtain ⟨entry, filedEntry⟩ := Option.isSome_iff_exists.mp (filed gone member)
    exact kept gone member (sound.only filedEntry indexed named)

/-- The rows an accepted removal takes out are the requested ones on offer. -/
theorem stageRemoveOldDeleteFiles_filed {deleteFileIds : List DeleteFileId} {removed : List DeleteFileCleanupRow}
    {batch : KvBatch} (staged : stageRemoveOldDeleteFiles kv deleteFileIds = .ok (removed, batch)) :
    OffersFiledAtBegin kv deleteFileIds ↔ ∀ gone ∈ removed, FiledAtBegin kv gone := by
  obtain ⟨rows, listed, snapshots, retained, rfl, _⟩ := stageRemoveOldDeleteFiles_ok staged
  have allowed := listOldDeleteFilesForCleanup_allowed listed retained
  simp only [OffersFiledAtBegin, listed, Except.toOption, Option.getD_some]
  constructor
  · intro filed gone member
    obtain ⟨offered, requested⟩ := List.mem_filter.mp member
    rw [Bool.and_eq_true, decide_eq_true_eq] at requested
    exact filed gone offered requested.1
  · intro filed gone offered requested
    refine filed gone (List.mem_filter.mpr ⟨offered, ?_⟩)
    rw [Bool.and_eq_true, decide_eq_true_eq]
    exact ⟨requested, allowed gone offered⟩

theorem OffersFiledAtBegin.of_failure {deleteFileIds : List DeleteFileId} {failure : CatalogError}
    (failed : stageRemoveOldDeleteFiles kv deleteFileIds = .error failure) : OffersFiledAtBegin kv deleteFileIds := by
  unfold OffersFiledAtBegin
  cases listed : listOldDeleteFilesForCleanup kv with
  | error _ => simp [Except.toOption]
  | ok rows =>
    have retained := listed
    simp only [listOldDeleteFilesForCleanup, bind_eq_ok] at retained
    obtain ⟨snapshots, retained, _⟩ := retained
    simp [stageRemoveOldDeleteFiles, listed, retained, bind, Except.bind, pure, Except.pure] at failed

theorem removeOldDeleteFiles_entriesStored_iff {history : CatalogHistory} (deletes : DeleteFilesSound history)
    (stored : history.kv.deleteFileIndexes.EntriesStored) (deleteFileIds : List DeleteFileId) :
    (history.after (.removeOldDeleteFiles deleteFileIds)).kv.deleteFileIndexes.EntriesStored ↔
      OffersFiledAtBegin history.kv deleteFileIds := by
  obtain ⟨tables, sound⟩ := deletes.sound
  rcases history.after_removeOldDeleteFiles deleteFileIds with ⟨nothing, same⟩ | ⟨removed, batch, staged, same⟩
  · have vacuous : OffersFiledAtBegin history.kv deleteFileIds := by
      rcases nothing with rfl | ⟨failure, failed⟩
      · simp [OffersFiledAtBegin]
      · exact .of_failure failed
    rw [same]
    exact ⟨fun _ => vacuous, fun _ => stored⟩
  · obtain ⟨removes, offered⟩ := stageRemoveOldDeleteFiles_removes sound staged
    rw [same, stageRemoveOldDeleteFiles_filed staged]
    exact removes.entriesStored_iff sound stored offered

end

/-- In a run that only removes delete files filed at their begin order every entry stays backed. -/
theorem CatalogHistory.Reachable.entriesStored (reachable : CatalogHistory.Reachable RemovesFiledAtBegin history) :
    history.kv.deleteFileIndexes.EntriesStored := by
  have invariant := reachable.invariant (fun history => (DataFilesSound history ∧ DeleteFilesSound history) ∧
    history.kv.deleteFileIndexes.EntriesStored) ?_ ?_ ?_ ?_
  · exact invariant.2
  · intro lastOrder now
    refine ⟨⟨.start lastOrder now, .start lastOrder now⟩, ?_⟩
    intro key row found
    have empty : (CatalogHistory.start lastOrder now).kv.deleteFileIndexes.timeline = .empty := rfl
    simp [empty] at found
  · rintro history ⟨⟨data, deletes⟩, stored⟩
    exact ⟨⟨data.generated, deletes.generated⟩, stored⟩
  · rintro history operation batch ⟨⟨data, deletes⟩, stored⟩ ⟨fresh, _⟩ commits
    exact ⟨⟨data.commit fresh.1 commits, deletes.commit data fresh commits⟩,
      (deletes.follows data fresh commits).filed stored⟩
  · rintro history operation batch ⟨⟨data, deletes⟩, stored⟩ ⟨_, filed⟩ maintains
    refine ⟨⟨data.maintain maintains, deletes.maintain data maintains⟩, ?_⟩
    have untouched (same : batch.deleteFileMaps = ({} : KvBatch).deleteFileMaps) :
        (history.kv.commit batch).deleteFileIndexes.EntriesStored := by
      rw [history.kv.commit_deleteFileIndexes_congr same]
      exact stored
    cases maintains with
    | expireSnapshots staged =>
      obtain ⟨_, rfl⟩ := stageExpiredSnapshots_changes staged
      exact untouched rfl
    | removeOldDataFiles staged => exact untouched (stageRemoveOldDataFiles_deleteFileMaps staged)
    | removeOldDeleteFiles staged =>
      obtain ⟨tables, sound⟩ := deletes.sound
      obtain ⟨removes, offered⟩ := stageRemoveOldDeleteFiles_removes sound staged
      exact (removes.entriesStored_iff sound stored offered).mpr ((stageRemoveOldDeleteFiles_filed staged).mp filed)

/-- Removal leaves no dangling reference exactly when every requested delete file on offer is filed at its
begin order. -/
theorem removeOldDeleteFiles_noDangling_iff (reachable : CatalogHistory.Reachable RemovesFiledAtBegin history)
    (deleteFileIds : List DeleteFileId) :
    NoDanglingDeleteFiles history.kv ∧
      (NoDanglingDeleteFiles (history.after (.removeOldDeleteFiles deleteFileIds)).kv ↔
        OffersFiledAtBegin history.kv deleteFileIds) := by
  have stored := reachable.entriesStored
  obtain ⟨_, deletes⟩ := reachable.deleteFilesSound fun _ _ allowed => allowed.1
  have fresh : history.FreshFileIds (.removeOldDeleteFiles deleteFileIds) := by
    simp [CatalogHistory.FreshFileIds, CatalogHistory.FreshDataFileIds, CatalogHistory.FreshDeleteFileIds,
      CatalogOperation.newDataFileIds, CatalogOperation.newDeleteFileIds]
  have removed := (reachable.mono fun _ _ allowed => allowed.1).step fresh
  obtain ⟨_, deletesAfter⟩ := removed.deleteFilesSound fun _ _ allowed => allowed
  obtain ⟨_, sound⟩ := deletes.sound
  obtain ⟨_, soundAfter⟩ := deletesAfter.sound
  exact ⟨(noDanglingDeleteFiles_iff sound).mpr stored,
    (noDanglingDeleteFiles_iff soundAfter).trans (removeOldDeleteFiles_entriesStored_iff deletes stored deleteFileIds)⟩

/-- A data file whose delete file is replaced twice, and a snapshot expiry that leaves only the last one visible. -/
def replacedTwice : List CatalogOperation :=
  let dataFile : DataFileRow :=
    { dataFileId := 1, tableId := 1, path := "", recordCount := 10, fileSizeBytes := 1, validity := ⟨autoOrder, none⟩ }
  let deleteFile (deleteFileId : Nat) : DeleteFileRow :=
    { deleteFileId, dataFileId := 1, path := "", recordCount := 1, fileSizeBytes := 1, validity := ⟨autoOrder, none⟩ }
  [.appendDataFiles 0 [dataFile] [], .registerDeleteFiles 0 [deleteFile 10],
    .registerDeleteFiles 0 [deleteFile 11], .registerDeleteFiles 0 [deleteFile 12], .expireSnapshots [0, 1, 2, 3]]

/-- The second delete file begins where the first one did but is filed at the order of its own commit. -/
theorem removeOldDeleteFiles_dangles :
    CatalogHistory.Reachable CatalogHistory.FreshFileIds ((CatalogHistory.start 0 0).run replacedTwice) ∧
      ¬NoDanglingDeleteFiles
        (((CatalogHistory.start 0 0).run replacedTwice).after (.removeOldDeleteFiles [11])).kv :=
  ⟨.run (.start 0 0) (by decide +kernel), by decide +kernel⟩

theorem removeOldDeleteFiles_noDangling_replacedTwice :
    NoDanglingDeleteFiles (((CatalogHistory.start 0 0).run replacedTwice).after (.removeOldDeleteFiles [10])).kv ∧
      ¬NoDanglingDeleteFiles
        (((CatalogHistory.start 0 0).run replacedTwice).after (.removeOldDeleteFiles [10, 11])).kv := by
  have reachable : CatalogHistory.Reachable RemovesFiledAtBegin ((CatalogHistory.start 0 0).run replacedTwice) :=
    .run (.start 0 0) (by decide +kernel)
  exact ⟨(removeOldDeleteFiles_noDangling_iff reachable [10]).2.mpr (by decide +kernel),
    fun backed => absurd ((removeOldDeleteFiles_noDangling_iff reachable [10, 11]).2.mp backed) (by decide +kernel)⟩

end DucklakeCatalog
