import DucklakeCatalog.File.Listing

/-! The files the catalog knows about, which the cleanup of orphaned files leaves alone. -/
namespace DucklakeCatalog

open KeyedStore

inductive KnownCleanupFileRow where
  | data (dataFile : DataFileRow)
  | delete (deleteFile : DeleteFileRow) (tableId : TableId)
  deriving DecidableEq, Repr

def listAllDataFileRows (kv : CatalogKv) : List DataFileRow := kv.dataFile.entries.map Prod.snd

def listAllDeleteFileRows (kv : CatalogKv) : List DeleteFileRow := kv.deleteFile.entries.map Prod.snd

def knownDeleteFile (dataFiles : List DataFileRow) (deleteFile : DeleteFileRow) : CatalogResult KnownCleanupFileRow :=
  match dataFiles.find? fun row => row.dataFileId = deleteFile.dataFileId with
  | none => .error (.invalidMutation
      s!"delete file {deleteFile.deleteFileId} references missing data file {deleteFile.dataFileId}")
  | some dataFile => .ok (.delete deleteFile dataFile.tableId)

def listKnownFilesForOrphanCleanup (kv : CatalogKv) : CatalogResult (List KnownCleanupFileRow) := do
  let dataFiles := listAllDataFileRows kv
  let deleteFiles ← (listAllDeleteFileRows kv).mapM (knownDeleteFile dataFiles)
  return dataFiles.map .data ++ deleteFiles

theorem mem_listAllDeleteFileRows {kv : CatalogKv} {row : DeleteFileRow} :
    row ∈ listAllDeleteFileRows kv ↔ ∃ deleteFileId, kv.deleteFile.get? deleteFileId = some row := by
  unfold listAllDeleteFileRows
  rw [List.mem_map]
  constructor
  · rintro ⟨⟨deleteFileId, stored⟩, entry, rfl⟩
    exact ⟨deleteFileId, kv.deleteFile.get?_eq_some_iff.mpr entry⟩
  · rintro ⟨deleteFileId, found⟩
    exact ⟨⟨deleteFileId, row⟩, kv.deleteFile.get?_eq_some_iff.mp found, rfl⟩

section

variable {kv : CatalogKv} (named : ∀ {dataFileId row}, kv.dataFile.get? dataFileId = some row → row.dataFileId = dataFileId)

include named

theorem find?_listAllDataFileRows (dataFileId : DataFileId) :
    (listAllDataFileRows kv).find? (fun row => row.dataFileId = dataFileId) = kv.dataFile.get? dataFileId := by
  cases found : kv.dataFile.get? dataFileId with
  | none =>
    refine List.find?_eq_none.mpr ?_
    intro row listed same
    obtain ⟨⟨key, stored⟩, entry, rfl⟩ := List.mem_map.mp listed
    have present := kv.dataFile.get?_eq_some_iff.mpr entry
    obtain rfl : key = dataFileId := (named present).symm.trans (of_decide_eq_true same)
    rw [found] at present
    cases present
  | some row =>
    have listed : row ∈ listAllDataFileRows kv :=
      List.mem_map.mpr ⟨(dataFileId, row), kv.dataFile.get?_eq_some_iff.mp found, rfl⟩
    have isSome : ((listAllDataFileRows kv).find? (fun row => row.dataFileId = dataFileId)).isSome :=
      List.find?_isSome.mpr ⟨row, listed, decide_eq_true (named found)⟩
    obtain ⟨other, finds⟩ := Option.isSome_iff_exists.mp isSome
    obtain ⟨⟨key, stored⟩, entry, rfl⟩ := List.mem_map.mp (List.mem_of_find?_eq_some finds)
    have present := kv.dataFile.get?_eq_some_iff.mpr entry
    have sameId : stored.dataFileId = dataFileId := by simpa using List.find?_some finds
    obtain rfl : key = dataFileId := (named present).symm.trans sameId
    rw [finds, ← found, present]

/-- The listing succeeds exactly when every stored delete file has its data file. -/
theorem listKnownFilesForOrphanCleanup_ok_iff :
    (∃ known, listKnownFilesForOrphanCleanup kv = .ok known) ↔
      ∀ deleteFileId row, kv.deleteFile.get? deleteFileId = some row → (kv.dataFile.get? row.dataFileId).isSome := by
  constructor
  · rintro ⟨known, lists⟩ deleteFileId row found
    unfold listKnownFilesForOrphanCleanup at lists
    simp only [bind_eq_ok] at lists
    obtain ⟨deleteFiles, knows, _⟩ := lists
    obtain ⟨_, _, accepts⟩ := mapM_accepts knows (mem_listAllDeleteFileRows.mpr ⟨deleteFileId, found⟩)
    unfold knownDeleteFile at accepts
    rw [find?_listAllDataFileRows named] at accepts
    cases stored : kv.dataFile.get? row.dataFileId with
    | none =>
      rw [stored] at accepts
      cases accepts
    | some dataFile => rfl
  · intro owned
    have accepts : ∀ row ∈ listAllDeleteFileRows kv,
        ∃ known, knownDeleteFile (listAllDataFileRows kv) row = .ok known := by
      intro row listed
      obtain ⟨deleteFileId, found⟩ := mem_listAllDeleteFileRows.mp listed
      obtain ⟨dataFile, stored⟩ := Option.isSome_iff_exists.mp (owned deleteFileId row found)
      refine ⟨.delete row dataFile.tableId, ?_⟩
      unfold knownDeleteFile
      rw [find?_listAllDataFileRows named, stored]
    obtain ⟨deleteFiles, knows⟩ := mapM_total accepts
    exact ⟨_, bind_eq_ok.mpr ⟨deleteFiles, knows, rfl⟩⟩

/-- What an accepted listing holds. -/
theorem mem_listKnownFilesForOrphanCleanup {known : List KnownCleanupFileRow}
    (lists : listKnownFilesForOrphanCleanup kv = .ok known) :
    (∀ dataFileId row, kv.dataFile.get? dataFileId = some row → .data row ∈ known) ∧
      ∀ deleteFileId row dataFile, kv.deleteFile.get? deleteFileId = some row →
        kv.dataFile.get? row.dataFileId = some dataFile → .delete row dataFile.tableId ∈ known := by
  unfold listKnownFilesForOrphanCleanup at lists
  simp only [bind_eq_ok, pure_eq_ok] at lists
  obtain ⟨deleteFiles, knows, rfl⟩ := lists
  constructor
  · intro dataFileId row found
    refine List.mem_append_left _ (List.mem_map_of_mem ?_)
    exact List.mem_map.mpr ⟨(dataFileId, row), kv.dataFile.get?_eq_some_iff.mp found, rfl⟩
  · intro deleteFileId row dataFile found stored
    obtain ⟨listed, member, accepts⟩ := mapM_accepts knows (mem_listAllDeleteFileRows.mpr ⟨deleteFileId, found⟩)
    unfold knownDeleteFile at accepts
    rw [find?_listAllDataFileRows named, stored] at accepts
    exact List.mem_append_right _ (Except.ok.inj accepts ▸ member)

end

end DucklakeCatalog
