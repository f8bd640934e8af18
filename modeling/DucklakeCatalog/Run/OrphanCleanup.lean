import DucklakeCatalog.File.OrphanCleanup
import DucklakeCatalog.Run.DeleteFileReferences
import DucklakeCatalog.Run.DeleteFileTimeline
import DucklakeCatalog.Run.SnapshotIndexes
import DucklakeCatalog.Run.TimeTravel

/-! Cleanup beside the listing of known files, along whole histories. -/
namespace DucklakeCatalog

open KeyedStore

/-- The listing for orphan cleanup succeeds and knows every file that a retained snapshot lists. -/
def KnowsListedFiles (kv : CatalogKv) : Prop :=
  ∃ known, listKnownFilesForOrphanCleanup kv = .ok known ∧
    ∀ snapshots, listSnapshots kv = .ok snapshots → ∀ snapshot ∈ snapshots, ∀ tableId,
      ∀ attached ∈ listDataFilesWithDeletesAt kv tableId snapshot.order,
        .data attached.dataFile ∈ known ∧ ∀ deleteFile, attached.deleteFile = some deleteFile →
          .delete deleteFile attached.dataFile.tableId ∈ known

/-- No stored delete file names a data file whose row the cleanup removes. -/
def RemovesUnreferenced (kv : CatalogKv) (dataFileIds : List DataFileId) : Prop :=
  ∀ row ∈ (listOldDataFilesForCleanup kv).toOption.getD [], row.dataFileId ∈ dataFileIds →
    rowIsUnreachable row ((listSnapshots kv).toOption.getD []) = true →
      ∀ deleteFile ∈ listAllDeleteFileRows kv, deleteFile.dataFileId ≠ row.dataFileId

/-- A delete file that the cleanup removes goes with its timeline entry, or answers no retained snapshot there. -/
def RemovesUnanswering (kv : CatalogKv) (deleteFileIds : List DeleteFileId) : Prop :=
  ∀ row ∈ (listOldDeleteFilesForCleanup kv).toOption.getD [], row.deleteFile.deleteFileId ∈ deleteFileIds →
    FiledAtBegin kv row ∨ ∀ order ∈ deleteFileTimelineOrders kv row.deleteFile,
      ∀ snapshot ∈ (listSnapshots kv).toOption.getD [],
        deleteFileCanAnswerSnapshot row.deleteFile order snapshot.order = false

instance : Decidable (RemovesUnreferenced kv dataFileIds) := inferInstanceAs (Decidable (∀ _ ∈ _, _))

instance : Decidable (RemovesUnanswering kv deleteFileIds) := inferInstanceAs (Decidable (∀ _ ∈ _, _))

def CatalogOperation.removedDataFileIds : CatalogOperation → List DataFileId
  | removeOldDataFiles dataFileIds => dataFileIds
  | _ => []

/-- Fresh file ids, and cleanup that removes no row which something else still needs. -/
structure RemovesUnneeded (history : CatalogHistory) (operation : CatalogOperation) : Prop where
  fresh : history.FreshFileIds operation
  unreferenced : RemovesUnreferenced history.kv operation.removedDataFileIds
  unanswering : RemovesUnanswering history.kv operation.removedDeleteFileIds

instance : Decidable (RemovesUnneeded history operation) :=
  decidable_of_iff (_ ∧ _ ∧ _) ⟨fun ⟨fresh, unreferenced, unanswering⟩ => ⟨fresh, unreferenced, unanswering⟩,
    fun unneeded => ⟨unneeded.fresh, unneeded.unreferenced, unneeded.unanswering⟩⟩

/-! ## Delete files of one commit -/

variable {row : DeleteFileRow} {dataFileId : DataFileId} {removed : List DeleteFileCleanupRow}
  {deleteFileIds : List DeleteFileId}

namespace DeleteFileIndexes

/-- What a commit adds: delete files of known data files, open or closed at its order. -/
structure Grows (Known : DataFileId → Prop) (order : CatalogOrderId) (before after : DeleteFileIndexes) : Prop where
  rows : ∀ deleteFileId row, after.deleteFile.get? deleteFileId = some row →
    before.deleteFile.get? deleteFileId = some row ∨
      Known row.dataFileId ∧ ∀ endOrder, row.validity.endOrder = some endOrder → endOrder = order
  kept : ∀ deleteFileId, (before.deleteFile.get? deleteFileId).isSome → (after.deleteFile.get? deleteFileId).isSome
  entries : ∀ key row, after.timeline.get? key = some row →
    before.timeline.get? key = some row ∨ (after.deleteFile.get? key.deleteFileId).isSome

variable {Known : DataFileId → Prop} {order : CatalogOrderId} {first second third : DeleteFileIndexes}

theorem Grows.refl (indexes : DeleteFileIndexes) : Grows Known order indexes indexes :=
  ⟨fun _ _ found => Or.inl found, fun _ present => present, fun _ _ found => Or.inl found⟩

theorem Grows.trans (left : Grows Known order first second) (right : Grows Known order second third) :
    Grows Known order first third where
  rows := by
    intro deleteFileId row found
    rcases right.rows deleteFileId row found with before | new
    · exact left.rows deleteFileId row before
    · exact Or.inr new
  kept := fun deleteFileId present => right.kept deleteFileId (left.kept deleteFileId present)
  entries := by
    intro key row found
    rcases right.entries key row found with before | present
    · exact (left.entries key row before).imp id (right.kept key.deleteFileId)
    · exact Or.inr present

/-- Putting one row, with its own timeline entries. -/
theorem Grows.put (known : Known row.dataFileId)
    (closes : ∀ endOrder, row.validity.endOrder = some endOrder → endOrder = order)
    (stored : second.deleteFile = first.deleteFile.insert row.deleteFileId row)
    (timeline : ∀ key found, second.timeline.get? key = some found →
      first.timeline.get? key = some found ∨ key.deleteFileId = row.deleteFileId) : Grows Known order first second where
  rows := by
    intro deleteFileId found isFound
    rw [stored, OrderedMap.get?_insert] at isFound
    split at isFound
    · obtain rfl := Option.some.inj isFound
      exact Or.inr ⟨known, closes⟩
    · exact Or.inl isFound
  kept := by
    intro deleteFileId present
    rw [stored]
    exact OrderedMap.get?_insert_isSome present
  entries := by
    intro key found isFound
    rcases timeline key found isFound with before | same
    · exact Or.inl before
    · right
      rw [stored, same, OrderedMap.get?_insert_self]
      rfl

end DeleteFileIndexes

section

variable {kv : CatalogKv} {batch next : KvBatch} {Known : DataFileId → Prop} {order : CatalogOrderId}
  {scope : DeleteFileScope} {tableOf : DeleteFileId → TableId}
variable {tableId : TableId}

theorem putRegisteredDeleteFile_grows (known : Known row.dataFileId) (opened : row.validity.endOrder = none) :
    DeleteFileIndexes.Grows Known order (kv.commit batch).deleteFileIndexes
      (kv.commit (putRegisteredDeleteFile batch tableId row order)).deleteFileIndexes := by
  rw [commit_putRegisteredDeleteFile]
  refine DeleteFileIndexes.Grows.put known ?_ rfl ?_
  · intro endOrder closes
    rw [opened] at closes
    cases closes
  · intro key found isFound
    simp only [DeleteFileIndexes.register, OrderedMap.get?_insert] at isFound
    split at isFound
    · rename_i same
      exact Or.inr (congrArg DeleteFileTimelineKey.deleteFileId same)
    · exact Or.inl isFound

theorem putClosedDeleteFile_grows (sound : kv.deleteFileIndexes.Sound scope tableOf) (known : Known row.dataFileId) :
    DeleteFileIndexes.Grows Known order (kv.commit batch).deleteFileIndexes
      (kv.commit (putClosedDeleteFile kv batch tableId (row.withEndOrder (some order)) order)).deleteFileIndexes := by
  have names : Known (row.withEndOrder (some order)).dataFileId := known
  refine DeleteFileIndexes.Grows.put names ?_ ?_ ?_
  · exact fun endOrder closes => (Option.some.inj closes).symm
  · simp [CatalogKv.deleteFileIndexes, CatalogKv.commit, putClosedDeleteFile]
  · intro key found isFound
    cases located : deleteFileTimelineKeyForRow kv (row.withEndOrder (some order)) with
    | none =>
      left
      simpa [CatalogKv.deleteFileIndexes, CatalogKv.commit, putClosedDeleteFile, located] using isFound
    | some place =>
      rw [commit_putClosedDeleteFile located] at isFound
      simp only [DeleteFileIndexes.close, OrderedMap.get?_insert] at isFound
      split at isFound
      · rename_i same
        right
        obtain ⟨entry, finds, rfl⟩ := Option.map_eq_some_iff.mp located
        have indexed := (OrderedMap.mem_scan.mp (List.mem_of_find?_eq_some finds)).1
        have sameId : entry.2.deleteFileId = (row.withEndOrder (some order)).deleteFileId := by
          simpa using List.find?_some finds
        rw [same, ← (sound.entry indexed).1]
        exact sameId
      · exact Or.inl isFound

theorem stageRegisterDeleteFileForDataFile_grows (sound : kv.deleteFileIndexes.Sound scope tableOf)
    (opened : kv.deleteFileIndexes.CurrentOpen)
    (names : ∀ deleteFileId row, kv.deleteFile.get? deleteFileId = some row → Known row.dataFileId)
    {dataFile : DataFileRow} {registered : DeleteFileRow} (known : Known row.dataFileId)
    (isOpen : row.validity.endOrder = none)
    (success : stageRegisterDeleteFileForDataFile kv batch dataFile row order = .ok (registered, next)) :
    DeleteFileIndexes.Grows Known order (kv.commit batch).deleteFileIndexes (kv.commit next).deleteFileIndexes := by
  unfold stageRegisterDeleteFileForDataFile at success
  simp only [bind_eq_ok, pure_eq_ok, Prod.mk.injEq] at success
  obtain ⟨closed, closes, rfl, rfl⟩ := success
  obtain ⟨_, sameFile, sameEnd, _⟩ := inheritCurrentDeleteBeginOrder_eq kv row
  have registers : DeleteFileIndexes.Grows Known order (kv.commit closed).deleteFileIndexes
      (kv.commit (putRegisteredDeleteFile closed dataFile.tableId (inheritCurrentDeleteBeginOrder kv row)
        order)).deleteFileIndexes :=
    putRegisteredDeleteFile_grows (sameFile ▸ known) (sameEnd.trans isOpen)
  refine DeleteFileIndexes.Grows.trans ?_ registers
  rcases stageCloseCurrentDeleteFile_ok closes with ⟨_, rfl⟩ | ⟨current, found, _, _, rfl⟩
  · exact DeleteFileIndexes.Grows.refl _
  · exact putClosedDeleteFile_grows sound (names _ current (opened found).2.2)

/-- The delete files of every accepted commit belong to data files of the store or of the commit. -/
theorem CatalogOperation.Commits.grows {operation : CatalogOperation} (commits : operation.Commits kv batch)
    (sound : kv.deleteFileIndexes.Sound scope tableOf) (opened : kv.deleteFileIndexes.CurrentOpen)
    (names : ∀ deleteFileId row, kv.deleteFile.get? deleteFileId = some row → Known row.dataFileId)
    (stored : ∀ dataFileId row, kv.dataFile.get? dataFileId = some row → Known dataFileId)
    (appended : ∀ now input, operation = .dataMutation now input →
      ∀ row ∈ input.dataFiles, Known row.dataFileId) :
    DeleteFileIndexes.Grows Known kv.generatedOrderId kv.deleteFileIndexes (kv.commit batch).deleteFileIndexes := by
  have untouched {staged : KvBatch} (same : staged.deleteFileMaps = ({} : KvBatch).deleteFileMaps) :
      DeleteFileIndexes.Grows Known kv.generatedOrderId kv.deleteFileIndexes (kv.commit staged).deleteFileIndexes := by
    rw [kv.commit_deleteFileIndexes_congr same]
    exact DeleteFileIndexes.Grows.refl _
  cases commits with
  | createTable _ staged =>
    obtain ⟨_, rfl⟩ := stageCreateTableRow_ok staged
    exact untouched rfl
  | appendDataFiles staged => exact untouched (stageAppendDataFiles_deleteFileMaps staged)
  | @dataMutation input now result _ valid staged =>
    obtain ⟨opening, finish, before, registers, after⟩ := stageDataMutation_registers staged
    rw [kv.commit_deleteFileIndexes_congr after]
    refine foldlM_invariant (fun state => DeleteFileIndexes.Grows Known kv.generatedOrderId kv.deleteFileIndexes
      (kv.commit state.2).deleteFileIndexes) registers (untouched before) ?_
    intro state row next _ soFar taken
    simp only [bind_eq_ok, pure_eq_ok] at taken
    obtain ⟨prepared, prepares, ⟨registered, registeredBatch⟩, stages, rfl⟩ := taken
    obtain ⟨dataFile, loads, stages⟩ := stageMaterializedDeleteFile_ok stages
    refine soFar.trans (stageRegisterDeleteFileForDataFile_grows sound opened names ?_
      (materializedDeleteFile_ok prepares).2.2 stages)
    rcases appendedOrCommittedDataFile_ok loads with ⟨member, named⟩ | found
    · obtain ⟨given, listed, rfl⟩ := List.mem_map.mp member
      rw [(materializedDeleteFile_ok prepares).2.1, ← named] at *
      exact (mutationDataFile_eq _ given).1 ▸ appended now input rfl given listed
    · exact stored _ _ found
  | mergeAdjacent _ staged => exact untouched (stageMergeAdjacent_deleteFileMaps staged)
  | rewriteDelete valid staged =>
    obtain ⟨expired, expires, after⟩ := stageRewriteDelete_closes staged
    rw [kv.commit_deleteFileIndexes_congr after]
    refine foldlM_invariant (fun state => DeleteFileIndexes.Grows Known kv.generatedOrderId kv.deleteFileIndexes
      (kv.commit state).deleteFileIndexes) expires (untouched rfl) ?_
    intro state sourceFileId next _ soFar taken
    obtain ⟨source, sourceBatch, expiresSource, rest⟩ := expireRewriteSource_ok taken
    have opening := kv.commit_deleteFileIndexes_congr (expireCompactedSourceFile_deleteFileMaps expiresSource)
    rcases rest with ⟨_, rfl⟩ | ⟨deleteFileId, _, closes⟩
    · rw [opening]
      exact soFar
    · obtain ⟨closed, ends, rfl⟩ := expireCompactedDeleteFile_ok closes
      obtain ⟨row, found, _, _, _, rfl⟩ := stageExpireCurrentDeleteFile_ok ends
      rw [← opening] at soFar
      have closing : DeleteFileIndexes.Grows Known kv.generatedOrderId (kv.commit sourceBatch).deleteFileIndexes
          (kv.commit (putClosedDeleteFile kv sourceBatch source.dataFile.tableId
            (row.withEndOrder (some kv.generatedOrderId)) kv.generatedOrderId)).deleteFileIndexes :=
        putClosedDeleteFile_grows sound (names _ row found)
      exact soFar.trans ⟨closing.rows, closing.kept, closing.entries⟩
  | registerDeleteFiles staged =>
    refine foldlM_invariant (fun state => DeleteFileIndexes.Grows Known kv.generatedOrderId kv.deleteFileIndexes
      (kv.commit state.2).deleteFileIndexes) staged (untouched rfl) ?_
    intro state row next _ soFar taken
    simp only [bind_eq_ok, pure_eq_ok] at taken
    obtain ⟨⟨registered, registeredBatch⟩, registers, rfl⟩ := taken
    obtain ⟨dataFile, found, registers⟩ := stageRegisterDeleteFile_ok registers
    exact soFar.trans (stageRegisterDeleteFileForDataFile_grows sound opened names (stored _ _ found) rfl registers)
  | inlineFileDeletions staged => exact untouched (stageInlineFileDeletions_changes staged).deleteFileMaps
  | registerInlinePayload _ staged => exact untouched (stageInlineTablePayload_changes staged).deleteFileMaps
  | registerInlinePayloadWithTable _ staged =>
    exact untouched (stageInlineTablePayloadWithTable_changes staged).deleteFileMaps

end

/-! ## What cleanup keeps -/

/-- A data file that no removed row names keeps its row. -/
theorem stageRemoveOldDataFiles_keeps {kv : CatalogKv} {batch : KvBatch} {removed : List DataFileRow}
    {dataFileIds : List DataFileId} (staged : stageRemoveOldDataFiles kv dataFileIds = .ok (removed, batch))
    (kept : ∀ row ∈ (listOldDataFilesForCleanup kv).toOption.getD [],
      row.dataFileId ∈ dataFileIds → rowIsUnreachable row ((listSnapshots kv).toOption.getD []) = true →
        row.dataFileId ≠ dataFileId) :
    (kv.commit batch).dataFile.get? dataFileId = kv.dataFile.get? dataFileId := by
  obtain ⟨rows, listed, snapshots, retained, rfl, rfl⟩ := stageRemoveOldDataFiles_ok staged
  rw [listed, retained] at kept
  obtain ⟨_, _, _, tables⟩ := stageRemoveUnreachableTables_changes kv
    ((rows.filter fun row => row.dataFileId ∈ dataFileIds).foldl (stageRemoveOldDataFile kv snapshots) {})
    ((rows.filter fun row => row.dataFileId ∈ dataFileIds).map DataFileRow.tableId) snapshots
  have deleted := Staged.foldl_deleteAll KvBatch.dataFile _
    (fun batch row => (stageRemoveOldDataFile_values kv snapshots batch row).1)
    (rows.filter fun row => row.dataFileId ∈ dataFileIds) {}
  rw [tables]
  refine (congrArg (fun staged => (kv.dataFile.commit staged).get? dataFileId) deleted).trans ?_
  refine Option.ext fun row => (kv.dataFile.get?_commit_deleteAll _).trans (and_iff_left ?_)
  intro member
  obtain ⟨gone, chosen, named⟩ := List.mem_flatMap.mp member
  obtain ⟨offered, requested⟩ := List.mem_filter.mp chosen
  split at named
  · rename_i unreachable
    exact kept gone offered (of_decide_eq_true requested) unreachable (List.mem_singleton.mp named).symm
  · exact List.not_mem_nil named

theorem stageRemoveOldDeleteFiles_dataFile {kv : CatalogKv} {batch : KvBatch}
    (staged : stageRemoveOldDeleteFiles kv deleteFileIds = .ok (removed, batch)) :
    (kv.commit batch).dataFile = kv.dataFile := by
  obtain ⟨_, ⟨_, _, _, _, _, _, rfl⟩, _, _, _, rfl⟩ := stageRemoveOldDeleteFiles_changes staged
  rfl

/-- The removed delete files are requested ones on offer. -/
theorem stageRemoveOldDeleteFiles_chosen {kv : CatalogKv} {batch : KvBatch}
    (staged : stageRemoveOldDeleteFiles kv deleteFileIds = .ok (removed, batch)) :
    ∀ gone ∈ removed, gone ∈ (listOldDeleteFilesForCleanup kv).toOption.getD [] ∧
      gone.deleteFile.deleteFileId ∈ deleteFileIds := by
  obtain ⟨rows, listed, snapshots, _, rfl, _⟩ := stageRemoveOldDeleteFiles_ok staged
  intro gone member
  obtain ⟨offered, requested⟩ := List.mem_filter.mp member
  rw [Bool.and_eq_true, decide_eq_true_eq] at requested
  rw [listed]
  exact ⟨offered, requested.1⟩

/-- Some snapshot of the order has not expired. -/
def CatalogKv.Retains (kv : CatalogKv) (order : CatalogOrderId) : Prop :=
  ∃ key row, kv.snapshotTimestamp.get? key = some row ∧ key.order = order

theorem listSnapshots_retains {kv : CatalogKv} {snapshots : List SnapshotRow} (lists : listSnapshots kv = .ok snapshots)
    {order : CatalogOrderId} : kv.Retains order ↔ ∃ snapshot ∈ snapshots, snapshot.order = order := by
  unfold listSnapshots at lists
  simp only [bind_eq_ok, pure_eq_ok] at lists
  obtain ⟨rows, decoded, rfl⟩ := lists
  have keyed : ∀ entry row, decodeTimestampSnapshot entry = .ok row → row.order = entry.1.order := by
    intro entry row decodes
    unfold decodeTimestampSnapshot at decodes
    split at decodes
    · cases decodes
    · rw [← Except.ok.inj decodes]
  constructor
  · rintro ⟨key, row, found, rfl⟩
    obtain ⟨snapshot, member, decodes⟩ := mapM_accepts decoded (kv.snapshotTimestamp.get?_eq_some_iff.mp found)
    exact ⟨snapshot, List.mem_insertionSort _ |>.mpr member, keyed _ _ decodes⟩
  · rintro ⟨snapshot, member, rfl⟩
    obtain ⟨⟨key, row⟩, entry, decodes⟩ := mapM_source decoded (List.mem_insertionSort _ |>.mp member)
    exact ⟨key, row, kv.snapshotTimestamp.get?_eq_some_iff.mpr entry, (keyed _ _ decodes).symm⟩

theorem CatalogOperation.Commits.retains {kv : CatalogKv} {batch : KvBatch} {operation : CatalogOperation}
    (commits : operation.Commits kv batch) {order : CatalogOrderId} (retains : (kv.commit batch).Retains order) :
    kv.Retains order ∨ order = kv.generatedOrderId := by
  obtain ⟨snapshot, drawn, _, same⟩ := commits.snapshotMaps
  have maps : (kv.commit batch).snapshotMaps = _ := snapshotMaps_commit_stageSnapshot same
  have places := congrArg (fun maps => maps.1.2) maps
  dsimp only [CatalogKv.snapshotMaps] at places
  obtain ⟨key, row, found, rfl⟩ := retains
  rw [places, OrderedMap.get?_insert] at found
  split at found
  · rename_i same
    right
    rw [same]
    exact drawn
  · exact Or.inl ⟨key, row, found, rfl⟩

theorem CatalogOperation.Maintains.retains {kv : CatalogKv} {batch : KvBatch} {operation : CatalogOperation}
    (maintains : operation.Maintains kv batch) {order : CatalogOrderId} (retains : (kv.commit batch).Retains order) :
    kv.Retains order := by
  obtain ⟨key, row, found, rfl⟩ := retains
  rcases maintains.commitMaps with ⟨_, _, _, staged⟩ | same
  · obtain ⟨_, _, _, _, _, _, rfl⟩ := stageExpiredSnapshots_ok staged
    exact ⟨key, row, (get?_commit_expiryBatch.mp found).1, rfl⟩
  · have maps : (kv.commit batch).snapshotMaps = _ := snapshotMaps_commit_of_empty (snapshotMaps_congr same)
    have places := congrArg (fun maps => maps.1.2) maps
    dsimp only [CatalogKv.snapshotMaps] at places
    rw [places] at found
    exact ⟨key, row, found, rfl⟩

/-! ## Histories -/

/-- A timeline entry left behind by its row: it has ended, and no retained snapshot can be answered by it. -/
structure OutOfUse (kv : CatalogKv) (key : DeleteFileTimelineKey) (row : DeleteFileRow) : Prop where
  ended : ∃ endOrder ≤ kv.nextOrder, row.validity.endOrder = some endOrder
  silent : ∀ order, kv.Retains order → deleteFileCanAnswerSnapshot row key.order order = false

/-- Delete files have their data files, and timeline entries in use have their rows. -/
structure KnownFiles (history : CatalogHistory) : Prop where
  data : DataFilesSound history
  deletes : DeleteFilesSound history
  owned : ∀ deleteFileId row, history.kv.deleteFile.get? deleteFileId = some row →
    (history.kv.dataFile.get? row.dataFileId).isSome
  ended : ∀ deleteFileId row endOrder, history.kv.deleteFile.get? deleteFileId = some row →
    row.validity.endOrder = some endOrder → endOrder ≤ history.kv.nextOrder
  entries : ∀ key row, history.kv.deleteFileTimeline.get? key = some row →
    (history.kv.deleteFile.get? key.deleteFileId).isSome ∨ OutOfUse history.kv key row

theorem KnownFiles.start (lastOrder : CatalogOrderId) (now : Int) : KnownFiles (CatalogHistory.start lastOrder now) := by
  have deleteFiles : (CatalogHistory.start lastOrder now).kv.deleteFile = .empty := rfl
  have timeline : (CatalogHistory.start lastOrder now).kv.deleteFileTimeline = .empty := rfl
  refine ⟨.start lastOrder now, .start lastOrder now, ?_, ?_, ?_⟩
  · intro deleteFileId row found
    simp [deleteFiles] at found
  · intro deleteFileId row endOrder found
    simp [deleteFiles] at found
  · intro key row found
    simp [timeline] at found

variable {history : CatalogHistory} {operation : CatalogOperation} {batch : KvBatch}

theorem OutOfUse.later {kv next : CatalogKv} {key : DeleteFileTimelineKey}
    (outOfUse : OutOfUse kv key row) (later : kv.nextOrder ≤ next.nextOrder)
    (retains : ∀ order, next.Retains order → kv.Retains order ∨ kv.nextOrder < order) : OutOfUse next key row := by
  obtain ⟨endOrder, bounded, closes⟩ := outOfUse.ended
  refine ⟨⟨endOrder, Nat.le_trans bounded later, closes⟩, ?_⟩
  intro order retained
  rcases retains order retained with before | new
  · exact outOfUse.silent order before
  · by_contra answers
    rw [Bool.not_eq_false, deleteFileCanAnswerSnapshot, Bool.and_eq_true] at answers
    have within := (ValidityWindow.isVisibleAt_iff.mp answers.1).2 endOrder closes
    exact absurd within (Nat.not_lt_of_le (Nat.le_trans bounded (Nat.le_of_lt new)))

theorem KnownFiles.generated (known : KnownFiles history) :
    KnownFiles { history with kv := history.kv.withGeneratedOrder } where
  data := known.data.generated
  deletes := known.deletes.generated
  owned := known.owned
  ended := fun deleteFileId row endOrder found closes =>
    Nat.le_succ_of_le (known.ended deleteFileId row endOrder found closes)
  entries := by
    intro key row found
    refine (known.entries key row found).imp id ?_
    exact fun outOfUse => outOfUse.later (Nat.le_succ _) fun order retained => Or.inl retained

theorem KnownFiles.commit (known : KnownFiles history) (fresh : history.FreshFileIds operation)
    (commits : operation.Commits history.kv batch) : KnownFiles (history.committed operation batch) := by
  obtain ⟨tables, sound⟩ := known.deletes.sound
  have staged := commits.dataFiles known.data.coherent.named fresh.1.1 fun dataFileId new =>
    known.data.unknown (fresh.1.2 _ new)
  have stored : ∀ dataFileId row, history.kv.dataFile.get? dataFileId = some row →
      ((history.kv.commit batch).dataFile.get? dataFileId).isSome := by
    intro dataFileId row found
    rcases staged.kept found with same | closed
    · exact Option.isSome_of_mem same
    · exact Option.isSome_of_mem closed
  have grows : DeleteFileIndexes.Grows (fun dataFileId => ((history.kv.commit batch).dataFile.get? dataFileId).isSome)
      _ _ _ := commits.grows sound known.deletes.opened ?_ stored ?_
  · have later : history.kv.nextOrder ≤ history.kv.generatedOrderId := Nat.le_succ _
    refine ⟨known.data.commit fresh.1 commits, known.deletes.commit known.data fresh commits, ?_, ?_, ?_⟩
    · intro deleteFileId row found
      rcases grows.rows deleteFileId row found with before | new
      · obtain ⟨dataFile, isStored⟩ := Option.isSome_iff_exists.mp (known.owned deleteFileId row before)
        exact stored row.dataFileId dataFile isStored
      · exact new.1
    · intro deleteFileId row endOrder found closes
      rcases grows.rows deleteFileId row found with before | new
      · exact Nat.le_trans (known.ended deleteFileId row endOrder before closes) later
      · exact le_of_eq (new.2 endOrder closes)
    · intro key row found
      rcases grows.entries key row found with before | present
      · rcases known.entries key row before with present | outOfUse
        · exact Or.inl (grows.kept key.deleteFileId present)
        · right
          refine outOfUse.later later fun order retained => ?_
          rcases commits.retains retained with before | rfl
          · exact Or.inl before
          · exact Or.inr (Nat.lt_succ_self _)
      · exact Or.inl present
  · intro deleteFileId row found
    obtain ⟨dataFile, isStored⟩ := Option.isSome_iff_exists.mp (known.owned deleteFileId row found)
    exact stored row.dataFileId dataFile isStored
  · rintro now input rfl row member
    cases commits with
    | dataMutation _ staged =>
      obtain ⟨same, files⟩ := stageDataMutation_files staged
      have added := (files fresh.1.1 fun dataFileId new => known.data.unknown (fresh.1.2 _ new)).added
      rw [same] at added
      have isAdded := added _ (List.mem_map_of_mem member)
      rw [(mutationDataFile_eq _ row).1] at isAdded
      exact Option.isSome_of_mem isAdded

/-- Cleanup that removes no row which something still needs. -/
theorem KnownFiles.maintain (known : KnownFiles history) (unneeded : RemovesUnneeded history operation)
    (maintains : operation.Maintains history.kv batch) : KnownFiles (history.maintained batch) := by
  have data := known.data.maintain maintains
  have deletes := known.deletes.maintain known.data maintains
  have retains (order : CatalogOrderId) (later : (history.kv.commit batch).Retains order) := maintains.retains later
  obtain ⟨tables, sound⟩ := known.deletes.sound
  have untouched (same : batch.deleteFileMaps = ({} : KvBatch).deleteFileMaps)
      (stored : ∀ deleteFileId row, history.kv.deleteFile.get? deleteFileId = some row →
        ((history.kv.commit batch).dataFile.get? row.dataFileId).isSome) : KnownFiles (history.maintained batch) := by
    have indexes := history.kv.commit_deleteFileIndexes_congr same
    have deleteFiles : (history.kv.commit batch).deleteFile = history.kv.deleteFile :=
      congrArg DeleteFileIndexes.deleteFile indexes
    have timeline : (history.kv.commit batch).deleteFileTimeline = history.kv.deleteFileTimeline :=
      congrArg DeleteFileIndexes.timeline indexes
    refine ⟨data, deletes, ?_, ?_, ?_⟩
    · intro deleteFileId row found
      exact stored deleteFileId row (deleteFiles ▸ found)
    · intro deleteFileId row endOrder found closes
      exact known.ended deleteFileId row endOrder (deleteFiles ▸ found) closes
    · intro key row found
      rcases known.entries key row (timeline ▸ found) with present | outOfUse
      · exact Or.inl (deleteFiles.symm ▸ present)
      · exact Or.inr (outOfUse.later le_rfl fun order retained => Or.inl (retains order retained))
  cases maintains with
  | expireSnapshots staged =>
    obtain ⟨_, rfl⟩ := stageExpiredSnapshots_changes staged
    exact untouched rfl known.owned
  | removeOldDataFiles staged =>
    refine untouched (stageRemoveOldDataFiles_deleteFileMaps staged) ?_
    intro deleteFileId row found
    rw [stageRemoveOldDataFiles_keeps staged]
    · exact known.owned deleteFileId row found
    · intro gone offered requested unreachable
      exact (unneeded.unreferenced gone offered requested unreachable row
        (mem_listAllDeleteFileRows.mpr ⟨deleteFileId, found⟩)).symm
  | @removeOldDeleteFiles deleteFileIds removed _ staged =>
    obtain ⟨removes, offered⟩ := stageRemoveOldDeleteFiles_removes sound staged
    have dataFiles := stageRemoveOldDeleteFiles_dataFile staged
    refine ⟨data, deletes, ?_, ?_, ?_⟩
    · intro deleteFileId row found
      have kept := known.owned deleteFileId row (removes.deleteFile.mp found).1
      rw [← dataFiles] at kept
      exact kept
    · intro deleteFileId row endOrder found closes
      exact known.ended deleteFileId row endOrder (removes.deleteFile.mp found).1 closes
    · intro key row found
      obtain ⟨indexed, entryKept⟩ := removes.timeline.mp found
      rcases known.entries key row indexed with present | outOfUse
      · obtain ⟨primary, stored⟩ := Option.isSome_iff_exists.mp present
        by_cases removedRow : ∃ gone ∈ removed, gone.deleteFile.deleteFileId = key.deleteFileId
        · obtain ⟨gone, member, named⟩ := removedRow
          obtain ⟨rfl, sameFile⟩ := (offered gone member).entry sound indexed named.symm
          obtain ⟨endOrder, closes⟩ := Option.isSome_iff_exists.mp (offered gone member).closed
          refine Or.inr ⟨⟨endOrder, known.ended _ _ endOrder (offered gone member).stored closes, closes⟩, ?_⟩
          obtain ⟨isOffered, requested⟩ := stageRemoveOldDeleteFiles_chosen staged gone member
          rcases unneeded.unanswering gone isOffered requested with filed | silent
          · obtain ⟨entry, filedEntry⟩ := Option.isSome_iff_exists.mp filed
            exact absurd (sound.only filedEntry indexed named) (entryKept gone member)
          · intro order retained
            obtain ⟨snapshots, lists⟩ : ∃ snapshots, listSnapshots history.kv = .ok snapshots := by
              unfold stageRemoveOldDeleteFiles at staged
              simp only [bind_eq_ok] at staged
              obtain ⟨_, _, snapshots, lists, _⟩ := staged
              exact ⟨snapshots, lists⟩
            obtain ⟨snapshot, isListed, rfl⟩ := (listSnapshots_retains lists).mp (retains order retained)
            rw [lists] at silent
            refine silent key.order ?_ snapshot isListed
            refine List.mem_map.mpr ⟨(key, gone.deleteFile),
              List.mem_filter.mpr ⟨OrderedMap.mem_scan.mpr ⟨indexed, ?_⟩, ?_⟩, rfl⟩
            · exact decide_eq_true sameFile
            · exact decide_eq_true rfl
        · left
          refine Option.isSome_iff_exists.mpr ⟨primary, removes.deleteFile.mpr ⟨stored, ?_⟩⟩
          exact fun gone member named => removedRow ⟨gone, member, named⟩
      · exact Or.inr (outOfUse.later le_rfl fun order retained => Or.inl (retains order retained))

theorem CatalogHistory.Reachable.knownFiles (reachable : CatalogHistory.Reachable RemovesUnneeded history) :
    KnownFiles history :=
  reachable.invariant KnownFiles KnownFiles.start (fun _ known => known.generated)
    (fun _ _ _ known unneeded commits => known.commit unneeded.fresh commits)
    (fun _ _ _ known unneeded maintains => known.maintain unneeded maintains)

/-- The listing knows the delete file that a retained snapshot reads. -/
theorem KnownFiles.attached (known : KnownFiles history) {order : CatalogOrderId} (retains : history.kv.Retains order)
    (loads : loadDeleteFileAt history.kv dataFileId order = some row) :
    history.kv.deleteFile.get? row.deleteFileId = some row ∧ row.dataFileId = dataFileId := by
  obtain ⟨tables, sound⟩ := known.deletes.sound
  unfold loadDeleteFileAt at loads
  split at loads
  · cases loads
  · rename_i key entry last
    split at loads
    · rename_i answers
      obtain rfl := Option.some.inj loads
      obtain ⟨indexed, inside⟩ := OrderedMap.mem_scan.mp (OrderedMap.getLast?_scan_eq_some.mp last).1
      rw [Bool.and_eq_true, decide_eq_true_eq] at inside
      obtain ⟨named, file, _⟩ := sound.entry indexed
      rcases known.entries key entry indexed with present | outOfUse
      · obtain ⟨primary, stored⟩ := Option.isSome_iff_exists.mp present
        obtain ⟨_, begun, primaryEntry⟩ := sound.primary stored
        have sameKey := sound.only indexed primaryEntry rfl
        rw [sameKey] at indexed
        obtain rfl := Option.some.inj (indexed.symm.trans primaryEntry)
        exact ⟨named ▸ stored, file.trans inside.1⟩
      · rw [outOfUse.silent order retains] at answers
        cases answers
    · cases loads

/-- While cleanup removes no row that something still needs, the orphan listing succeeds and knows every file
that a retained snapshot lists. -/
theorem knownFiles_listed (reachable : CatalogHistory.Reachable RemovesUnneeded history) :
    KnowsListedFiles history.kv := by
  have known := reachable.knownFiles
  obtain ⟨rows, lists⟩ := (listKnownFilesForOrphanCleanup_ok_iff known.data.coherent.named).mpr known.owned
  obtain ⟨dataFiles, deleteFiles⟩ := mem_listKnownFilesForOrphanCleanup known.data.coherent.named lists
  refine ⟨rows, lists, ?_⟩
  intro snapshots retained snapshot member tableId attached listed
  have retains : history.kv.Retains snapshot.order := (listSnapshots_retains retained).mpr ⟨snapshot, member, rfl⟩
  have stored : ∀ row ∈ listDataFilesAt history.kv tableId snapshot.order,
      history.kv.dataFile.get? row.dataFileId = some row := by
    intro row listedRow
    exact (known.data.coherent.mem_visibleDataFilesAt.mp (List.mem_filter.mp listedRow).1).1
  unfold listDataFilesWithDeletesAt at listed
  rw [known.deletes.attachDeleteFilesAt_eq stored] at listed
  obtain ⟨dataFile, listedFile, rfl⟩ := List.mem_map.mp listed
  refine ⟨dataFiles _ dataFile (stored dataFile listedFile), ?_⟩
  intro deleteFile loads
  obtain ⟨primary, owner⟩ := known.attached retains loads
  exact deleteFiles _ deleteFile dataFile primary (owner.symm ▸ stored dataFile listedFile)

/-- A data file with a delete file is dropped, and its snapshots expire. -/
def droppedWithDeletes : List CatalogOperation :=
  let dataFile : DataFileRow :=
    { dataFileId := 1, tableId := 1, path := "", recordCount := 10, fileSizeBytes := 1, validity := ⟨autoOrder, none⟩ }
  let deleteFile : DeleteFileRow :=
    { deleteFileId := 10, dataFileId := 1, path := "", recordCount := 1, fileSizeBytes := 1,
      validity := ⟨autoOrder, none⟩ }
  [.appendDataFiles 0 [dataFile] [], .registerDeleteFiles 0 [deleteFile],
    .dataMutation 0 { droppedDataFileIds := [1] }, .expireSnapshots [0, 1, 2]]

/-- The cleanup of the rewritten file of a history that removes the delete file first. -/
theorem knownFiles_listed_rewritten :
    KnowsListedFiles ((CatalogHistory.start 0 0).run (rewritten ++
      [.expireSnapshots [0, 1, 2], .removeOldDeleteFiles [10], .removeOldDataFiles [1]])).kv :=
  knownFiles_listed (.run (.start 0 0) (by decide +kernel))

/-- Once the data file is cleaned up its delete file has no owner, and the listing fails. -/
theorem knownFiles_unlisted :
    ¬∀ history, CatalogHistory.Reachable CatalogHistory.FreshFileIds history → KnowsListedFiles history.kv := by
  intro knows
  obtain ⟨known, lists, _⟩ := knows ((CatalogHistory.start 0 0).run (droppedWithDeletes ++ [.removeOldDataFiles [1]]))
    (.run (.start 0 0) (by decide +kernel))
  have fails : (listKnownFilesForOrphanCleanup
      ((CatalogHistory.start 0 0).run (droppedWithDeletes ++ [.removeOldDataFiles [1]])).kv).toOption = none := by
    decide +kernel
  rw [lists] at fails
  cases fails

end DucklakeCatalog
