import DucklakeCatalog.Run.DeleteFileCoherence

namespace DucklakeCatalog

open KeyedStore

namespace DeleteFileCleanupRow

/-- The timeline key that removal rebuilds from the row. -/
def timelineKey (row : DeleteFileCleanupRow) : DeleteFileTimelineKey :=
  ⟨row.deleteFile.dataFileId, row.deleteFile.validity.beginOrder, row.deleteFile.deleteFileId⟩

def tableChangeKey (row : DeleteFileCleanupRow) : TableOrderKey :=
  ⟨row.tableId, row.deleteFile.validity.beginOrder, row.deleteFile.deleteFileId⟩

def orderChangeKey (row : DeleteFileCleanupRow) : OrderTableKey :=
  ⟨row.deleteFile.validity.beginOrder, row.tableId, row.deleteFile.deleteFileId⟩

def endKeys (row : DeleteFileCleanupRow) : List TableOrderKey :=
  row.deleteFile.validity.endOrder.toList.map fun endOrder => ⟨row.tableId, endOrder, row.deleteFile.deleteFileId⟩

end DeleteFileCleanupRow

namespace DeleteFileIndexes

/-- The maps after removal: exactly the keys rebuilt from the removed rows are gone. -/
structure Removes (before after : DeleteFileIndexes) (removed : List DeleteFileCleanupRow) : Prop where
  current : after.currentDeleteFile = before.currentDeleteFile
  deleteFile : ∀ {deleteFileId row}, after.deleteFile.get? deleteFileId = some row ↔
    before.deleteFile.get? deleteFileId = some row ∧ ∀ gone ∈ removed, gone.deleteFile.deleteFileId ≠ deleteFileId
  timeline : ∀ {key row}, after.timeline.get? key = some row ↔
    before.timeline.get? key = some row ∧ ∀ gone ∈ removed, gone.timelineKey ≠ key
  ended : ∀ {key deleteFileId}, after.ended.get? key = some deleteFileId ↔
    before.ended.get? key = some deleteFileId ∧ ∀ gone ∈ removed, key ∉ gone.endKeys
  tableChange : ∀ {key}, after.tableChange.get? key = some () ↔
    before.tableChange.get? key = some () ∧ ∀ gone ∈ removed, gone.tableChangeKey ≠ key
  orderChange : ∀ {key}, after.orderChange.get? key = some () ↔
    before.orderChange.get? key = some () ∧ ∀ gone ∈ removed, gone.orderChangeKey ≠ key
  scheduled : ∀ {deleteFileId cleanup}, after.scheduled.get? deleteFileId = some cleanup ↔
    before.scheduled.get? deleteFileId = some cleanup ∧ ∀ gone ∈ removed, gone.deleteFile.deleteFileId ≠ deleteFileId

/-- What the cleanup listing promises of a row it offers. -/
structure Offered (indexes : DeleteFileIndexes) (tableOf : DeleteFileId → TableId) (row : DeleteFileCleanupRow) :
    Prop where
  stored : indexes.deleteFile.get? row.deleteFile.deleteFileId = some row.deleteFile
  table : row.tableId = tableOf row.deleteFile.deleteFileId
  closed : row.deleteFile.validity.endOrder.isSome

variable {before after : DeleteFileIndexes} {scope : DeleteFileScope} {tableOf : DeleteFileId → TableId}
  {removed : List DeleteFileCleanupRow}

/-- A timeline entry of a delete file on offer is its one entry. -/
theorem Offered.entry {gone : DeleteFileCleanupRow} (offered : before.Offered tableOf gone)
    (sound : before.Sound scope tableOf) {key : DeleteFileTimelineKey} {row : DeleteFileRow}
    (found : before.timeline.get? key = some row) (named : key.deleteFileId = gone.deleteFile.deleteFileId) :
    row = gone.deleteFile ∧ key.dataFileId = gone.deleteFile.dataFileId := by
  obtain ⟨_, order, indexed⟩ := sound.primary offered.stored
  have same := sound.only found indexed named
  refine ⟨?_, by rw [same]⟩
  rw [same] at found
  exact Option.some.inj (found.symm.trans indexed)

theorem Sound.removes (sound : before.Sound scope tableOf) (removes : before.Removes after removed)
    (offered : ∀ gone ∈ removed, before.Offered tableOf gone) : after.Sound scope tableOf := by
  refine ⟨?_, ?_, ?_, ?_, ?_, ?_, ?_, ?_, ?_⟩
  · intro key row found
    exact sound.entry (removes.timeline.mp found).1
  · intro key other row stored found alsoFound
    exact sound.only (removes.timeline.mp found).1 (removes.timeline.mp alsoFound).1
  · intro deleteFileId row found
    obtain ⟨stored, kept⟩ := removes.deleteFile.mp found
    obtain ⟨named, order, indexed⟩ := sound.primary stored
    refine ⟨named, order, removes.timeline.mpr ⟨indexed, ?_⟩⟩
    intro gone member same
    exact kept gone member (congrArg DeleteFileTimelineKey.deleteFileId same)
  · intro key row found
    obtain ⟨indexed, kept⟩ := removes.timeline.mp found
    obtain ⟨owned, table, ordered⟩ := sound.changed indexed
    -- A change entry goes only together with the timeline entry at the same order.
    have together : ∀ gone ∈ removed, gone.deleteFile.validity.beginOrder = key.order →
        gone.deleteFile.deleteFileId ≠ key.deleteFileId := by
      intro gone member begun named
      obtain ⟨_, file⟩ := (offered gone member).entry sound indexed named.symm
      refine kept gone member ?_
      simp only [DeleteFileCleanupRow.timelineKey, ← file, begun, named]
    refine ⟨owned, removes.tableChange.mpr ⟨table, ?_⟩, removes.orderChange.mpr ⟨ordered, ?_⟩⟩
    · intro gone member same
      exact together gone member (congrArg TableOrderKey.order same) (congrArg TableOrderKey.fileId same)
    · intro gone member same
      exact together gone member (congrArg OrderTableKey.order same) (congrArg OrderTableKey.fileId same)
  · intro key row endOrder found closes
    obtain ⟨later, reason⟩ := sound.closed (removes.timeline.mp found).1 closes
    refine ⟨later, reason.imp ?_ id⟩
    rintro ⟨deleteFileId, stored, indexed, reaches⟩
    refine ⟨deleteFileId, stored, removes.timeline.mpr ⟨indexed, ?_⟩, reaches⟩
    -- The replacement reaches back before its order, so removal does not find its entry.
    intro gone member same
    have named : deleteFileId = gone.deleteFile.deleteFileId :=
      (congrArg DeleteFileTimelineKey.deleteFileId same).symm
    obtain ⟨rfl, _⟩ := (offered gone member).entry sound indexed named
    have begun : gone.deleteFile.validity.beginOrder = endOrder := congrArg DeleteFileTimelineKey.order same
    exact absurd reaches (begun ▸ lt_irrefl _)
  · intro key found
    obtain ⟨changed, kept⟩ := removes.tableChange.mp found
    obtain ⟨table, dataFileId, row, indexed⟩ := sound.tableChanged changed
    refine ⟨table, dataFileId, row, removes.timeline.mpr ⟨indexed, ?_⟩⟩
    intro gone member same
    have named : gone.deleteFile.deleteFileId = key.fileId := congrArg DeleteFileTimelineKey.deleteFileId same
    have begun : gone.deleteFile.validity.beginOrder = key.order := congrArg DeleteFileTimelineKey.order same
    refine kept gone member ?_
    simp only [DeleteFileCleanupRow.tableChangeKey, (offered gone member).table, named, begun, ← table]
  · intro key found
    obtain ⟨changed, kept⟩ := removes.orderChange.mp found
    obtain ⟨table, dataFileId, row, indexed⟩ := sound.orderChanged changed
    refine ⟨table, dataFileId, row, removes.timeline.mpr ⟨indexed, ?_⟩⟩
    intro gone member same
    have named : gone.deleteFile.deleteFileId = key.fileId := congrArg DeleteFileTimelineKey.deleteFileId same
    have begun : gone.deleteFile.validity.beginOrder = key.order := congrArg DeleteFileTimelineKey.order same
    refine kept gone member ?_
    simp only [DeleteFileCleanupRow.orderChangeKey, (offered gone member).table, named, begun, ← table]
  · intro key deleteFileId found
    obtain ⟨ended, kept⟩ := removes.ended.mp found
    obtain ⟨table, row, stored, closes⟩ := sound.ends ended
    refine ⟨table, row, removes.deleteFile.mpr ⟨stored, ?_⟩, closes⟩
    intro gone member named
    have same := (offered gone member).stored
    rw [named, stored] at same
    obtain rfl := Option.some.inj same
    refine kept gone member ?_
    simp [DeleteFileCleanupRow.endKeys, closes, (offered gone member).table, named, ← table]
  · intro deleteFileId cleanup found
    obtain ⟨scheduled, kept⟩ := removes.scheduled.mp found
    obtain ⟨table, row, stored⟩ := sound.schedule scheduled
    exact ⟨table, row, removes.deleteFile.mpr ⟨stored, kept⟩⟩

theorem CurrentOpen.removes (opened : before.CurrentOpen) (removes : before.Removes after removed)
    (offered : ∀ gone ∈ removed, before.Offered tableOf gone) : after.CurrentOpen := by
  intro dataFileId row found
  rw [removes.current] at found
  obtain ⟨file, isOpen, stored⟩ := opened found
  refine ⟨file, isOpen, removes.deleteFile.mpr ⟨stored, ?_⟩⟩
  intro gone member named
  have same := (offered gone member).stored
  rw [named, stored] at same
  obtain rfl := Option.some.inj same
  have closed := (offered gone member).closed
  simp [isOpen] at closed

end DeleteFileIndexes

/-! ## Staged removal -/

variable {history : CatalogHistory}

section

variable {kv : CatalogKv} {scope : DeleteFileScope} {tableOf : DeleteFileId → TableId} {batch : KvBatch}
variable {rows : List DeleteFileCleanupRow} {snapshots : List SnapshotRow} {deleteFileIds : List DeleteFileId}

/-- Rows on offer are stored and closed, and carry the table of their delete file. -/
theorem listOldDeleteFilesForCleanup_offered (sound : kv.deleteFileIndexes.Sound scope tableOf)
    (listed : listOldDeleteFilesForCleanup kv = .ok rows) :
    ∀ row ∈ rows, kv.deleteFileIndexes.Offered tableOf row := by
  unfold listOldDeleteFilesForCleanup at listed
  simp only [bind_eq_ok, pure_eq_ok] at listed
  obtain ⟨snapshots, _, rfl⟩ := listed
  intro row member
  rcases List.mem_append.mp member with scheduled | ended
  · obtain ⟨schedule, listed, rfl⟩ := List.mem_map.mp scheduled
    obtain ⟨joined, allowed⟩ := List.mem_filter.mp listed
    obtain ⟨⟨deleteFileId, tableId, scheduleStart⟩, entry, found⟩ := List.mem_filterMap.mp joined
    obtain ⟨deleteFile, stored, rfl⟩ := Option.map_eq_some_iff.mp found
    have named := (sound.primary stored).1
    have table := (sound.schedule (kv.scheduledDeleteFileCleanup.get?_eq_some_iff.mpr entry)).1
    rw [Bool.and_eq_true] at allowed
    exact ⟨named ▸ stored, named ▸ table, allowed.1⟩
  · obtain ⟨key, unseen, found⟩ := List.mem_filterMap.mp ended
    obtain ⟨deleteFile, kept, rfl⟩ := Option.map_eq_some_iff.mp found
    obtain ⟨stored, allowed⟩ := Option.filter_eq_some_iff.mp kept
    have named := (sound.primary stored).1
    obtain ⟨⟨_, deleteFileId⟩, entry, rfl⟩ := List.mem_map.mp (mem_of_mem_unseenEntries unseen)
    have table := (sound.ends (kv.deleteFileEnd.get?_eq_some_iff.mpr entry)).1
    rw [Bool.and_eq_true] at allowed
    exact ⟨named ▸ stored, named ▸ table, allowed.1⟩

theorem listOldDeleteFilesForCleanup_allowed
    (listed : listOldDeleteFilesForCleanup kv = .ok rows) (retained : listSnapshots kv = .ok snapshots) :
    ∀ row ∈ rows, deleteFileCleanupIsAllowed kv row.deleteFile snapshots := by
  unfold listOldDeleteFilesForCleanup at listed
  simp only [retained, bind, Except.bind, pure_eq_ok] at listed
  subst listed
  intro row member
  rcases List.mem_append.mp member with scheduled | ended
  · obtain ⟨schedule, listed, rfl⟩ := List.mem_map.mp scheduled
    have allowed := (List.mem_filter.mp listed).2
    rw [Bool.and_eq_true] at allowed
    exact allowed.2
  · obtain ⟨key, _, found⟩ := List.mem_filterMap.mp ended
    obtain ⟨deleteFile, kept, rfl⟩ := Option.map_eq_some_iff.mp found
    have allowed := (Option.filter_eq_some_iff.mp kept).2
    rw [Bool.and_eq_true] at allowed
    exact allowed.2

/-- The staged deletions of one removed row, map by map. -/
theorem stageRemoveOldDeleteFile_eq (kv : CatalogKv) (batch : KvBatch) (row : DeleteFileCleanupRow) :
    stageRemoveOldDeleteFile kv batch row = { batch with
      deleteFile := batch.deleteFile.deleteAll [row.deleteFile.deleteFileId]
      deleteFileTimeline := batch.deleteFileTimeline.deleteAll [row.timelineKey]
      tableDeleteFileChange := batch.tableDeleteFileChange.deleteAll [row.tableChangeKey]
      orderDeleteFileChange := batch.orderDeleteFileChange.deleteAll [row.orderChangeKey]
      deleteFileEnd := batch.deleteFileEnd.deleteAll row.endKeys
      scheduledDeleteFileCleanup := batch.scheduledDeleteFileCleanup.deleteAll
        (if (kv.scheduledDeleteFileCleanup.get? row.deleteFile.deleteFileId).isSome then [row.deleteFile.deleteFileId]
        else []) } := by
  unfold stageRemoveOldDeleteFile stageRemoveDeleteFileMetadata
  simp only [DeleteFileCleanupRow.endKeys]
  cases row.deleteFile.validity.endOrder with
  | none
  | some endOrder =>
    split
    · rfl
    · rfl

theorem foldl_stageRemoveOldDeleteFile_removes (rows : List DeleteFileCleanupRow) :
    kv.deleteFileIndexes.Removes (kv.commit (rows.foldl (stageRemoveOldDeleteFile kv) {})).deleteFileIndexes rows := by
  have deleted {K V : Type} [LinearOrder K] (view : KvBatch → Staged K V) (keysOf : DeleteFileCleanupRow → List K)
      (step : ∀ batch row, view (stageRemoveOldDeleteFile kv batch row) = (view batch).deleteAll (keysOf row))
      (empty : view {} = {}) (map : OrderedMap K V) (key : K) (value : V) :
      (map.commit (view (rows.foldl (stageRemoveOldDeleteFile kv) {}))).get? key = some value ↔
        map.get? key = some value ∧ ∀ gone ∈ rows, key ∉ keysOf gone := by
    rw [Staged.foldl_deleteAll view keysOf step, empty, OrderedMap.get?_commit_deleteAll]
    simp
  have single {K : Type} (key : K) (keyOf : DeleteFileCleanupRow → K) :
      (∀ gone ∈ rows, key ∉ [keyOf gone]) ↔ ∀ gone ∈ rows, keyOf gone ≠ key := by
    simp [eq_comm]
  have staged := stageRemoveOldDeleteFile_eq kv
  refine ⟨?_, ?_, ?_, ?_, ?_, ?_, ?_⟩
  · have untouched : (rows.foldl (stageRemoveOldDeleteFile kv) {}).currentDeleteFile = {} :=
      foldl_view KvBatch.currentDeleteFile (fun batch row => by rw [staged]) rows {}
    exact congrArg kv.currentDeleteFile.commit untouched
  · intro deleteFileId row
    rw [← single deleteFileId]
    exact deleted KvBatch.deleteFile _ (fun batch row => by rw [staged]) rfl kv.deleteFile deleteFileId row
  · intro key row
    rw [← single key]
    exact deleted KvBatch.deleteFileTimeline _ (fun batch row => by rw [staged]) rfl kv.deleteFileTimeline key row
  · intro key deleteFileId
    exact deleted KvBatch.deleteFileEnd _ (fun batch row => by rw [staged]) rfl kv.deleteFileEnd key deleteFileId
  · intro key
    rw [← single key]
    exact deleted KvBatch.tableDeleteFileChange _ (fun batch row => by rw [staged]) rfl kv.tableDeleteFileChange key ()
  · intro key
    rw [← single key]
    exact deleted KvBatch.orderDeleteFileChange _ (fun batch row => by rw [staged]) rfl kv.orderDeleteFileChange key ()
  · intro deleteFileId cleanup
    have found := deleted KvBatch.scheduledDeleteFileCleanup _ (fun batch row => by rw [staged]) rfl
      kv.scheduledDeleteFileCleanup deleteFileId cleanup
    refine found.trans (and_congr_right ?_)
    intro scheduled
    refine forall₂_congr ?_
    intro gone member
    -- A schedule is deleted only where there is one, which is the only place it matters.
    by_cases same : gone.deleteFile.deleteFileId = deleteFileId
    · subst same
      have present : kv.scheduledDeleteFileCleanup.get? gone.deleteFile.deleteFileId = some cleanup := scheduled
      simp [present]
    · split
      · simp [same, Ne.symm same]
      · simp [same]

theorem stageRemoveOldDataFiles_deleteFileMaps {dataFileIds : List DataFileId} {removed : List DataFileRow}
    (staged : stageRemoveOldDataFiles kv dataFileIds = .ok (removed, batch)) :
    batch.deleteFileMaps = ({} : KvBatch).deleteFileMaps := by
  obtain ⟨_, ⟨_, _, _, _, _, _, _, _, _, _, _, rfl⟩, _, _, _, rfl⟩ := stageRemoveOldDataFiles_changes staged
  rfl

/-- An accepted removal takes out rows that are on offer. -/
theorem stageRemoveOldDeleteFiles_removes (sound : kv.deleteFileIndexes.Sound scope tableOf)
    {removed : List DeleteFileCleanupRow}
    (staged : stageRemoveOldDeleteFiles kv deleteFileIds = .ok (removed, batch)) :
    kv.deleteFileIndexes.Removes (kv.commit batch).deleteFileIndexes removed ∧
      ∀ gone ∈ removed, kv.deleteFileIndexes.Offered tableOf gone := by
  obtain ⟨rows, listed, snapshots, _, rfl, rfl⟩ := stageRemoveOldDeleteFiles_ok staged
  refine ⟨?_, ?_⟩
  · rw [kv.commit_deleteFileIndexes_congr (stageRemoveUnreachableTables_changes kv _ _ snapshots).deleteFileMaps]
    exact foldl_stageRemoveOldDeleteFile_removes _
  · intro gone member
    exact listOldDeleteFilesForCleanup_offered sound listed gone (List.mem_filter.mp member).1

theorem stageRemoveOldDeleteFiles_allowed {removed : List DeleteFileCleanupRow}
    (staged : stageRemoveOldDeleteFiles kv deleteFileIds = .ok (removed, batch))
    (retained : listSnapshots kv = .ok snapshots) :
    ∀ gone ∈ removed, deleteFileCleanupIsAllowed kv gone.deleteFile snapshots = true := by
  unfold stageRemoveOldDeleteFiles at staged
  simp only [retained, bind_eq_ok, pure, Except.pure, Except.ok.injEq, Prod.mk.injEq] at staged
  obtain ⟨rows, listed, _, rfl, rfl, rfl⟩ := staged
  intro gone member
  have requested := (List.mem_filter.mp member).2
  rw [Bool.and_eq_true] at requested
  exact requested.2

theorem DeleteFilesSound.maintain {operation : CatalogOperation}
    (deletes : DeleteFilesSound history) (data : DataFilesSound history)
    (maintains : operation.Maintains history.kv batch) : DeleteFilesSound (history.maintained batch) := by
  obtain ⟨tables, sound⟩ := deletes.sound
  have remaining := maintains.dataFiles data.coherent.named
  -- Data files only go, so what is known about the remaining ones stays known.
  have wider {indexes : DeleteFileIndexes} (soundNow : indexes.Sound history.deleteFileScope tables) :
      indexes.Sound (history.maintained batch).deleteFileScope tables := by
    refine soundNow.mono ?_ ?_ (fun _ used => used) (le_refl _)
    · intro key row _ owned
      exact ⟨owned.1, fun dataFile found => owned.2 dataFile (remaining.kept found)⟩
    · intro key row endOrder _ ended dataFile found
      exact ended dataFile (remaining.kept found)
  have untouched (same : batch.deleteFileMaps = ({} : KvBatch).deleteFileMaps) :
      DeleteFilesSound (history.maintained batch) := by
    have unchanged : (history.maintained batch).kv.deleteFileIndexes = history.kv.deleteFileIndexes :=
      history.kv.commit_deleteFileIndexes_congr same
    refine ⟨⟨tables, ?_⟩, ?_⟩
    · rw [unchanged]
      exact wider sound
    · rw [unchanged]
      exact deletes.opened
  cases maintains with
  | expireSnapshots staged =>
    obtain ⟨_, rfl⟩ := stageExpiredSnapshots_changes staged
    exact untouched rfl
  | removeOldDataFiles staged => exact untouched (stageRemoveOldDataFiles_deleteFileMaps staged)
  | removeOldDeleteFiles staged =>
    obtain ⟨removes, offered⟩ := stageRemoveOldDeleteFiles_removes sound staged
    exact ⟨⟨tables, wider (sound.removes removes offered)⟩,
      DeleteFileIndexes.CurrentOpen.removes deletes.opened removes offered⟩

end

theorem DataFilesSound.generated (data : DataFilesSound history) :
    DataFilesSound { history with kv := history.kv.withGeneratedOrder } :=
  ⟨data.coherent, data.used⟩

theorem DeleteFilesSound.generated (deletes : DeleteFilesSound history) :
    DeleteFilesSound { history with kv := history.kv.withGeneratedOrder } := by
  obtain ⟨tables, sound⟩ := deletes.sound
  refine ⟨⟨tables, ?_⟩, deletes.opened⟩
  exact sound.mono (fun _ owned => owned) (fun _ ended => ended) (fun _ used => used) (Nat.le_succ _)

theorem CatalogHistory.Reachable.deleteFilesSound {Allowed : CatalogHistory → CatalogOperation → Prop}
    (fresh : ∀ history operation, Allowed history operation → history.FreshFileIds operation)
    (reachable : CatalogHistory.Reachable Allowed history) : DataFilesSound history ∧ DeleteFilesSound history := by
  refine reachable.invariant (fun history => DataFilesSound history ∧ DeleteFilesSound history) ?_ ?_ ?_ ?_
  · intro lastOrder now
    exact ⟨.start lastOrder now, .start lastOrder now⟩
  · rintro history ⟨data, deletes⟩
    exact ⟨data.generated, deletes.generated⟩
  · rintro history operation batch ⟨data, deletes⟩ allowed commits
    exact ⟨data.commit (fresh _ _ allowed).1 commits, deletes.commit data (fresh _ _ allowed) commits⟩
  · rintro history operation batch ⟨data, deletes⟩ _ maintains
    exact ⟨data.maintain maintains, deletes.maintain data maintains⟩

end DucklakeCatalog
