import DucklakeCatalog.Fdb.Cleanup
import DucklakeCatalog.Fdb.CurrentFiles
import DucklakeCatalog.Fdb.StampedMutations
import DucklakeCatalog.File.ImmutableMetadata

/-! The metadata of the data files in the families that closing a file reads its
row from. -/
namespace DucklakeCatalog.Fdb

open KeyedStore

structure StoredFiles where
  dataFile : OrderedMap DataFileId DataFileRow
  currentDataFile : OrderedMap TableFileKey DataFileRow

def storedFiles (kv : CatalogKv) : StoredFiles := ⟨kv.dataFile, kv.currentDataFile⟩

namespace StoredFiles

def append (files : StoredFiles) (row : DataFileRow) : StoredFiles where
  dataFile := files.dataFile.insert row.dataFileId row
  currentDataFile := files.currentDataFile.insert (currentFileKey row) row

def close (order : CatalogOrderId) (files : StoredFiles) (row : DataFileRow) : StoredFiles where
  dataFile := files.dataFile.insert row.dataFileId (row.withEndOrder (some order))
  currentDataFile := files.currentDataFile.erase (currentFileKey row)

end StoredFiles

/-! ## Metadata during a transaction -/

abbrev KnownMetadata := DataFileId → ImmutableDataFileMetadata → Prop

/-- Every row has known metadata, or the transaction adds the file itself. -/
structure TracksMetadata (known : KnownMetadata) (proposed : List DataFileRow) (files : StoredFiles) : Prop where
  stored : ∀ dataFileId row, files.dataFile.get? dataFileId = some row →
    row.dataFileId = dataFileId ∧
      (known dataFileId row.immutableMetadata ∨ dataFileId ∈ proposed.map DataFileRow.dataFileId)
  current : ∀ key row, files.currentDataFile.get? key = some row →
    currentFileKey row = key ∧
      (known row.dataFileId row.immutableMetadata ∨ (∃ file ∈ proposed, currentFileKey file = key) ∧
        (files.dataFile.get? row.dataFileId).map DataFileRow.immutableMetadata = some row.immutableMetadata)

/-- The files a transaction adds are distinct, and nothing is known of them. -/
structure ProposesNew (known : KnownMetadata) (proposed : List DataFileRow) : Prop where
  distinct : (proposed.map DataFileRow.dataFileId).Nodup
  unknown : ∀ file ∈ proposed, ∀ metadata, ¬known file.dataFileId metadata

theorem ProposesNew.nothing (known : KnownMetadata) : ProposesNew known [] :=
  ⟨List.nodup_nil, fun _ member => absurd member List.not_mem_nil⟩

theorem ProposesNew.same_key {known : KnownMetadata} {proposed : List DataFileRow} (new : ProposesNew known proposed)
    {file other : DataFileRow} (member : file ∈ proposed) (listed : other ∈ proposed)
    (same : file.dataFileId = other.dataFileId) : currentFileKey file = currentFileKey other := by
  rw [List.inj_on_of_nodup_map new.distinct member listed same]

namespace TracksMetadata

variable {known : KnownMetadata} {proposed : List DataFileRow} {files : StoredFiles}

section

variable (tracks : TracksMetadata known proposed files)

include tracks

theorem append {file row : DataFileRow} (member : file ∈ proposed)
    (key : currentFileKey row = currentFileKey file) (absent : files.dataFile.get? row.dataFileId = none) :
    TracksMetadata known proposed (files.append row) where
  stored := by
    intro dataFileId found present
    simp only [StoredFiles.append, OrderedMap.get?_insert] at present
    split at present
    · rename_i here
      obtain rfl := Option.some.inj present
      have id : row.dataFileId = file.dataFileId := congrArg TableFileKey.dataFileId key
      exact ⟨here.symm, Or.inr (here ▸ id ▸ List.mem_map_of_mem member)⟩
    · exact tracks.stored dataFileId found present
  current := by
    intro query found present
    simp only [StoredFiles.append, OrderedMap.get?_insert] at present ⊢
    split at present
    · rename_i here
      obtain rfl := Option.some.inj present
      exact ⟨here.symm, Or.inr ⟨⟨file, member, here.symm ▸ key.symm⟩, by simp⟩⟩
    · obtain ⟨named, origin⟩ := tracks.current query found present
      refine ⟨named, origin.imp_right fun ⟨proposes, same⟩ => ⟨proposes, ?_⟩⟩
      rw [if_neg]
      · exact same
      · intro here
        rw [here, absent] at same
        cases same

/-- A file is closed with known metadata, or as the transaction has proposed it. -/
theorem close (new : ProposesNew known proposed) {row : DataFileRow}
    (order : CatalogOrderId) (source : known row.dataFileId row.immutableMetadata ∨
      ∃ file ∈ proposed, currentFileKey file = currentFileKey row) :
    TracksMetadata known proposed (files.close order row) where
  stored := by
    intro dataFileId found present
    simp only [StoredFiles.close, OrderedMap.get?_insert] at present
    split at present
    · rename_i here
      obtain rfl := Option.some.inj present
      rw [here]
      refine ⟨rfl, ?_⟩
      rcases source with isKnown | ⟨file, member, key⟩
      · exact Or.inl isKnown
      · have id : file.dataFileId = row.dataFileId := congrArg TableFileKey.dataFileId key
        exact Or.inr (id ▸ List.mem_map_of_mem member)
    · exact tracks.stored dataFileId found present
  current := by
    intro query found present
    simp only [StoredFiles.close, OrderedMap.get?_erase, OrderedMap.get?_insert] at present ⊢
    split at present
    · cases present
    · rename_i elsewhere
      obtain ⟨named, origin⟩ := tracks.current query found present
      refine ⟨named, ?_⟩
      rcases origin with isKnown | ⟨⟨file, member, key⟩, same⟩
      · exact Or.inl isKnown
      · refine Or.inr ⟨⟨file, member, key⟩, ?_⟩
        have id : file.dataFileId = found.dataFileId := congrArg TableFileKey.dataFileId (key.trans named.symm)
        rw [if_neg]
        · exact same
        · intro here
          -- The one entry of a new file is the one that closing it erases.
          rcases source with isKnown | ⟨other, listed, otherKey⟩
          · exact new.unknown file member _ ((id.trans here) ▸ isKnown)
          · have otherId : other.dataFileId = row.dataFileId := congrArg TableFileKey.dataFileId otherKey
            have sameKey := new.same_key member listed ((id.trans here).trans otherId.symm)
            exact elsewhere (key.symm.trans (sameKey.trans otherKey))

theorem closeAll (new : ProposesNew known proposed)
    (order : CatalogOrderId) {rows : List DataFileRow} (sources : ∀ row ∈ rows,
      known row.dataFileId row.immutableMetadata ∨ ∃ file ∈ proposed, currentFileKey file = currentFileKey row) :
    TracksMetadata known proposed (rows.foldl (StoredFiles.close order) files) := by
  induction rows generalizing files with
  | nil => exact tracks
  | cons row rest ih =>
    refine ih (tracks.close new order (sources row List.mem_cons_self)) ?_
    exact fun later member => sources later (List.mem_cons_of_mem _ member)

end

end TracksMetadata

/-! ## What transactions do to the stored files -/

section

variable {order : CatalogOrderId} {kv next : CatalogKv}

theorem stageDataFile_storedFiles {row : DataFileRow} (stages : stageDataFile order kv row = .ok next) :
    storedFiles next = (storedFiles kv).append (appendedRows order row).1 :=
  congrArg (fun copies : DataFileCopies => (⟨copies.dataFile, copies.currentDataFile⟩ : StoredFiles))
    (stageDataFile_copies stages)

theorem appendedRows_key (order : CatalogOrderId) (row : DataFileRow) :
    currentFileKey (appendedRows order row).1 = currentFileKey row := by
  unfold appendedRows
  split
  · rfl
  · rfl

/-- Files that are staged one after the other, each under an id of its own. -/
theorem foldlM_append_tracks {known : KnownMetadata} {proposed rows : List DataFileRow}
    {stage : CatalogKv → DataFileRow → CatalogResult CatalogKv}
    (appends : ∀ kv row next, stage kv row = .ok next →
      ∃ stored : DataFileRow, currentFileKey stored = currentFileKey row ∧
        storedFiles next = (storedFiles kv).append stored)
    (stages : rows.foldlM stage kv = .ok next) (tracks : TracksMetadata known proposed (storedFiles kv))
    (within : ∀ row ∈ rows, row ∈ proposed) (distinct : (rows.map DataFileRow.dataFileId).Nodup)
    (absent : ∀ row ∈ rows, kv.dataFile.get? row.dataFileId = none) :
    TracksMetadata known proposed (storedFiles next) := by
  induction rows generalizing kv with
  | nil =>
    obtain rfl : kv = next := by simpa [pure, Except.pure] using stages
    exact tracks
  | cons row rest ih =>
    rw [List.foldlM_cons, bind_eq_ok] at stages
    obtain ⟨appended, taken, stages⟩ := stages
    rw [List.map_cons, List.nodup_cons] at distinct
    obtain ⟨stored, key, files⟩ := appends kv row appended taken
    have id : stored.dataFileId = row.dataFileId := congrArg TableFileKey.dataFileId key
    have added : TracksMetadata known proposed (storedFiles appended) := by
      rw [files]
      refine tracks.append (within row List.mem_cons_self) key ?_
      rw [id]
      exact absent row List.mem_cons_self
    refine ih stages added (fun later member => within later (List.mem_cons_of_mem _ member)) distinct.2 ?_
    intro later member
    have different : later.dataFileId ≠ stored.dataFileId :=
      fun same => distinct.1 (id ▸ same ▸ List.mem_map_of_mem member)
    have rows := congrArg (fun files : StoredFiles => files.dataFile.get? later.dataFileId) files
    simp only [storedFiles, StoredFiles.append, OrderedMap.get?_insert, if_neg different] at rows
    rw [rows]
    exact absent later (List.mem_cons_of_mem _ member)

theorem stageDataFile_appends (order : CatalogOrderId) (kv : CatalogKv) (row : DataFileRow) (next : CatalogKv)
    (stages : stageDataFile order kv row = .ok next) : ∃ stored : DataFileRow,
    currentFileKey stored = currentFileKey row ∧ storedFiles next = (storedFiles kv).append stored :=
  ⟨_, appendedRows_key order row, stageDataFile_storedFiles stages⟩

theorem foldl_stageExpiredDataFile_storedFiles (seen : CatalogKv) (order : CatalogOrderId) (rows : List DataFileRow)
    (kv : CatalogKv) : storedFiles (rows.foldl (stageExpiredDataFile seen order) kv) =
      rows.foldl (StoredFiles.close order) (storedFiles kv) := by
  induction rows generalizing kv with
  | nil => rfl
  | cons row rest ih => exact ih _

theorem stageDroppedDataFiles_storedFiles {seen : CatalogKv} {now : Int} {policy : ExpiredObjectCleanupPolicy}
    {context : MutationDataFileContext} {droppedIds : List DataFileId}
    (stages : stageDroppedDataFiles seen now order policy context droppedIds kv = .ok next) :
    ∃ rows : List DataFileRow, (∀ row ∈ rows, ∃ dataFileId ∈ droppedIds, context.get? dataFileId = some row) ∧
      storedFiles next = rows.foldl (StoredFiles.close order) (storedFiles kv) := by
  unfold stageDroppedDataFiles at stages
  rw [bind_eq_ok] at stages
  obtain ⟨rows, loads, stages⟩ := stages
  refine ⟨rows, ?_, ?_⟩
  · intro row member
    obtain ⟨dataFileId, listed, loaded⟩ := mapM_source loads member
    exact ⟨dataFileId, listed, MutationDataFileContext.load_eq_ok.mp loaded⟩
  · rw [← Except.ok.inj stages]
    clear loads stages
    induction rows generalizing kv with
    | nil => rfl
    | cons row rest ih =>
      rw [List.foldl_cons, ih, List.foldl_cons]
      cases policy with
      | schedule cleanupKind => rfl
      | preserve => rfl

theorem stageDrop_storedFiles (seen : CatalogKv) (order : CatalogOrderId) (store : FdbStore) (drop : PreparedTableDrop) :
    storedFiles (stageDrop seen order store drop).kv =
      drop.dataFiles.foldl (StoredFiles.close order) (storedFiles store.kv) := by
  have deletes := foldl_view storedFiles
    (fun kv row => rfl : ∀ kv row,
      storedFiles (stageExpiredDeleteFile seen order kv drop.table.tableId row) = storedFiles kv) drop.deleteFiles
    (drop.dataFiles.foldl (stageExpiredDataFile seen order) store.kv)
  exact deletes.trans (foldl_stageExpiredDataFile_storedFiles seen order drop.dataFiles store.kv)

end

theorem relatesStages_storedFiles (order : CatalogOrderId) : RelatesStages order fun drops before after =>
    storedFiles after.kv =
      (drops.flatMap PreparedTableDrop.dataFiles).foldl (StoredFiles.close order) (storedFiles before.kv) where
  refl _ := rfl
  trans left right := by rw [right, left, List.flatMap_append, List.foldl_append]
  creates _ _ := rfl
  replaces store replacement := by
    unfold stageTableReplacement
    dsimp only [storedFiles, stageTableVisibilityBegin, stageTableVisibilityEnd, stageCurrentTableRow]
    rw [(stageCurrentTableNameReplacement_kv _ _).1]
    rfl
  drops seen store drop := by
    rw [List.flatMap_singleton]
    exact stageDrop_storedFiles seen order store drop
  notes store tableIds := by
    unfold stageMaxTableId
    cases tableIds.max? with
    | none => rfl
    | some tableId => rfl
  inserts stages := by
    have same := (stagePreparedInlineMutation_writes stages).sameFiles
    exact congrArg₂ StoredFiles.mk same.dataFile same.currentDataFile
  commits _ := rfl

/-- A change of tables closes the files its drops list, and touches no others. -/
theorem TableCommit.transact_storedFiles (commit : TableCommit) {store next : FdbStore}
    (transacts : commit.transact store = some next) :
    storedFiles next.kv = (commit.drops.flatMap PreparedTableDrop.dataFiles).foldl
      (StoredFiles.close store.commitOrder) (storedFiles store.kv) :=
  transact_related (relatesStages_storedFiles store.commitOrder) transacts

/-- A cleanup transaction only takes rows away. -/
theorem CleanupTransaction.transact_storedFiles {transaction : CleanupTransaction} {store next : FdbStore}
    (transacts : transaction.transact store = some next) :
    (∀ dataFileId row, next.kv.dataFile.get? dataFileId = some row → store.kv.dataFile.get? dataFileId = some row) ∧
      ∀ key row, next.kv.currentDataFile.get? key = some row → store.kv.currentDataFile.get? key = some row := by
  obtain ⟨kv, clears, rfl⟩ := Option.map_eq_some_iff.mp transacts
  cases transaction with
  | dataFile seen row =>
    obtain rfl := Option.some.inj clears
    constructor
    · intro dataFileId stored found
      simp only [FdbStore.commitAt, removeDataFileMetadata, OrderedMap.get?_erase] at found
      split at found
      · cases found
      · exact found
    · intro key stored found
      simp only [FdbStore.commitAt, removeDataFileMetadata, OrderedMap.get?_erase] at found
      split at found
      · cases found
      · exact found
  | dataFileSchedule dataFileId
  | deleteFile row
  | deleteFileSchedule deleteFileId =>
    obtain rfl := Option.some.inj clears
    exact ⟨fun _ _ found => found, fun _ _ found => found⟩
  | inlinePayload seen row =>
    simp only [CleanupTransaction.clear, removeInlinePayloadIfUnchanged] at clears
    split at clears
    · cases clears
    · obtain rfl := Option.some.inj clears
      exact ⟨fun _ _ found => found, fun _ _ found => found⟩
  | flushWatermarks keys =>
    obtain rfl := Option.some.inj clears
    exact ⟨fun _ _ found => found, fun _ _ found => found⟩

end DucklakeCatalog.Fdb
