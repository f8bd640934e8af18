import DucklakeCatalog.Fdb.Effects
import DucklakeCatalog.Fdb.FileIds
import DucklakeCatalog.Fdb.InlineCommits
import DucklakeCatalog.Fdb.PartitionPruning
import DucklakeCatalog.Fdb.TableWrites

/-! What commits do to the partition values and their lookups. Values are only
added, lookups also go. -/
namespace DucklakeCatalog.Fdb

open KeyedStore

/-! ## Commits that add no value -/

/-- What a pruned listing depends on besides the data files themselves. -/
structure PartitionView where
  values : OrderedMap FilePartitionValueKey FilePartitionValueRow
  lookups : OrderedMap PartitionValueLookupKey (FilePartitionValueRow × DataFileRow)
  dataFile : OrderedMap DataFileId DataFileRow
  latest : Option SnapshotRow

def CatalogKv.partitionView (kv : CatalogKv) : PartitionView where
  values := kv.filePartitionValue
  lookups := kv.partitionValueLookup
  dataFile := kv.dataFile
  latest := latestSnapshot kv

/-- Values stay, data files stay stored, lookups may go, and there is still a latest snapshot. -/
structure LosesLookups (before after : CatalogKv) : Prop where
  values : after.filePartitionValue = before.filePartitionValue
  lookups : ∀ key entry, after.partitionValueLookup.get? key = some entry →
    before.partitionValueLookup.get? key = some entry
  stored : ∀ dataFileId, (before.dataFile.get? dataFileId).isSome → (after.dataFile.get? dataFileId).isSome
  latest : (latestSnapshot before).isSome → (latestSnapshot after).isSome

theorem LosesLookups.of_eq {before after : CatalogKv}
    (same : CatalogKv.partitionView after = CatalogKv.partitionView before) : LosesLookups before after := by
  simp only [CatalogKv.partitionView, PartitionView.mk.injEq] at same
  obtain ⟨values, lookups, dataFile, latest⟩ := same
  refine ⟨values, fun key entry found => lookups ▸ found, fun dataFileId stored => ?_, fun present => ?_⟩
  · rw [dataFile]
    exact stored
  · rw [latest]
    exact present

theorem LosesLookups.refl (kv : CatalogKv) : LosesLookups kv kv := .of_eq rfl

theorem LosesLookups.trans {first second third : CatalogKv} (left : LosesLookups first second)
    (right : LosesLookups second third) : LosesLookups first third where
  values := right.values.trans left.values
  lookups := fun key entry found => left.lookups key entry (right.lookups key entry found)
  stored := fun dataFileId found => right.stored dataFileId (left.stored dataFileId found)
  latest := fun present => right.latest (left.latest present)

theorem LosesLookups.namesValues {before after : CatalogKv} (loses : LosesLookups before after)
    (names : LookupsNameValues before) : LookupsNameValues after where
  value := by
    intro key row dataFile found
    rw [loses.values]
    exact names.value (loses.lookups _ _ found)
  copy := fun found => names.copy (loses.lookups _ _ found)
  stored := fun found => loses.stored _ (names.stored (loses.lookups _ _ found))

theorem stageSnapshot_losesLookups (kv : CatalogKv) (snapshot : SnapshotRow) :
    LosesLookups kv (stageSnapshot kv snapshot) where
  values := rfl
  lookups := fun _ _ found => found
  stored := fun _ found => found
  latest := by
    intro _
    simp [latestSnapshot, stageSnapshot]

theorem WritesInlineRows.losesLookups {before after : FdbStore} (writes : WritesInlineRows before after) :
    LosesLookups before.kv after.kv := by
  obtain ⟨_, _, _, _, _, _, _, _, _, _, _, _, rfl⟩ := writes
  exact .of_eq rfl

theorem WritesFlushes.losesLookups {before after : FdbStore} (writes : WritesFlushes before after) :
    LosesLookups before.kv after.kv := by
  obtain ⟨_, _, _, _, _, _, rfl⟩ := writes
  exact .of_eq rfl

theorem WritesDeleteFiles.losesLookups {before after : CatalogKv} (writes : WritesDeleteFiles before after) :
    LosesLookups before after := by
  obtain ⟨_, _, _, _, _, _, _, rfl⟩ := writes
  exact .of_eq rfl

theorem stageExpiredDataFile_losesLookups (seen : CatalogKv) (order : CatalogOrderId) (kv : CatalogKv)
    (row : DataFileRow) : LosesLookups kv (stageExpiredDataFile seen order kv row) where
  values := rfl
  lookups := by
    intro key entry found
    have erased := OrderedMap.get?_foldl_erases
      (id : OrderedMap PartitionValueLookupKey (FilePartitionValueRow × DataFileRow) → _) id (fun _ _ => rfl)
      ((seen.filePartitionValue.scan fun key => key.dataFileId = row.dataFileId).map fun entry =>
        (⟨entry.2.tableId, entry.2.partitionKeyIndex, entry.2.partitionValue, entry.2.dataFileId⟩ :
          PartitionValueLookupKey)) kv.partitionValueLookup key
    have left := erased.symm.trans found
    split at left
    · cases left
    · exact left
  stored := fun _ found => OrderedMap.get?_insert_isSome found
  latest := id

theorem stageDroppedDataFiles_losesLookups {seen kv next : CatalogKv} {now : Int} {order : CatalogOrderId}
    {policy : ExpiredObjectCleanupPolicy} {context : MutationDataFileContext} {droppedIds : List DataFileId}
    (staged : stageDroppedDataFiles seen now order policy context droppedIds kv = .ok next) : LosesLookups kv next := by
  unfold stageDroppedDataFiles at staged
  rw [bind_eq_ok] at staged
  obtain ⟨rows, _, staged⟩ := staged
  obtain rfl := Except.ok.inj staged
  refine foldl_relates LosesLookups.refl (fun left right => left.trans right) ?_ rows kv
  intro kv row
  refine (stageExpiredDataFile_losesLookups seen order kv row).trans ?_
  cases policy with
  | schedule cleanupKind => exact .of_eq rfl
  | preserve => exact .refl _

theorem stageDrop_losesLookups (seen : CatalogKv) (order : CatalogOrderId) (store : FdbStore)
    (drop : PreparedTableDrop) : LosesLookups store.kv (stageDrop seen order store drop).kv := by
  have files : LosesLookups store.kv (drop.dataFiles.foldl (stageExpiredDataFile seen order) store.kv) :=
    foldl_relates LosesLookups.refl (fun left right => left.trans right)
      (stageExpiredDataFile_losesLookups seen order) drop.dataFiles store.kv
  have deletes := foldl_view CatalogKv.partitionView
    (fun kv row => rfl : ∀ kv row,
      CatalogKv.partitionView (stageExpiredDeleteFile seen order kv drop.table.tableId row) = _) drop.deleteFiles
    (drop.dataFiles.foldl (stageExpiredDataFile seen order) store.kv)
  exact files.trans (.of_eq deletes)

theorem relatesStages_losesLookups (order : CatalogOrderId) :
    RelatesStages order fun _ before after => LosesLookups before.kv after.kv where
  refl store := .refl store.kv
  trans left right := left.trans right
  creates _ _ := .of_eq rfl
  replaces store replacement := by
    apply LosesLookups.of_eq
    unfold stageTableReplacement
    dsimp only [CatalogKv.partitionView, latestSnapshot, stageTableVisibilityBegin, stageTableVisibilityEnd,
      stageCurrentTableRow]
    rw [(stageCurrentTableNameReplacement_kv _ _).1]
  drops seen store drop := stageDrop_losesLookups seen order store drop
  notes store tableIds := by
    unfold stageMaxTableId
    cases tableIds.max? with
    | none => exact .refl _
    | some tableId => exact .of_eq rfl
  inserts stages := (stagePreparedInlineMutation_writes stages).losesLookups
  commits _ := .of_eq rfl

/-- A change of table metadata adds no value. -/
theorem TableCommit.transact_losesLookups (commit : TableCommit) {store next : FdbStore}
    (transacts : commit.transact store = some next) : LosesLookups store.kv next.kv :=
  (stageSnapshot_losesLookups store.kv (commit.snapshot store.commitOrder)).trans
    (transact_related (relatesStages_losesLookups store.commitOrder) transacts)

end DucklakeCatalog.Fdb
