import DucklakeCatalog.Snapshot.Store

namespace DucklakeCatalog

open KeyedStore

def partitionLookupKey (row : FilePartitionValueRow) : PartitionValueLookupKey :=
  ⟨row.tableId, row.partitionKeyIndex, row.partitionValue, row.dataFileId⟩

/-- Stored partition values of one data file, in key order. -/
def filePartitionValuesOf (kv : CatalogKv) (dataFileId : DataFileId) :
    List (FilePartitionValueKey × FilePartitionValueRow) :=
  kv.filePartitionValue.scan fun key => key.dataFileId = dataFileId

def stageFilePartitionValue (batch : KvBatch) (row : FilePartitionValueRow) (dataFile : DataFileRow) : KvBatch :=
  { batch with
    filePartitionValue := batch.filePartitionValue.put ⟨row.dataFileId, row.partitionKeyIndex⟩ row
    partitionValueLookup := batch.partitionValueLookup.put (partitionLookupKey row) (row, dataFile) }

def deletePartitionValuesForDataFile (kv : CatalogKv) (batch : KvBatch) (dataFileId : DataFileId) : KvBatch :=
  (filePartitionValuesOf kv dataFileId).foldl
    (fun batch entry =>
      { batch with
        filePartitionValue := batch.filePartitionValue.delete entry.1
        partitionValueLookup := batch.partitionValueLookup.delete (partitionLookupKey entry.2) })
    batch

theorem deletePartitionValuesForDataFile_values (kv : CatalogKv) (batch : KvBatch) (dataFileId : DataFileId) :
    (deletePartitionValuesForDataFile kv batch dataFileId).filePartitionValue =
      batch.filePartitionValue.deleteAll ((filePartitionValuesOf kv dataFileId).map Prod.fst) := by
  unfold deletePartitionValuesForDataFile
  rw [Staged.foldl_deleteAll KvBatch.filePartitionValue (fun entry => [entry.1]) (fun _ _ => rfl)]
  exact congrArg batch.filePartitionValue.deleteAll (List.flatMap_pure_eq_map Prod.fst _)

/-- Closing a file only retires its lookup entries; its partition values stay for time travel. -/
def deletePartitionLookupsForDataFile (kv : CatalogKv) (batch : KvBatch) (dataFileId : DataFileId) : KvBatch :=
  (filePartitionValuesOf kv dataFileId).foldl
    (fun batch entry =>
      { batch with
        partitionValueLookup := batch.partitionValueLookup.delete (partitionLookupKey entry.2) })
    batch

def comparePartitionValues (left right : FilePartitionValueRow) : Prop :=
  toLex (left.tableId, toLex (left.dataFileId, toLex (left.partitionKeyIndex, left.partitionValue))) ≤
    toLex (right.tableId, toLex (right.dataFileId, toLex (right.partitionKeyIndex, right.partitionValue)))

instance : DecidableRel comparePartitionValues := fun _ _ => inferInstanceAs (Decidable (_ ≤ _))

def listFilePartitionValuesForDataFiles (kv : CatalogKv) (dataFileIds : List DataFileId) :
    List FilePartitionValueRow :=
  (dataFileIds.flatMap fun dataFileId => (filePartitionValuesOf kv dataFileId).map Prod.snd).insertionSort
    comparePartitionValues

def partitionKeyFromRows (partitionValues : List FilePartitionValueRow) (dataFileId : DataFileId) :
    List (Nat ×ₗ String) :=
  ((partitionValues.filter fun row => row.dataFileId = dataFileId).map fun row =>
    toLex (row.partitionKeyIndex, row.partitionValue)).insertionSort (· ≤ ·)

def sameNonEmptyKey (partitionValues : List FilePartitionValueRow) (left right : DataFileId) : Bool :=
  let leftKey := partitionKeyFromRows partitionValues left
  decide (leftKey ≠ []) && decide (leftKey = partitionKeyFromRows partitionValues right)

def stageFileColumnStats (batch : KvBatch) (row : FileColumnStatsRow) : KvBatch :=
  { batch with
    fileColumnStats := batch.fileColumnStats.put ⟨row.dataFileId, row.columnId⟩ row
    fileColumnStatsLookup := batch.fileColumnStatsLookup.put ⟨row.tableId, row.columnId, row.dataFileId⟩ row }

def stageTableFileStatsVersionsForRows (batch : KvBatch) (rows : List FileColumnStatsRow)
    (version : CatalogOrderId) : KvBatch :=
  if rows = [] then
    batch
  else
    { batch with
      catalogFileStatsVersion := batch.catalogFileStatsVersion.put () version
      tableFileStatsVersion :=
        ((rows.map FileColumnStatsRow.tableId).dedup.insertionSort (· ≤ ·)).foldl
          (fun staged tableId => staged.put tableId version) batch.tableFileStatsVersion }

def listFileColumnStatsForDataFileIds (kv : CatalogKv) (dataFileIds : List DataFileId) :
    List FileColumnStatsRow :=
  (dataFileIds.dedup.flatMap fun dataFileId =>
    (kv.fileColumnStats.scan fun key => key.dataFileId = dataFileId).map Prod.snd).insertionSort
    fun left right =>
      toLex (left.tableId, toLex (left.dataFileId, left.columnId)) ≤
        toLex (right.tableId, toLex (right.dataFileId, right.columnId))

def stageRemoveFileColumnStats (kv : CatalogKv) (batch : KvBatch) (dataFileId : DataFileId) : KvBatch :=
  (kv.fileColumnStats.scan fun key => key.dataFileId = dataFileId).foldl
    (fun batch entry =>
      { batch with
        fileColumnStats := batch.fileColumnStats.delete entry.1
        fileColumnStatsLookup :=
          batch.fileColumnStatsLookup.delete ⟨entry.2.tableId, entry.2.columnId, entry.2.dataFileId⟩ })
    batch

/-! ## What staging leaves alone -/

/-- The batches agree outside partition values. -/
def KvBatch.ChangesPartitions (before after : KvBatch) : Prop :=
  ∃ values lookups, after = { before with filePartitionValue := values, partitionValueLookup := lookups }

theorem KvBatch.ChangesPartitions.trans {first second third : KvBatch} (left : first.ChangesPartitions second)
    (right : second.ChangesPartitions third) : first.ChangesPartitions third := by
  obtain ⟨_, _, rfl⟩ := left
  obtain ⟨_, _, rfl⟩ := right
  exact ⟨_, _, rfl⟩

theorem deletePartitionValuesForDataFile_changes (kv : CatalogKv) (batch : KvBatch) (dataFileId : DataFileId) :
    batch.ChangesPartitions (deletePartitionValuesForDataFile kv batch dataFileId) :=
  foldl_relates (fun _ => ⟨_, _, rfl⟩) (fun left right => left.trans right) (fun _ _ => ⟨_, _, rfl⟩) _ _

theorem deletePartitionLookupsForDataFile_changes (kv : CatalogKv) (batch : KvBatch) (dataFileId : DataFileId) :
    batch.ChangesPartitions (deletePartitionLookupsForDataFile kv batch dataFileId) :=
  foldl_relates (fun _ => ⟨_, _, rfl⟩) (fun left right => left.trans right) (fun _ _ => ⟨_, _, rfl⟩) _ _

/-- The batches agree outside file column statistics. -/
def KvBatch.ChangesStats (before after : KvBatch) : Prop :=
  ∃ stats lookups tables catalog, after = { before with
    fileColumnStats := stats, fileColumnStatsLookup := lookups,
    tableFileStatsVersion := tables, catalogFileStatsVersion := catalog }

theorem KvBatch.ChangesStats.trans {first second third : KvBatch} (left : first.ChangesStats second)
    (right : second.ChangesStats third) : first.ChangesStats third := by
  obtain ⟨_, _, _, _, rfl⟩ := left
  obtain ⟨_, _, _, _, rfl⟩ := right
  exact ⟨_, _, _, _, rfl⟩

theorem stageFileColumnStats_changes (rows : List FileColumnStatsRow) (batch : KvBatch) :
    batch.ChangesStats (rows.foldl stageFileColumnStats batch) :=
  foldl_relates (fun _ => ⟨_, _, _, _, rfl⟩) (fun left right => left.trans right)
    (fun _ _ => ⟨_, _, _, _, rfl⟩) _ _

theorem stageTableFileStatsVersionsForRows_changes (batch : KvBatch) (rows : List FileColumnStatsRow)
    (version : CatalogOrderId) : batch.ChangesStats (stageTableFileStatsVersionsForRows batch rows version) := by
  unfold stageTableFileStatsVersionsForRows
  split
  · exact ⟨_, _, _, _, rfl⟩
  · exact ⟨_, _, _, _, rfl⟩

theorem stageRemoveFileColumnStats_changes (kv : CatalogKv) (batch : KvBatch) (dataFileId : DataFileId) :
    batch.ChangesStats (stageRemoveFileColumnStats kv batch dataFileId) :=
  foldl_relates (fun _ => ⟨_, _, _, _, rfl⟩) (fun left right => left.trans right)
    (fun _ _ => ⟨_, _, _, _, rfl⟩) _ _

end DucklakeCatalog
