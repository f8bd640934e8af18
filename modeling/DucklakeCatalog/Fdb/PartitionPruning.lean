import DucklakeCatalog.Fdb.PartitionScans
import Mathlib.Data.List.Dedup

/-! Which files a pruned listing keeps. Its values come from the partition
lookups, and the files without a value ride along with each of them. -/
namespace DucklakeCatalog.Fdb

open KeyedStore

/-- A lookup entry copies the stored value of its own key for an open data file. -/
structure LookupsNameValues (kv : CatalogKv) : Prop where
  value : ∀ {key row dataFile}, kv.partitionValueLookup.get? key = some (row, dataFile) →
    key = partitionLookupKey row ∧ kv.filePartitionValue.get? row.valueKey = some row
  copy : ∀ {key row dataFile}, kv.partitionValueLookup.get? key = some (row, dataFile) →
    dataFile.dataFileId = row.dataFileId ∧ dataFile.validity.endOrder = none
  stored : ∀ {key row dataFile}, kv.partitionValueLookup.get? key = some (row, dataFile) →
    (kv.dataFile.get? row.dataFileId).isSome

/-- The data file has no value for the key, or one that matches the boundary. -/
def mayMatch (other : OtherScalarOrder) (kv : CatalogKv) (request : PartitionPruneRequest) (row : DataFileRow) : Bool :=
  (kv.filePartitionValue.get? ⟨row.dataFileId, request.partitionKeyIndex⟩).all fun value =>
    partitionValueMatches other request value.partitionValue

/-- Some partition lookup of the table and key has a matching value. -/
def HasMatchingLookup (other : OtherScalarOrder) (kv : CatalogKv) (request : PartitionPruneRequest) : Prop :=
  ∃ key, (kv.partitionValueLookup.get? key).isSome ∧ key.tableId = request.tableId ∧
    key.partitionKeyIndex = request.partitionKeyIndex ∧ partitionValueMatches other request key.partitionValue

def listedDataFileIds (listed : List PartitionFiles) : List DataFileId :=
  listed.flatMap fun value => value.files.map fun attached => attached.dataFile.dataFileId

/-- Every visible file that may match is listed at least once. -/
def PrunesSafelyAt (other : OtherScalarOrder) (kv : CatalogKv) (request : PartitionPruneRequest)
    (snapshotOrder : CatalogOrderId) : Prop :=
  ∀ row ∈ foundationdbVisibleDataFilesAt kv request.tableId snapshotOrder, mayMatch other kv request row →
    row.dataFileId ∈ listedDataFileIds (partitionPruneFilesAt other kv none request snapshotOrder)

/-- Every current file that may match is listed at least once. -/
def PrunesCurrentSafely (other : OtherScalarOrder) (kv : CatalogKv) (request : PartitionPruneRequest) : Prop :=
  ∃ listed, currentPartitionPruneFiles other kv request = .ok listed ∧
    ∀ row ∈ scanCurrentDataFiles kv request.tableId, mayMatch other kv request row →
      row.dataFileId ∈ listedDataFileIds listed

section

variable {other : OtherScalarOrder} {kv : CatalogKv} {request : PartitionPruneRequest} {tableId : TableId}
  {partitionKeyIndex : PartitionKeyIndex} {partitionValue : String} {dataFileId : DataFileId}

/-! ## Candidate values -/

theorem mem_matchingPartitionValues : partitionValue ∈ matchingPartitionValues other kv request ↔
    (∃ key, (kv.partitionValueLookup.get? key).isSome ∧ key.tableId = request.tableId ∧
      key.partitionKeyIndex = request.partitionKeyIndex ∧ key.partitionValue = partitionValue) ∧
      partitionValueMatches other request partitionValue := by
  unfold matchingPartitionValues
  simp only [List.mem_insertionSort, List.mem_dedup, List.mem_filter, List.mem_map]
  constructor
  · rintro ⟨⟨⟨key, entry⟩, scanned, rfl⟩, isMatch⟩
    obtain ⟨found, inRange⟩ := OrderedMap.mem_scan.mp scanned
    simp only [Bool.and_eq_true, decide_eq_true_eq] at inRange
    exact ⟨⟨key, by simp [found], inRange.1, inRange.2, rfl⟩, isMatch⟩
  · rintro ⟨⟨key, present, table, index, rfl⟩, isMatch⟩
    obtain ⟨entry, found⟩ := Option.isSome_iff_exists.mp present
    refine ⟨⟨(key, entry), OrderedMap.mem_scan.mpr ⟨found, ?_⟩, rfl⟩, isMatch⟩
    simp [table, index]

theorem matchingPartitionValues_ne_nil :
    matchingPartitionValues other kv request ≠ [] ↔ HasMatchingLookup other kv request := by
  constructor
  · intro nonempty
    obtain ⟨partitionValue, member⟩ := List.exists_mem_of_ne_nil _ nonempty
    obtain ⟨⟨key, present, table, index, rfl⟩, isMatch⟩ := mem_matchingPartitionValues.mp member
    exact ⟨key, present, table, index, isMatch⟩
  · rintro ⟨key, present, table, index, isMatch⟩
    exact List.ne_nil_of_mem (mem_matchingPartitionValues.mpr ⟨⟨key, present, table, index, rfl⟩, isMatch⟩)

/-! ## The files of one value -/

theorem LookupsNameValues.mem_partitioned (names : LookupsNameValues kv)
    (partitioned : dataFileId ∈ partitionedDataFileIds kv tableId partitionKeyIndex) :
    ∃ row dataFile, kv.partitionValueLookup.get? ⟨tableId, partitionKeyIndex, row.partitionValue, dataFileId⟩ =
        some (row, dataFile) ∧
      kv.filePartitionValue.get? ⟨dataFileId, partitionKeyIndex⟩ = some row := by
  obtain ⟨⟨key, row, dataFile⟩, scanned, rfl⟩ := List.mem_map.mp partitioned
  obtain ⟨found, inRange⟩ := OrderedMap.mem_scan.mp scanned
  simp only [Bool.and_eq_true, decide_eq_true_eq] at inRange
  obtain ⟨rfl, stored⟩ := names.value found
  have sameFile := (names.copy found).1
  obtain ⟨rfl, rfl⟩ := inRange
  refine ⟨row, dataFile, ?_, ?_⟩
  · rw [sameFile]
    exact found
  · rw [sameFile]
    exact stored

variable {row : DataFileRow} {files : List AttachedDataFile} {snapshotOrder : CatalogOrderId}

/-- A file without a value, or with a matching one, belongs to every value or to its own. -/
theorem LookupsNameValues.unpartitioned_or_found (names : LookupsNameValues kv)
    (may : mayMatch other kv request row) :
    row.dataFileId ∉ partitionedDataFileIds kv request.tableId request.partitionKeyIndex ∨
      ∃ value dataFile, value.partitionValue ∈ matchingPartitionValues other kv request ∧
        kv.partitionValueLookup.get? ⟨request.tableId, request.partitionKeyIndex, value.partitionValue, row.dataFileId⟩ =
          some (value, dataFile) := by
  by_cases partitioned : row.dataFileId ∈ partitionedDataFileIds kv request.tableId request.partitionKeyIndex
  · obtain ⟨value, dataFile, found, stored⟩ := names.mem_partitioned partitioned
    rw [mayMatch, stored, Option.all_some] at may
    have present : (kv.partitionValueLookup.get?
        ⟨request.tableId, request.partitionKeyIndex, value.partitionValue, row.dataFileId⟩).isSome := by
      rw [found, Option.isSome_some]
    exact Or.inr ⟨value, dataFile, mem_matchingPartitionValues.mpr ⟨⟨_, present, rfl, rfl, rfl⟩, may⟩, found⟩
  · exact Or.inl partitioned

/-! ## Positions in a batch -/

/-- Every attached file has a position of its own id. -/
theorem PartitionBatchFileIndex.positionsById_get? (partitioned : List DataFileId)
    (listed : dataFileId ∈ files.map fun attached => attached.dataFile.dataFileId) :
    ∃ position, (PartitionBatchFileIndex.new files partitioned).positionsById.get? dataFileId = some position ∧
      ∃ attached, files[position]? = some attached ∧ attached.dataFile.dataFileId = dataFileId := by
  rcases OrderedMap.get?_foldl_insert_cases .empty files.zipIdx
      (fun entry : AttachedDataFile × Nat => entry.1.dataFile.dataFileId) Prod.snd dataFileId with
    ⟨⟨attached, position⟩, member, same, found⟩ | ⟨missed, _⟩
  · exact ⟨position, found, attached, List.mem_zipIdx_iff_getElem?.mp member, same⟩
  · obtain ⟨attached, member, same⟩ := List.mem_map.mp listed
    obtain ⟨position, at_⟩ := List.mem_iff_getElem?.mp member
    exact absurd same (missed (attached, position) (List.mem_zipIdx_iff_getElem?.mpr at_))

/-- A batch lists under a value the files without a value and those found under it. -/
theorem PartitionBatchFileIndex.mem_positionsFor {partitioned matched : List DataFileId}
    (listed : dataFileId ∈ files.map fun attached => attached.dataFile.dataFileId)
    (belongs : dataFileId ∉ partitioned ∨ dataFileId ∈ matched) :
    ∃ position ∈ (PartitionBatchFileIndex.new files partitioned).positionsFor matched, ∃ attached,
      files[position]? = some attached ∧ attached.dataFile.dataFileId = dataFileId := by
  have placed (position : Nat) : position ∈ (PartitionBatchFileIndex.new files partitioned).positionsFor matched ↔
      position ∈ (PartitionBatchFileIndex.new files partitioned).unpartitionedPositions ∨
        ∃ found ∈ matched, (PartitionBatchFileIndex.new files partitioned).positionsById.get? found = some position := by
    unfold positionsFor
    rw [List.mem_insertionSort, List.mem_dedup, List.mem_append, List.mem_filterMap]
  rcases belongs with unpartitioned | isMatched
  · obtain ⟨attached, member, same⟩ := List.mem_map.mp listed
    obtain ⟨position, at_⟩ := List.mem_iff_getElem?.mp member
    refine ⟨position, (placed position).mpr (Or.inl ?_), attached, at_, same⟩
    refine List.mem_map.mpr ⟨(attached, position), List.mem_filter.mpr ⟨?_, ?_⟩, rfl⟩
    · exact List.mem_zipIdx_iff_getElem?.mpr at_
    · exact decide_eq_true (same ▸ unpartitioned)
  · obtain ⟨position, found, attached⟩ := positionsById_get? partitioned listed
    exact ⟨position, (placed position).mpr (Or.inr ⟨dataFileId, isMatched, found⟩), attached⟩

/-! ## Pruned listings -/

/-- A batch lists the file when it is attached and belongs to one of the values. -/
theorem mem_listed_partitionFilesAtBatch {partitionValues : List String}
    (attached : dataFileId ∈ files.map fun attached => attached.dataFile.dataFileId)
    (asked : partitionValue ∈ partitionValues)
    (belongs : dataFileId ∉ partitionedDataFileIds kv tableId partitionKeyIndex ∨
      dataFileId ∈ partitionValueLookupIds kv tableId partitionKeyIndex partitionValue) :
    dataFileId ∈ listedDataFileIds
      (partitionFilesAtBatch kv (some files) tableId partitionKeyIndex partitionValues snapshotOrder) := by
  obtain ⟨position, placed, found, at_, same⟩ := PartitionBatchFileIndex.mem_positionsFor attached belongs
  refine List.mem_flatMap.mpr ⟨_, List.mem_map.mpr ⟨partitionValue, asked, rfl⟩, List.mem_map.mpr ⟨found, ?_, same⟩⟩
  exact List.mem_filterMap.mpr ⟨position, placed, at_⟩

theorem mem_partitionValueLookupIds {row : FilePartitionValueRow} {dataFile : DataFileRow}
    (names : LookupsNameValues kv)
    (found : kv.partitionValueLookup.get? ⟨tableId, partitionKeyIndex, partitionValue, dataFileId⟩ =
      some (row, dataFile)) :
    dataFileId ∈ partitionValueLookupIds kv tableId partitionKeyIndex partitionValue ∧
      dataFileId ∈ (listCurrentDataFilesByPartitionValue kv tableId partitionKeyIndex partitionValue).map
        DataFileRow.dataFileId := by
  have scanned : ((⟨tableId, partitionKeyIndex, partitionValue, dataFileId⟩ : PartitionValueLookupKey), row, dataFile) ∈
      kv.partitionValueLookup.scan fun key => key.tableId = tableId && key.partitionKeyIndex = partitionKeyIndex &&
        key.partitionValue = partitionValue := OrderedMap.mem_scan.mpr ⟨found, by simp⟩
  obtain ⟨sameFile, opened⟩ := names.copy found
  have named : dataFile.dataFileId = dataFileId :=
    sameFile.trans (congrArg PartitionValueLookupKey.dataFileId (names.value found).1).symm
  refine ⟨List.mem_map.mpr ⟨_, scanned, named⟩, List.mem_map.mpr ⟨dataFile, List.mem_filter.mpr ⟨?_, ?_⟩, named⟩⟩
  · exact List.mem_map.mpr ⟨_, scanned, rfl⟩
  · rw [opened, Option.isNone_none]

theorem LookupsNameValues.mem_partitionPruneFilesAt (names : LookupsNameValues kv)
    (matching : HasMatchingLookup other kv request)
    (visible : row ∈ foundationdbVisibleDataFilesAt kv request.tableId snapshotOrder)
    (may : mayMatch other kv request row) :
    row.dataFileId ∈ listedDataFileIds (partitionPruneFilesAt other kv none request snapshotOrder) := by
  unfold partitionPruneFilesAt
  rw [if_neg (matchingPartitionValues_ne_nil.mpr matching)]
  have attached : row.dataFileId ∈ (attachDeleteFilesAtAsync kv
      (foundationdbVisibleDataFilesAt kv request.tableId snapshotOrder) snapshotOrder).map
        fun attached => attached.dataFile.dataFileId := by
    have same := congrArg (List.map DataFileRow.dataFileId) (attachDeleteFilesAtAsync_dataFiles kv
      (foundationdbVisibleDataFilesAt kv request.tableId snapshotOrder) snapshotOrder)
    rw [List.map_map] at same
    exact same ▸ List.mem_map_of_mem visible
  change _ ∈ listedDataFileIds (partitionFilesAtBatch kv (some _) _ _ _ snapshotOrder)
  rcases names.unpartitioned_or_found may with unpartitioned | ⟨value, dataFile, candidate, found⟩
  · obtain ⟨candidate, member⟩ := List.exists_mem_of_ne_nil _ (matchingPartitionValues_ne_nil.mpr matching)
    exact mem_listed_partitionFilesAtBatch attached member (Or.inl unpartitioned)
  · exact mem_listed_partitionFilesAtBatch attached candidate (Or.inr (mem_partitionValueLookupIds names found).1)

/-- A pruned listing loses no file exactly when some partition lookup matches or no visible file may match. -/
theorem LookupsNameValues.prunesSafelyAt_iff (names : LookupsNameValues kv) :
    PrunesSafelyAt other kv request snapshotOrder ↔
      HasMatchingLookup other kv request ∨
        ∀ row ∈ foundationdbVisibleDataFilesAt kv request.tableId snapshotOrder, ¬mayMatch other kv request row := by
  constructor
  · intro safe
    by_cases matching : HasMatchingLookup other kv request
    · exact Or.inl matching
    · right
      intro row visible may
      have listed := safe row visible may
      have noValues := not_not.mp (mt matchingPartitionValues_ne_nil.mp matching)
      simp [partitionPruneFilesAt, noValues, listedDataFileIds] at listed
  · rintro (matching | nothing) row visible may
    · exact names.mem_partitionPruneFilesAt matching visible may
    · exact absurd may (nothing row visible)

theorem mem_listCurrentDataFilesForPartitionScan (current : row ∈ scanCurrentDataFiles kv tableId)
    (belongs : row.dataFileId ∉ partitionedDataFileIds kv tableId partitionKeyIndex ∨
      row.dataFileId ∈ (listCurrentDataFilesByPartitionValue kv tableId partitionKeyIndex partitionValue).map
        DataFileRow.dataFileId) :
    row.dataFileId ∈ (listCurrentDataFilesForPartitionScan kv tableId partitionKeyIndex partitionValue).map
      DataFileRow.dataFileId := by
  rcases OrderedMap.get?_foldl_insert_cases .empty (scanCurrentDataFiles kv tableId) DataFileRow.dataFileId id
      row.dataFileId with ⟨stored, _, same, found⟩ | ⟨missed, _⟩
  · refine List.mem_map.mpr ⟨stored, List.mem_filter.mpr ⟨?_, ?_⟩, same⟩
    · exact List.mem_map.mpr ⟨_, (OrderedMap.get?_eq_some_iff (currentDataFilesById kv tableId)).mp found, rfl⟩
    · rw [same]
      rcases belongs with unpartitioned | isMatched
      · simp [unpartitioned]
      · simp only [isMatched, decide_true, Bool.true_or]
  · exact absurd rfl (missed row current)

theorem LookupsNameValues.prunesCurrentSafely_iff (names : LookupsNameValues kv)
    (begun : (latestSnapshot kv).isSome) :
    PrunesCurrentSafely other kv request ↔
      HasMatchingLookup other kv request ∨
        ∀ row ∈ scanCurrentDataFiles kv request.tableId, ¬mayMatch other kv request row := by
  obtain ⟨snapshot, latest⟩ := Option.isSome_iff_exists.mp begun
  unfold PrunesCurrentSafely currentPartitionPruneFiles
  by_cases matching : HasMatchingLookup other kv request
  · refine iff_of_true ?_ (Or.inl matching)
    simp only [if_neg (matchingPartitionValues_ne_nil.mpr matching), currentPartitionFilesBatch, latest]
    refine ⟨_, rfl, ?_⟩
    intro row current may
    have listed (partitionValue : String) (asked : partitionValue ∈ matchingPartitionValues other kv request)
        (belongs : row.dataFileId ∉ partitionedDataFileIds kv request.tableId request.partitionKeyIndex ∨
          row.dataFileId ∈ (listCurrentDataFilesByPartitionValue kv request.tableId request.partitionKeyIndex
            partitionValue).map DataFileRow.dataFileId) :
        row.dataFileId ∈ listedDataFileIds ((matchingPartitionValues other kv request).map fun partitionValue =>
          ⟨partitionValue, attachCurrentDeleteFilesAsync kv (listCurrentDataFilesForPartitionScan kv request.tableId
            request.partitionKeyIndex partitionValue) snapshot.order⟩) := by
      refine List.mem_flatMap.mpr ⟨_, List.mem_map.mpr ⟨partitionValue, asked, rfl⟩, ?_⟩
      have same := congrArg (List.map DataFileRow.dataFileId) (attachCurrentDeleteFilesAsync_dataFiles kv
        (listCurrentDataFilesForPartitionScan kv request.tableId request.partitionKeyIndex partitionValue) snapshot.order)
      rw [List.map_map] at same
      exact same ▸ mem_listCurrentDataFilesForPartitionScan current belongs
    rcases names.unpartitioned_or_found may with unpartitioned | ⟨value, dataFile, candidate, found⟩
    · obtain ⟨candidate, member⟩ := List.exists_mem_of_ne_nil _ (matchingPartitionValues_ne_nil.mpr matching)
      exact listed candidate member (Or.inl unpartitioned)
    · exact listed _ candidate (Or.inr (mem_partitionValueLookupIds names found).2)
  · have noValues := not_not.mp (mt matchingPartitionValues_ne_nil.mp matching)
    simp [noValues, matching, listedDataFileIds]

end

end DucklakeCatalog.Fdb
