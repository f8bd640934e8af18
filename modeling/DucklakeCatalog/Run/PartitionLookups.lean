import DucklakeCatalog.File.PartitionLookup
import DucklakeCatalog.Run.DataFileCoherence
import Mathlib.Data.List.Nodup

namespace DucklakeCatalog

open KeyedStore

/-! ## Staged partition values -/

/-- The staged part of the maps behind a partition lookup. -/
def KvBatch.partitions (batch : KvBatch) :
    Staged DataFileId DataFileRow × Staged FilePartitionValueKey FilePartitionValueRow ×
      Staged PartitionValueLookupKey (FilePartitionValueRow × DataFileRow) :=
  (batch.dataFile, batch.filePartitionValue, batch.partitionValueLookup)

variable {after : KvBatch}

theorem CatalogKv.commit_partitionIndexes_congr (kv : CatalogKv) {before : KvBatch}
    (same : after.partitions = before.partitions) :
    (kv.commit after).partitionIndexes = (kv.commit before).partitionIndexes := by
  simp only [KvBatch.partitions, Prod.mk.injEq] at same
  simp only [CatalogKv.partitionIndexes, CatalogKv.commit, same]

theorem KvBatch.ChangesStats.partitions {before : KvBatch} (changes : before.ChangesStats after) :
    after.partitions = before.partitions := by
  obtain ⟨_, _, _, _, rfl⟩ := changes
  rfl

theorem KvBatch.ChangesDeleteFiles.partitions {before : KvBatch} (changes : before.ChangesDeleteFiles after) :
    after.partitions = before.partitions := by
  obtain ⟨_, _, _, _, _, _, _, rfl⟩ := changes
  rfl

theorem KvBatch.ChangesInlineEnds.partitions {before : KvBatch} (changes : before.ChangesInlineEnds after) :
    after.partitions = before.partitions := by
  obtain ⟨_, _, _, _, rfl⟩ := changes
  rfl

theorem KvBatch.ChangesInlineDeletions.partitions {before : KvBatch}
    (changes : before.ChangesInlineDeletions after) : after.partitions = before.partitions := by
  obtain ⟨_, rfl⟩ := changes
  rfl

theorem KvBatch.ChangesInlineTables.partitions {before : KvBatch} (changes : before.ChangesInlineTables after) :
    after.partitions = before.partitions := by
  obtain ⟨_, _, _, _, _, _, _, _, _, rfl⟩ := changes
  rfl

theorem KvBatch.ChangesTables.partitions {before : KvBatch} (changes : before.ChangesTables after) :
    after.partitions = before.partitions := by
  obtain ⟨_, _, _, rfl⟩ := changes
  rfl

section

variable {kv : CatalogKv} {batch next : KvBatch}

theorem deletePartitionLookupsForDataFile_partitions (kv : CatalogKv) (batch : KvBatch) (dataFileId : DataFileId) :
    (deletePartitionLookupsForDataFile kv batch dataFileId).partitions =
      (batch.dataFile, batch.filePartitionValue, batch.partitionValueLookup.deleteAll
        ((filePartitionValuesOf kv dataFileId).map fun entry => partitionLookupKey entry.2)) := by
  unfold deletePartitionLookupsForDataFile
  generalize filePartitionValuesOf kv dataFileId = entries
  induction entries generalizing batch with
  | nil => rfl
  | cons entry rest ih => exact ih _

theorem deletePartitionValuesForDataFile_partitions (kv : CatalogKv) (batch : KvBatch) (dataFileId : DataFileId) :
    (deletePartitionValuesForDataFile kv batch dataFileId).partitions =
      (batch.dataFile, batch.filePartitionValue.deleteAll ((filePartitionValuesOf kv dataFileId).map Prod.fst),
        batch.partitionValueLookup.deleteAll
          ((filePartitionValuesOf kv dataFileId).map fun entry => partitionLookupKey entry.2)) := by
  unfold deletePartitionValuesForDataFile
  generalize filePartitionValuesOf kv dataFileId = entries
  induction entries generalizing batch with
  | nil => rfl
  | cons entry rest ih => exact ih _

/-- Deleting the lookup entries of the stored values of a file leaves it without any. -/
theorem commit_deletePartitionLookups (dataFileId : DataFileId) (before : kv.partitionIndexes.Sound)
    (sound : (kv.commit batch).partitionIndexes.Sound)
    (unwritten : ∀ key, batch.partitionValueLookup.Writes key → key.dataFileId ≠ dataFileId)
    (stored : ∀ {key row}, (kv.commit batch).filePartitionValue.get? key = some row → key.dataFileId = dataFileId →
      kv.filePartitionValue.get? key = some row) (key : PartitionValueLookupKey) :
    (kv.partitionValueLookup.commit (batch.partitionValueLookup.deleteAll
        ((filePartitionValuesOf kv dataFileId).map fun entry => partitionLookupKey entry.2))).get? key =
      if key.dataFileId = dataFileId then none else (kv.commit batch).partitionValueLookup.get? key := by
  have deletedIff : key ∈ (filePartitionValuesOf kv dataFileId).map (fun entry => partitionLookupKey entry.2) ↔
      ∃ row, kv.filePartitionValue.get? row.valueKey = some row ∧ row.dataFileId = dataFileId ∧
        partitionLookupKey row = key := by
    rw [List.mem_map]
    constructor
    · rintro ⟨⟨valueKey, row⟩, member, rfl⟩
      obtain ⟨found, ofFile⟩ := OrderedMap.mem_scan.mp member
      have placed : row.valueKey = valueKey := before.value found
      exact ⟨row, placed ▸ found, (congrArg FilePartitionValueKey.dataFileId placed).trans (of_decide_eq_true ofFile), rfl⟩
    · rintro ⟨row, found, ofFile, rfl⟩
      exact ⟨(row.valueKey, row), OrderedMap.mem_scan.mpr ⟨found, decide_eq_true ofFile⟩, rfl⟩
  split
  · rename_i ofFile
    by_cases deleted : key ∈ (filePartitionValuesOf kv dataFileId).map fun entry => partitionLookupKey entry.2
    · exact OrderedMap.get?_commit_deleteAll_of_mem _ _ deleted fun writes => unwritten key writes ofFile
    · rw [OrderedMap.get?_commit_deleteAll_of_not_mem _ _ deleted]
      refine Option.eq_none_iff_forall_ne_some.mpr ?_
      rintro ⟨row, dataFile⟩ found
      obtain ⟨rfl, valued, _⟩ := sound.lookup found
      exact deleted (deletedIff.mpr ⟨row, stored valued ofFile, ofFile, rfl⟩)
  · rename_i other
    refine OrderedMap.get?_commit_deleteAll_of_not_mem _ _ ?_
    intro deleted
    obtain ⟨row, _, ofFile, rfl⟩ := deletedIff.mp deleted
    exact other ofFile

end

/-- How far a batch has come with its partition values: the new files and the values given for them are staged. -/
structure StagesPartitions (kv : CatalogKv) (rows : List DataFileRow) (given : List FilePartitionValueRow)
    (batch : KvBatch) : Prop where
  sound : (kv.commit batch).partitionIndexes.Sound
  written : ∀ key, batch.partitionValueLookup.Writes key → key.dataFileId ∈ rows.map DataFileRow.dataFileId
  filed : ∀ {dataFileId row}, kv.dataFile.get? dataFileId = some row →
    ∃ current, (kv.commit batch).dataFile.get? dataFileId = some current ∧ current.tableId = row.tableId
  added : ∀ row ∈ rows, (kv.commit batch).dataFile.get? row.dataFileId = some row
  valued : ∀ {key row}, (kv.commit batch).filePartitionValue.get? key = some row →
    kv.filePartitionValue.get? key = some row ∨ key.dataFileId ∈ rows.map DataFileRow.dataFileId ∧ row ∈ given

namespace StagesPartitions

variable {kv : CatalogKv} {rows : List DataFileRow} {given : List FilePartitionValueRow} {batch next : KvBatch}

theorem congr (staged : StagesPartitions kv rows given batch) (same : next.partitions = batch.partitions) :
    StagesPartitions kv rows given next := by
  have indexes := kv.commit_partitionIndexes_congr same
  have files : (kv.commit next).dataFile = (kv.commit batch).dataFile := congrArg PartitionIndexes.dataFile indexes
  have values : (kv.commit next).filePartitionValue = (kv.commit batch).filePartitionValue :=
    congrArg PartitionIndexes.values indexes
  simp only [KvBatch.partitions, Prod.mk.injEq] at same
  refine ⟨indexes ▸ staged.sound, ?_, ?_, ?_, ?_⟩
  · intro key writes
    exact staged.written key (same.2.2 ▸ writes)
  · intro dataFileId row found
    exact files ▸ staged.filed found
  · intro row member
    exact files ▸ staged.added row member
  · intro key row found
    exact staged.valued (values ▸ found)

theorem start (before : kv.partitionIndexes.Sound) (untouched : batch.partitions = ({} : KvBatch).partitions) :
    StagesPartitions kv [] [] batch := by
  refine StagesPartitions.congr ?_ untouched
  refine ⟨before, ?_, ?_, ?_, ?_⟩
  · intro key writes
    exact absurd writes Staged.not_writes_empty
  · intro dataFileId row found
    exact ⟨row, found, rfl⟩
  · intro row member
    exact absurd member List.not_mem_nil
  · intro key row found
    exact Or.inl found

/-- Closing a file of the store. -/
theorem expire (staged : StagesPartitions kv rows given batch) (before : kv.partitionIndexes.Sound)
    (unknown : ∀ dataFileId ∈ rows.map DataFileRow.dataFileId, kv.dataFile.get? dataFileId = none)
    {row : DataFileRow} {endOrder : CatalogOrderId} (stored : kv.dataFile.get? row.dataFileId = some row)
    (closes : next.partitions = (batch.dataFile.put row.dataFileId (row.withEndOrder (some endOrder)),
      batch.filePartitionValue, batch.partitionValueLookup.deleteAll
        ((filePartitionValuesOf kv row.dataFileId).map fun entry => partitionLookupKey entry.2))) :
    StagesPartitions kv rows given next := by
  simp only [KvBatch.partitions, Prod.mk.injEq] at closes
  obtain ⟨files, values, lookups⟩ := closes
  have old : row.dataFileId ∉ rows.map DataFileRow.dataFileId := by
    intro new
    simp [unknown _ new] at stored
  have filesAfter : (kv.commit next).dataFile =
      (kv.commit batch).dataFile.insert row.dataFileId (row.withEndOrder (some endOrder)) := by
    simp [CatalogKv.commit, files]
  have valuesAfter : (kv.commit next).filePartitionValue = (kv.commit batch).filePartitionValue := by
    simp only [CatalogKv.commit, values]
  obtain ⟨current, currentStored, sameTable⟩ := staged.filed stored
  have storedNow : (kv.commit batch).partitionIndexes.dataFile.get? (row.withEndOrder (some endOrder)).dataFileId =
    some current := currentStored
  refine ⟨?_, ?_, ?_, ?_, ?_⟩
  · refine staged.sound.expire storedNow sameTable.symm (by simp [DataFileRow.withEndOrder]) filesAfter valuesAfter ?_
    intro key
    have deleted := commit_deletePartitionLookups row.dataFileId before staged.sound
      (fun key writes same => old (same ▸ staged.written key writes)) ?_ key
    · simp only [CatalogKv.partitionIndexes, CatalogKv.commit, lookups]
      exact deleted
    · intro valueKey value found ofFile
      rcases staged.valued found with known | ⟨new, _⟩
      · exact known
      · exact absurd (ofFile ▸ new) old
  · intro key writes
    rw [lookups, Staged.Writes, Staged.deleteAll_writes] at writes
    exact staged.written key writes
  · intro dataFileId other found
    rw [filesAfter, OrderedMap.get?_insert]
    split
    · rename_i same
      obtain rfl := Option.some.inj (stored.symm.trans (same ▸ found))
      exact ⟨_, rfl, rfl⟩
    · exact staged.filed found
  · intro added member
    have different : added.dataFileId ≠ row.dataFileId := fun same => old (same ▸ List.mem_map_of_mem member)
    rw [filesAfter, OrderedMap.get?_insert, if_neg different]
    exact staged.added added member
  · intro key value found
    exact staged.valued (valuesAfter ▸ found)

variable {stage : KvBatch → DataFileRow → KvBatch}

theorem commit_foldl_append (kv : CatalogKv) {rows : List DataFileRow}
    (appends : ∀ batch, ∀ row ∈ rows, (stage batch row).partitions =
      (batch.dataFile.put row.dataFileId row, batch.filePartitionValue, batch.partitionValueLookup)) (batch : KvBatch) :
    (kv.commit (rows.foldl stage batch)).dataFile = (kv.commit batch).dataFile.insertAll DataFileRow.dataFileId rows ∧
      (rows.foldl stage batch).filePartitionValue = batch.filePartitionValue ∧
      (rows.foldl stage batch).partitionValueLookup = batch.partitionValueLookup := by
  induction rows generalizing batch with
  | nil => exact ⟨rfl, rfl, rfl⟩
  | cons row rest ih =>
    have first := appends batch row List.mem_cons_self
    simp only [KvBatch.partitions, Prod.mk.injEq] at first
    obtain ⟨files, values, lookups⟩ := first
    obtain ⟨restFiles, restValues, restLookups⟩ :=
      ih (fun batch later member => appends batch later (List.mem_cons_of_mem _ member)) (stage batch row)
    refine ⟨?_, restValues.trans values, restLookups.trans lookups⟩
    have inserted : (kv.commit (stage batch row)).dataFile = (kv.commit batch).dataFile.insert row.dataFileId row := by
      simp [CatalogKv.commit, files]
    rw [List.foldl_cons, restFiles, inserted]
    rfl

/-- Appending new files to a batch that has added none yet. -/
theorem append (staged : StagesPartitions kv [] [] batch)
    (appends : ∀ batch, ∀ row ∈ rows, (stage batch row).partitions =
      (batch.dataFile.put row.dataFileId row, batch.filePartitionValue, batch.partitionValueLookup))
    (distinct : (rows.map DataFileRow.dataFileId).Nodup)
    (unknown : ∀ dataFileId ∈ rows.map DataFileRow.dataFileId, kv.dataFile.get? dataFileId = none)
    (unvalued : ∀ key stored, kv.filePartitionValue.get? key = some stored →
      key.dataFileId ∉ rows.map DataFileRow.dataFileId) :
    StagesPartitions kv rows [] (rows.foldl stage batch) := by
  obtain ⟨filesAfter, valuesAfter, lookupsAfter⟩ := commit_foldl_append kv appends batch
  have stillUnvalued (key : FilePartitionValueKey) (stored : FilePartitionValueRow)
      (found : (kv.commit batch).filePartitionValue.get? key = some stored) :
      key.dataFileId ∉ rows.map DataFileRow.dataFileId := by
    rcases staged.valued found with known | ⟨new, _⟩
    · exact unvalued key stored known
    · exact absurd new List.not_mem_nil
  refine ⟨?_, ?_, ?_, ?_, ?_⟩
  · have appended := staged.sound.appendAll stillUnvalued
    simp only [CatalogKv.partitionIndexes, CatalogKv.commit, valuesAfter, lookupsAfter] at appended ⊢
    simp only [CatalogKv.commit] at filesAfter
    rw [filesAfter]
    exact appended
  · intro key writes
    exact absurd (staged.written key (lookupsAfter ▸ writes)) List.not_mem_nil
  · intro dataFileId row found
    have old : dataFileId ∉ rows.map DataFileRow.dataFileId := by
      intro new
      simp [unknown _ new] at found
    rw [filesAfter, OrderedMap.get?_insertAll_of_not_mem _ _ old]
    exact staged.filed found
  · intro row member
    rw [filesAfter]
    exact OrderedMap.get?_insertAll_of_mem _ _ distinct member
  · intro key row found
    simp only [CatalogKv.commit, valuesAfter] at found
    rcases staged.valued found with known | ⟨new, _⟩
    · exact Or.inl known
    · exact absurd new List.not_mem_nil

/-- A value for a new file; a second value for the same key must repeat the first. -/
theorem value (staged : StagesPartitions kv rows given batch) {row : FilePartitionValueRow} {dataFile : DataFileRow}
    (listed : row ∈ given) (filed : dataFile ∈ rows) (named : dataFile.dataFileId = row.dataFileId)
    (table : dataFile.tableId = row.tableId)
    (unvalued : ∀ key stored, kv.filePartitionValue.get? key = some stored →
      key.dataFileId ∉ rows.map DataFileRow.dataFileId)
    (agree : ∀ other ∈ given, other.valueKey = row.valueKey → other = row) :
    StagesPartitions kv rows given (stageFilePartitionValue batch row dataFile) := by
  have new : row.dataFileId ∈ rows.map DataFileRow.dataFileId := named ▸ List.mem_map_of_mem filed
  have stored : (kv.commit batch).partitionIndexes.dataFile.get? row.dataFileId = some dataFile :=
    named ▸ staged.added dataFile filed
  refine ⟨?_, ?_, staged.filed, staged.added, ?_⟩
  · refine staged.sound.register stored table rfl ?_ ?_
    · simp [CatalogKv.partitionIndexes, CatalogKv.commit, stageFilePartitionValue, FilePartitionValueRow.valueKey]
    · intro key
      have inserted : (kv.commit (stageFilePartitionValue batch row dataFile)).partitionIndexes.lookups =
          (kv.commit batch).partitionIndexes.lookups.insert (partitionLookupKey row) (row, dataFile) := by
        simp [CatalogKv.partitionIndexes, CatalogKv.commit, stageFilePartitionValue]
      rw [inserted, OrderedMap.get?_insert]
      split
      · rfl
      · rename_i different
        cases existing : (kv.commit batch).partitionIndexes.values.get? row.valueKey with
        | none => simp
        | some other =>
          have same : other = row := by
            rcases staged.valued existing with known | ⟨_, alsoListed⟩
            · exact absurd new (unvalued _ _ known)
            · exact agree other alsoListed (staged.sound.value existing)
          subst same
          simp [different]
  · intro key writes
    rcases Staged.writes_put.mp writes with rfl | earlier
    · exact new
    · exact staged.written key earlier
  · intro key value found
    have inserted : (kv.commit (stageFilePartitionValue batch row dataFile)).filePartitionValue =
        (kv.commit batch).filePartitionValue.insert row.valueKey row := by
      simp [CatalogKv.commit, stageFilePartitionValue, FilePartitionValueRow.valueKey]
    rw [inserted, OrderedMap.get?_insert] at found
    split at found
    · rename_i same
      obtain rfl := Option.some.inj found
      exact Or.inr ⟨same ▸ new, listed⟩
    · exact staged.valued found

theorem giveMore (staged : StagesPartitions kv rows [] batch) : StagesPartitions kv rows given batch := by
  refine ⟨staged.sound, staged.written, staged.filed, staged.added, ?_⟩
  intro key row found
  rcases staged.valued found with known | ⟨_, listed⟩
  · exact Or.inl known
  · exact absurd listed List.not_mem_nil

/-- The values given for new files. -/
theorem values (staged : StagesPartitions kv rows [] batch)
    (unvalued : ∀ key stored, kv.filePartitionValue.get? key = some stored →
      key.dataFileId ∉ rows.map DataFileRow.dataFileId)
    (tables : ∀ row ∈ given, ∀ dataFile ∈ rows, dataFile.dataFileId = row.dataFileId → dataFile.tableId = row.tableId)
    (agree : ∀ left ∈ given, ∀ right ∈ given, left.valueKey = right.valueKey →
      left.partitionValue = right.partitionValue)
    (success : stageNewFilePartitionValues batch given rows = .ok next) : StagesPartitions kv rows given next := by
  refine foldlM_invariant (StagesPartitions kv rows given) success staged.giveMore ?_
  intro state row following listed soFar taken
  split at taken
  · simp at taken
  · rename_i dataFile found
    simp only [Except.ok.injEq] at taken
    subst taken
    have filed := List.mem_of_find?_eq_some found
    have named : dataFile.dataFileId = row.dataFileId := by simpa using List.find?_some found
    have table := tables row listed dataFile filed named
    refine soFar.value listed filed named table unvalued ?_
    intro other otherListed same
    have sameValue := agree other otherListed row listed same
    obtain ⟨otherId, otherTable, otherIndex, otherValue⟩ := other
    obtain ⟨dataFileId, tableId, index, partitionValue⟩ := row
    simp only [FilePartitionValueRow.valueKey, FilePartitionValueKey.mk.injEq] at same sameValue
    obtain ⟨rfl, rfl⟩ := same
    have otherNamed := tables _ otherListed dataFile filed named
    simp only at table otherNamed
    rw [sameValue, ← table, ← otherNamed]

/-- Closing the source of a compaction. -/
theorem expireSource {now : Int} {order : CatalogOrderId} {dataFileId : DataFileId} {policy : DeleteFilePolicy}
    {source : ExpiredSourceFile} (staged : StagesPartitions kv [] [] batch) (before : kv.partitionIndexes.Sound)
    (named : ∀ {dataFileId row}, kv.dataFile.get? dataFileId = some row → row.dataFileId = dataFileId)
    (success : expireCompactedSourceFile kv now batch dataFileId order policy = .ok (source, next)) :
    StagesPartitions kv [] [] next := by
  obtain ⟨_, _, expired, expires, rfl⟩ := expireCompactedSourceFile_ok success
  obtain ⟨row, stored, _, _, same, rfl⟩ := stageExpireCurrentDataFile_staged expires
  obtain rfl := named stored
  rw [same]
  exact staged.expire before (by simp) stored (deletePartitionLookupsForDataFile_partitions kv _ row.dataFileId)

end StagesPartitions

/-! ## Partition values of each commit -/

def CatalogOperation.newPartitionValues : CatalogOperation → List FilePartitionValueRow
  | .dataMutation _ input => input.partitionValues
  | .mergeAdjacent _ compaction => compaction.partitionValues
  | .rewriteDelete _ compaction => compaction.partitionValues
  | _ => []

/-- No file is given two values for one key. -/
def CatalogOperation.GivesOneValue (operation : CatalogOperation) : Prop :=
  ∀ left ∈ operation.newPartitionValues, ∀ right ∈ operation.newPartitionValues, left.valueKey = right.valueKey →
    left.partitionValue = right.partitionValue

/-- The partition values of a compaction name the tables of its new files. -/
def CatalogOperation.NamesReplacementTables : CatalogOperation → Prop
  | .mergeAdjacent _ compaction | .rewriteDelete _ compaction =>
    ∀ row ∈ compaction.partitionValues, ∀ newFile ∈ compaction.newFiles, newFile.dataFileId = row.dataFileId →
      newFile.tableId = row.tableId
  | _ => True

section

variable {kv : CatalogKv} {batch : KvBatch} {row : DataFileRow} {now : Int} {order : CatalogOrderId}

theorem stageAppendDataFileWithoutChange_partitions (batch : KvBatch)
    (unvalued : ∀ key stored, kv.filePartitionValue.get? key = some stored → key.dataFileId ≠ row.dataFileId) :
    (stageAppendDataFileWithoutChange kv batch row).partitions =
      (batch.dataFile.put row.dataFileId row, batch.filePartitionValue, batch.partitionValueLookup) := by
  have noValues : filePartitionValuesOf kv row.dataFileId = [] := by
    refine OrderedMap.scan_eq_nil ?_
    intro key stored found
    exact decide_eq_false (unvalued key stored found)
  unfold stageAppendDataFileWithoutChange
  extract_lets filed raised
  rw [deletePartitionValuesForDataFile_partitions, noValues]
  simp only [raised, filed]
  cases dataFileNextRowId row with
  | none => rfl
  | some nextRowId => rfl

theorem stageAppendDataFile_partitions (batch : KvBatch)
    (unvalued : ∀ key stored, kv.filePartitionValue.get? key = some stored → key.dataFileId ≠ row.dataFileId) :
    (stageAppendDataFile kv batch row).partitions =
      (batch.dataFile.put row.dataFileId row, batch.filePartitionValue, batch.partitionValueLookup) :=
  stageAppendDataFileWithoutChange_partitions batch unvalued

theorem stageMutationDataFile_partitions (batch : KvBatch)
    (unvalued : ∀ key stored, kv.filePartitionValue.get? key = some stored → key.dataFileId ≠ row.dataFileId) :
    (stageMutationDataFile kv order batch row).partitions =
      (batch.dataFile.put row.dataFileId row, batch.filePartitionValue, batch.partitionValueLookup) := by
  unfold stageMutationDataFile
  split
  · exact stageAppendDataFileWithoutChange_partitions batch unvalued
  · exact stageAppendDataFile_partitions batch unvalued

/-- Replacements keep the tables of the files they were derived from. -/
theorem replacementTables {replacements newFiles : List DataFileRow} {given : List FilePartitionValueRow}
    (places : replacements.map DataFileRow.place = newFiles.map DataFileRow.place)
    (tables : ∀ row ∈ given, ∀ newFile ∈ newFiles, newFile.dataFileId = row.dataFileId → newFile.tableId = row.tableId) :
    ∀ row ∈ given, ∀ newFile ∈ replacements, newFile.dataFileId = row.dataFileId → newFile.tableId = row.tableId := by
  intro row listed newFile member named
  have place : newFile.place ∈ newFiles.map DataFileRow.place := places ▸ List.mem_map_of_mem member
  obtain ⟨source, sourceMember, same⟩ := List.mem_map.mp place
  simp only [DataFileRow.place, Prod.mk.injEq] at same
  exact same.2 ▸ tables row listed source sourceMember (same.1.trans named)

variable {input : DataMutationInput} {compaction result : DataFileCompaction}

/-- An accepted mutation gives values under the tables of its files. -/
theorem validateDataMutation_partitionTables (valid : validateDataMutation kv input = .ok ())
    (distinct : (input.dataFiles.map DataFileRow.dataFileId).Nodup) :
    ∀ row ∈ input.partitionValues, ∀ dataFile ∈ input.dataFiles, dataFile.dataFileId = row.dataFileId →
      dataFile.tableId = row.tableId := by
  intro row listed dataFile member named
  unfold validateDataMutation at valid
  rw [bind_eq_ok] at valid
  obtain ⟨_, partitionsValid, _⟩ := valid
  have passes := forM_eq_ok_iff.mp partitionsValid row listed
  unfold validateAppendedReference appendedTableId at passes
  cases found : input.dataFiles.find? fun file => file.dataFileId = row.dataFileId with
  | none => simp [found] at passes
  | some appended =>
    have appendedNamed : appended.dataFileId = row.dataFileId := by simpa using List.find?_some found
    have same : appended = dataFile := List.inj_on_of_nodup_map distinct (List.mem_of_find?_eq_some found) member
      (appendedNamed.trans named.symm)
    subst same
    simp only [found, Option.map_some] at passes
    split at passes
    · simp at passes
    · rename_i sameTable
      exact not_not.mp sameTable

variable (before : kv.partitionIndexes.Sound)

include before

theorem stageAppendDataFiles_partitions {rows result : List DataFileRow} {inlineFlushes : List InlineTableFlush}
    (staged : stageAppendDataFiles kv now rows inlineFlushes order = .ok (result, batch))
    (distinct : (rows.map DataFileRow.dataFileId).Nodup)
    (unknown : ∀ dataFileId ∈ rows.map DataFileRow.dataFileId, kv.dataFile.get? dataFileId = none)
    (unvalued : ∀ key stored, kv.filePartitionValue.get? key = some stored →
      key.dataFileId ∉ rows.map DataFileRow.dataFileId) : StagesPartitions kv result [] batch := by
  obtain ⟨_, flushes, rfl⟩ := stageAppendDataFiles_ok staged
  have ids : (rows.map fun row => { row with validity := ⟨order, none⟩ }).map DataFileRow.dataFileId =
      rows.map DataFileRow.dataFileId := by
    simp [Function.comp_def]
  rw [← ids] at distinct unknown unvalued
  refine StagesPartitions.congr ?_ (foldlM_stageFlushInlineTablePayloads_changes flushes).partitions
  have opening : StagesPartitions kv [] []
      (stageSnapshot {} (snapshotRowForNextSequence (latestSnapshot kv) order now)) := .start before rfl
  refine opening.append ?_ distinct unknown unvalued
  intro batch row member
  refine stageAppendDataFile_partitions batch ?_
  intro key stored found same
  exact unvalued key stored found (same ▸ List.mem_map_of_mem member)

section

variable (named : ∀ {dataFileId row}, kv.dataFile.get? dataFileId = some row → row.dataFileId = dataFileId)
  (distinct : (compaction.newFiles.map DataFileRow.dataFileId).Nodup)
  (unknown : ∀ dataFileId ∈ compaction.newFiles.map DataFileRow.dataFileId, kv.dataFile.get? dataFileId = none)
  (unvalued : ∀ key stored, kv.filePartitionValue.get? key = some stored →
    key.dataFileId ∉ compaction.newFiles.map DataFileRow.dataFileId)
  (tables : ∀ row ∈ compaction.partitionValues, ∀ newFile ∈ compaction.newFiles, newFile.dataFileId = row.dataFileId →
    newFile.tableId = row.tableId)
  (agree : ∀ left ∈ compaction.partitionValues, ∀ right ∈ compaction.partitionValues, left.valueKey = right.valueKey →
    left.partitionValue = right.partitionValue)
include named distinct unknown unvalued tables agree

theorem stageMergeAdjacent_partitions (staged : stageMergeAdjacent kv now compaction order = .ok (result, batch)) :
    result.newFiles.map DataFileRow.dataFileId = compaction.newFiles.map DataFileRow.dataFileId ∧
      StagesPartitions kv result.newFiles compaction.partitionValues batch := by
  obtain ⟨sources, expired, expires, newFiles, derives, valued, values, rfl, rfl⟩ := stageMergeAdjacent_ok staged
  generalize replaced : ((applyMergeReplacementVisibility newFiles sources order).map fun newFile =>
    newFile.withEndOrder none) = replacements at values ⊢
  have places : replacements.map DataFileRow.place = compaction.newFiles.map DataFileRow.place := by
    rw [← deriveMergeReplacementRowIds_places derives, ← applyMergeReplacementVisibility_places newFiles sources order,
      ← replaced, List.map_map]
    rfl
  have ids := ids_of_places places
  rw [← ids] at distinct unknown unvalued
  refine ⟨ids, ?_⟩
  have closed : StagesPartitions kv [] [] expired :=
    expireMergeSources_invariant (StagesPartitions kv [] []) expires (.start before rfl) fun soFar expiresSource =>
      soFar.expireSource before named expiresSource
  refine StagesPartitions.congr ?_ (stageCompactionStats_changes valued _ order).partitions
  refine StagesPartitions.values ?_ unvalued ?_ agree values
  · refine closed.append ?_ distinct unknown unvalued
    intro batch row member
    refine stageAppendDataFileWithoutChange_partitions batch ?_
    intro key stored found same
    exact unvalued key stored found (same ▸ List.mem_map_of_mem member)
  · exact replacementTables places tables

theorem stageRewriteDelete_partitions {tableId : TableId}
    (staged : stageRewriteDelete kv now compaction tableId order = .ok (result, batch)) :
    result.newFiles.map DataFileRow.dataFileId = compaction.newFiles.map DataFileRow.dataFileId ∧
      StagesPartitions kv result.newFiles compaction.partitionValues batch := by
  obtain ⟨expired, expires, valued, values, rfl, rfl⟩ := stageRewriteDelete_ok staged
  generalize replaced : (compaction.newFiles.map fun newFile => { newFile with validity := ⟨order, none⟩ }) =
    replacements at values ⊢
  have places : replacements.map DataFileRow.place = compaction.newFiles.map DataFileRow.place := by
    rw [← replaced, List.map_map]
    rfl
  have ids := ids_of_places places
  rw [← ids] at distinct unknown unvalued
  refine ⟨ids, ?_⟩
  have closed : StagesPartitions kv [] [] expired :=
    expireRewriteSources_invariant (StagesPartitions kv [] []) expires (.start before rfl)
      (fun soFar expiresSource => soFar.expireSource before named expiresSource) fun soFar => soFar.congr rfl
  refine StagesPartitions.values ?_ unvalued (replacementTables places tables) agree values
  refine StagesPartitions.congr ?_ (stageCompactionStats_changes _ _ order).partitions
  refine closed.append ?_ distinct unknown unvalued
  intro batch row member
  refine stageAppendDataFile_partitions batch ?_
  intro key stored found same
  exact unvalued key stored found (same ▸ List.mem_map_of_mem member)

end

/-- Dropping files of the store after the new ones are staged. -/
theorem foldl_stageDropDataFile_partitions {rows dropped : List DataFileRow} {given : List FilePartitionValueRow}
    (staged : StagesPartitions kv rows given batch)
    (unknown : ∀ dataFileId ∈ rows.map DataFileRow.dataFileId, kv.dataFile.get? dataFileId = none)
    (stored : ∀ row ∈ dropped, kv.dataFile.get? row.dataFileId = some row) :
    StagesPartitions kv rows given (dropped.foldl (stageDropDataFile kv now order) batch) := by
  induction dropped generalizing batch with
  | nil => exact staged
  | cons row rest ih =>
    refine ih ?_ fun later member => stored later (List.mem_cons_of_mem _ member)
    exact staged.expire before unknown (stored row List.mem_cons_self)
      (deletePartitionLookupsForDataFile_partitions kv _ row.dataFileId)

theorem stageDataMutation_partitions {result : DataMutationCommit} (valid : validateDataMutation kv input = .ok ())
    (staged : stageDataMutation kv now input order = .ok (result, batch))
    (distinct : (input.dataFiles.map DataFileRow.dataFileId).Nodup)
    (unknown : ∀ dataFileId ∈ input.dataFiles.map DataFileRow.dataFileId, kv.dataFile.get? dataFileId = none)
    (unvalued : ∀ key stored, kv.filePartitionValue.get? key = some stored →
      key.dataFileId ∉ input.dataFiles.map DataFileRow.dataFileId)
    (agree : ∀ left ∈ input.partitionValues, ∀ right ∈ input.partitionValues, left.valueKey = right.valueKey →
      left.partitionValue = right.partitionValue) :
    result.dataFiles.map DataFileRow.dataFileId = input.dataFiles.map DataFileRow.dataFileId ∧
      StagesPartitions kv result.dataFiles input.partitionValues batch := by
  have tables := validateDataMutation_partitionTables valid distinct
  obtain ⟨valued, values, registered, withDeletes, registers, closed, closes, flushed, flushes, dropped, drops, rfl,
    rfl⟩ := stageDataMutation_ok staged
  have places : (input.dataFiles.map (mutationDataFile order)).map DataFileRow.place =
      input.dataFiles.map DataFileRow.place := by
    rw [List.map_map]
    refine List.map_congr_left ?_
    intro row _
    obtain ⟨id, table, _⟩ := mutationDataFile_eq order row
    simp only [Function.comp_apply, DataFileRow.place, id, table]
  have ids := ids_of_places places
  rw [← ids] at distinct unknown unvalued
  refine ⟨ids, ?_⟩
  have opening : StagesPartitions kv [] []
      (stageSnapshot {} (snapshotRowForNextSequence (latestSnapshot kv) order now)) := .start before rfl
  have appended : StagesPartitions kv (input.dataFiles.map (mutationDataFile order)) []
      ((input.dataFiles.map (mutationDataFile order)).foldl (stageMutationDataFile kv order)
        (stageSnapshot {} (snapshotRowForNextSequence (latestSnapshot kv) order now))) := by
    refine opening.append ?_ distinct unknown unvalued
    intro batch row member
    refine stageMutationDataFile_partitions batch ?_
    intro key stored found same
    exact unvalued key stored found (same ▸ List.mem_map_of_mem member)
  have written := ((appended.values unvalued (replacementTables places tables) agree values).congr
    (stageCompactionStats_changes valued input.fileColumnStats order).partitions).congr
    (stageMutationDeleteFiles_changes registers).partitions
  have ended := (written.congr (stageCloseMaterializedInlineFileDeletions_changes closes).inlineEnds.partitions).congr
    (foldlM_stageFlushInlineTablePayloads_changes flushes).partitions
  have deleted := ended.congr (stageNewInlineFileDeletions_changes flushed input.inlineFileDeletions order).partitions
  refine foldl_stageDropDataFile_partitions before ?_ unknown
    fun row member => (loadCurrentDroppedDataFiles_ok drops row member).2.1
  split
  · exact deleted
  · exact deleted.congr rfl

end

/-- Every commit that gives each file one value a key keeps the lookups sound. -/
theorem CatalogOperation.Commits.partitions {kv : CatalogKv} {operation : CatalogOperation} {batch : KvBatch}
    (commits : operation.Commits kv batch) (before : kv.partitionIndexes.Sound)
    (named : ∀ {dataFileId row}, kv.dataFile.get? dataFileId = some row → row.dataFileId = dataFileId)
    (distinct : operation.newDataFileIds.Nodup)
    (unknown : ∀ dataFileId ∈ operation.newDataFileIds, kv.dataFile.get? dataFileId = none)
    (unvalued : ∀ key stored, kv.filePartitionValue.get? key = some stored →
      key.dataFileId ∉ operation.newDataFileIds)
    (oneValue : operation.GivesOneValue) (tables : operation.NamesReplacementTables) :
    ∃ rows given, rows.map DataFileRow.dataFileId = operation.newDataFileIds ∧ StagesPartitions kv rows given batch := by
  cases commits with
  | createTable _ staged =>
    obtain ⟨_, rfl⟩ := stageCreateTableRow_ok staged
    exact ⟨[], [], rfl, .start before rfl⟩
  | appendDataFiles staged =>
    obtain ⟨ids, _⟩ := stageAppendDataFiles_files staged
    exact ⟨_, _, ids, stageAppendDataFiles_partitions before staged distinct unknown unvalued⟩
  | dataMutation valid staged =>
    exact ⟨_, _, stageDataMutation_partitions before valid staged distinct unknown unvalued oneValue⟩
  | mergeAdjacent _ staged =>
    exact ⟨_, _, stageMergeAdjacent_partitions before named distinct unknown unvalued tables oneValue staged⟩
  | @rewriteDelete compaction tableId normalized _ _ _ valid staged =>
    obtain ⟨_, sameInput, normalizes⟩ := validateRewriteDelete_ok valid
    have places := normalizeRewriteReplacementRowIds_places normalizes
    have ids : normalized.newFiles.map DataFileRow.dataFileId = compaction.newFiles.map DataFileRow.dataFileId :=
      ids_of_places places
    have sameValues : normalized.partitionValues = compaction.partitionValues := by rw [sameInput]
    obtain ⟨sameIds, stages⟩ := stageRewriteDelete_partitions before named (ids ▸ distinct) (ids ▸ unknown)
      (ids ▸ unvalued) (sameValues ▸ replacementTables places tables) (sameValues ▸ oneValue) staged
    exact ⟨_, _, sameIds.trans ids, stages⟩
  | registerDeleteFiles staged =>
    exact ⟨[], [], rfl, .start before (stageRegisterDeleteFiles_changes staged).partitions⟩
  | inlineFileDeletions staged =>
    exact ⟨[], [], rfl, .start before (stageInlineFileDeletions_changes staged).partitions⟩
  | registerInlinePayload _ staged =>
    exact ⟨[], [], rfl, .start before (stageInlineTablePayload_changes staged).partitions⟩
  | registerInlinePayloadWithTable _ staged =>
    exact ⟨[], [], rfl, .start before (stageInlineTablePayloadWithTable_changes staged).partitions⟩

/-! ## Removal -/

/-- A removal batch takes whole files with their values and lookup entries. -/
structure RemovesPartitions (kv : CatalogKv) (batch : KvBatch) : Prop where
  sound : (kv.commit batch).partitionIndexes.Sound
  unwritten : batch.dataFile.writes = [] ∧ batch.filePartitionValue.writes = [] ∧
    batch.partitionValueLookup.writes = []
  valued : ∀ {key row}, (kv.commit batch).filePartitionValue.get? key = some row →
    kv.filePartitionValue.get? key = some row

theorem RemovesPartitions.congr {kv : CatalogKv} {before : KvBatch} (removes : RemovesPartitions kv before)
    (same : after.partitions = before.partitions) : RemovesPartitions kv after := by
  have indexes := kv.commit_partitionIndexes_congr same
  have values : (kv.commit after).filePartitionValue = (kv.commit before).filePartitionValue :=
    congrArg PartitionIndexes.values indexes
  simp only [KvBatch.partitions, Prod.mk.injEq] at same
  refine ⟨indexes ▸ removes.sound, ?_, ?_⟩
  · rw [same.1, same.2.1, same.2.2]
    exact removes.unwritten
  · intro key row found
    exact removes.valued (values ▸ found)

theorem RemovesPartitions.remove {kv : CatalogKv} {batch next : KvBatch} (removes : RemovesPartitions kv batch)
    (before : kv.partitionIndexes.Sound) (dataFileId : DataFileId)
    (deletes : next.partitions = (batch.dataFile.delete dataFileId,
      batch.filePartitionValue.deleteAll ((filePartitionValuesOf kv dataFileId).map Prod.fst),
      batch.partitionValueLookup.deleteAll
        ((filePartitionValuesOf kv dataFileId).map fun entry => partitionLookupKey entry.2))) :
    RemovesPartitions kv next := by
  obtain ⟨noFiles, noValues, noLookups⟩ := removes.unwritten
  simp only [KvBatch.partitions, Prod.mk.injEq] at deletes
  obtain ⟨files, values, lookups⟩ := deletes
  have filesAfter : (kv.commit next).dataFile = (kv.commit batch).dataFile.erase dataFileId := by
    simp only [CatalogKv.commit, files, OrderedMap.commit_delete _ _ _ (Staged.silent noFiles _)]
  have valuesAfter (key : FilePartitionValueKey) : (kv.commit next).filePartitionValue.get? key =
      if key.dataFileId = dataFileId then none else (kv.commit batch).filePartitionValue.get? key := by
    simp only [CatalogKv.commit, values]
    split
    · rename_i ofFile
      by_cases deleted : key ∈ (filePartitionValuesOf kv dataFileId).map Prod.fst
      · exact OrderedMap.get?_commit_deleteAll_of_mem _ _ deleted (Staged.silent noValues _)
      · rw [OrderedMap.get?_commit_deleteAll_of_not_mem _ _ deleted]
        refine Option.eq_none_iff_forall_ne_some.mpr ?_
        intro row found
        exact deleted (List.mem_map.mpr ⟨(key, row),
          OrderedMap.mem_scan.mpr ⟨removes.valued found, decide_eq_true ofFile⟩, rfl⟩)
    · rename_i other
      refine OrderedMap.get?_commit_deleteAll_of_not_mem _ _ ?_
      intro deleted
      obtain ⟨entry, member, rfl⟩ := List.mem_map.mp deleted
      exact other (of_decide_eq_true (OrderedMap.mem_scan.mp member).2)
  refine ⟨?_, ?_, ?_⟩
  · refine removes.sound.remove filesAfter valuesAfter ?_
    intro key
    have deleted := commit_deletePartitionLookups dataFileId before removes.sound
      (fun key writes => absurd writes (Staged.silent noLookups key)) (fun found _ => removes.valued found) key
    simp only [CatalogKv.partitionIndexes, CatalogKv.commit, lookups]
    exact deleted
  · rw [files, values, lookups, Staged.deleteAll_writes, Staged.deleteAll_writes]
    exact ⟨noFiles, noValues, noLookups⟩
  · intro key row found
    rw [valuesAfter] at found
    split at found
    · simp at found
    · exact removes.valued found

theorem stageRemoveOldDataFile_partitions {kv : CatalogKv} {batch : KvBatch} {snapshots : List SnapshotRow}
    {row : DataFileRow} (removes : RemovesPartitions kv batch) (before : kv.partitionIndexes.Sound) :
    RemovesPartitions kv (stageRemoveOldDataFile kv snapshots batch row) := by
  unfold stageRemoveOldDataFile
  extract_lets unscheduled
  have opening : RemovesPartitions kv unscheduled := by
    refine removes.congr ?_
    simp only [unscheduled]
    split
    · rfl
    · rfl
  split
  · refine opening.remove before row.dataFileId ?_
    unfold stageRemoveDataFileMetadata
    rw [deletePartitionValuesForDataFile_partitions]
    obtain ⟨_, _, _, _, same⟩ := stageRemoveFileColumnStats_changes kv (deleteDataFileMetadata unscheduled row) row.dataFileId
    rw [deleteDataFileMetadata] at same
    rw [same]
  · exact opening

theorem CatalogOperation.Maintains.partitions {kv : CatalogKv} {operation : CatalogOperation} {batch : KvBatch}
    (maintains : operation.Maintains kv batch) (before : kv.partitionIndexes.Sound) : RemovesPartitions kv batch := by
  have nothing : RemovesPartitions kv {} := ⟨before, ⟨rfl, rfl, rfl⟩, fun found => found⟩
  cases maintains with
  | expireSnapshots staged =>
    obtain ⟨_, rfl⟩ := stageExpiredSnapshots_changes staged
    exact nothing.congr rfl
  | removeOldDataFiles staged =>
    obtain ⟨rows, _, snapshots, _, rfl, rfl⟩ := stageRemoveOldDataFiles_ok staged
    refine RemovesPartitions.congr ?_ (stageRemoveUnreachableTables_changes kv _ _ snapshots).partitions
    have removing (removed : List DataFileRow) (start : KvBatch) (removes : RemovesPartitions kv start) :
        RemovesPartitions kv (removed.foldl (stageRemoveOldDataFile kv snapshots) start) := by
      induction removed generalizing start with
      | nil => exact removes
      | cons row rest ih => exact ih _ (stageRemoveOldDataFile_partitions removes before)
    exact removing _ {} nothing
  | removeOldDeleteFiles staged =>
    obtain ⟨_, ⟨_, _, _, _, _, _, rfl⟩, _, _, _, rfl⟩ := stageRemoveOldDeleteFiles_changes staged
    exact nothing.congr rfl

/-! ## Runs -/

/-- Histories that also register single partition values between their operations. -/
inductive CatalogHistory.PartitionReachable (Allowed : CatalogHistory → CatalogOperation → Prop) : CatalogHistory → Prop
  | start (lastOrder : CatalogOrderId) (now : Int) : PartitionReachable Allowed (CatalogHistory.start lastOrder now)
  | operation (earlier : PartitionReachable Allowed history) (allowed : Allowed history operation) :
      PartitionReachable Allowed (history.after operation)
  | registerFilePartitionValue (earlier : PartitionReachable Allowed history) (row : FilePartitionValueRow) :
      PartitionReachable Allowed { history with kv := (DucklakeCatalog.registerFilePartitionValue history.kv row).2 }

/-- New file ids, one value a file and key, and replacements under their own tables. -/
def CatalogHistory.GivesPartitionValues (history : CatalogHistory) (operation : CatalogOperation) : Prop :=
  history.FreshDataFileIds operation ∧ operation.GivesOneValue ∧ operation.NamesReplacementTables

/-- The lookups are sound, and values are kept only for ids that some accepted operation used. -/
structure PartitionsSound (history : CatalogHistory) : Prop where
  files : DataFilesSound history
  sound : history.kv.partitionIndexes.Sound
  used : ∀ key row, history.kv.filePartitionValue.get? key = some row → key.dataFileId ∈ history.dataFileIds

namespace PartitionsSound

variable {history : CatalogHistory} {operation : CatalogOperation} {batch : KvBatch}

theorem start (lastOrder : CatalogOrderId) (now : Int) : PartitionsSound (CatalogHistory.start lastOrder now) where
  files := .start lastOrder now
  sound := by
    have empty : (CatalogHistory.start lastOrder now).kv.partitionIndexes = ⟨.empty, .empty, .empty⟩ := rfl
    rw [empty]
    refine ⟨?_, ?_, ?_, ?_⟩
    · intro key row found
      simp at found
    · intro key row dataFile found
      simp at found
    · intro key row dataFile found
      simp at found
    · intro key row dataFile found
      simp at found
  used := by
    intro key row found
    have empty : (CatalogHistory.start lastOrder now).kv.filePartitionValue = .empty := rfl
    simp [empty] at found

theorem commit (partitions : PartitionsSound history) (allowed : history.GivesPartitionValues operation)
    (commits : operation.Commits history.kv batch) : PartitionsSound (history.committed operation batch) := by
  obtain ⟨fresh, oneValue, tables⟩ := allowed
  obtain ⟨rows, given, ids, staged⟩ := commits.partitions partitions.sound partitions.files.coherent.named fresh.1
    (fun dataFileId new => partitions.files.unknown (fresh.2 _ new))
    (fun key stored found new => fresh.2 _ new (partitions.used key stored found)) oneValue tables
  refine ⟨partitions.files.commit fresh commits, staged.sound, ?_⟩
  intro key row found
  rcases staged.valued found with known | ⟨new, _⟩
  · exact List.mem_append_left _ (partitions.used key row known)
  · exact List.mem_append_right _ (ids ▸ new)

theorem maintain (partitions : PartitionsSound history) (maintains : operation.Maintains history.kv batch) :
    PartitionsSound (history.maintained batch) := by
  have removes := maintains.partitions partitions.sound
  refine ⟨partitions.files.maintain maintains, removes.sound, ?_⟩
  intro key row found
  exact partitions.used key row (removes.valued found)

/-- A registration replaces the value of a stored file together with its lookup entry. -/
theorem register (partitions : PartitionsSound history) (row : FilePartitionValueRow) :
    PartitionsSound { history with kv := (registerFilePartitionValue history.kv row).2 } := by
  unfold registerFilePartitionValue
  cases staged : stageRegisteredPartitionValue history.kv row with
  | error failure => exact ⟨partitions.files, partitions.sound, partitions.used⟩
  | ok outcome =>
    obtain ⟨registered, batch⟩ := outcome
    obtain ⟨dataFile, stored, table, files, values, lookups⟩ := stageRegisteredPartitionValue_commit staged
    have sameFiles : (history.kv.commit batch).dataFile = history.kv.dataFile := congrArg DataFileIndexes.dataFile files
    refine ⟨⟨?_, ?_⟩, partitions.sound.register stored table sameFiles values lookups, ?_⟩
    · have coherent := partitions.files.coherent
      rw [← files] at coherent
      exact coherent
    · intro dataFileId other found
      exact partitions.files.used (sameFiles ▸ found)
    · intro key value found
      have inserted : (history.kv.filePartitionValue.insert row.valueKey row).get? key = some value := values ▸ found
      rw [OrderedMap.get?_insert] at inserted
      split at inserted
      · rename_i same
        rw [same]
        exact partitions.files.used stored
      · exact partitions.used key value inserted

end PartitionsSound

/-- In every run whose commits give each file one value a key, under its own table, the lookups list exactly the
current files that hold a value. -/
theorem reachable_partitionLookupsCoherent
    (reachable : CatalogHistory.PartitionReachable CatalogHistory.GivesPartitionValues history) :
    PartitionLookupsCoherent history.kv := by
  have partitions : PartitionsSound history := by
    induction reachable with
    | start lastOrder now => exact .start lastOrder now
    | @operation history operation _ allowed ih =>
      exact CatalogHistory.after_invariant PartitionsSound ih
        ⟨⟨ih.files.coherent, ih.files.used⟩, ih.sound, ih.used⟩ (fun _ commits => ih.commit allowed commits)
        (fun _ maintains => ih.maintain maintains)
    | registerFilePartitionValue _ row ih => exact ih.register row
  exact partitions.sound.lookupsCoherent partitions.files.coherent

/-- One new file with the given values for one partition key. -/
def partitionedFile (values : List String) : CatalogOperation :=
  .dataMutation 0 {
    dataFiles := [{ dataFileId := 1, tableId := 1, path := "", recordCount := 10, fileSizeBytes := 1, rowIdStart := 0,
                    rowIdStartKnown := true, validity := ⟨autoOrder, none⟩ }]
    partitionValues := values.map fun value => ⟨1, 1, 0, value⟩ }

def afterPartitionedFile (values : List String) : CatalogHistory :=
  (CatalogHistory.start 0 0).after (partitionedFile values)

theorem afterPartitionedFile_reachable (value : String) :
    CatalogHistory.PartitionReachable CatalogHistory.GivesPartitionValues (afterPartitionedFile [value]) := by
  refine .operation (.start 0 0) ⟨⟨List.nodup_singleton _, fun _ _ => List.not_mem_nil⟩, ?_, trivial⟩
  intro left leftGiven right rightGiven _
  rw [List.mem_singleton.mp leftGiven, List.mem_singleton.mp rightGiven]

theorem reachable_partitionLookupsCoherent_registered :
    PartitionLookupsCoherent (registerFilePartitionValue (afterPartitionedFile ["a"]).kv ⟨1, 1, 0, "b"⟩).2 ∧
      listCurrentDataFilesByPartitionValue (afterPartitionedFile ["a"]).kv 1 0 "a" ≠ [] := by
  have registered := (afterPartitionedFile_reachable "a").registerFilePartitionValue ⟨1, 1, 0, "b"⟩
  exact ⟨reachable_partitionLookupsCoherent registered, by decide +kernel⟩

/-- Of two values given for one key the last one is stored, yet the file stays listed under the first. -/
theorem partitionLookups_keepFirstOfTwoValues :
    CatalogHistory.PartitionReachable CatalogHistory.FreshDataFileIds (afterPartitionedFile ["a", "b"]) ∧
      ¬PartitionLookupsCoherent (afterPartitionedFile ["a", "b"]).kv := by
  refine ⟨.operation (.start 0 0) (by decide +kernel), ?_⟩
  intro coherent
  have listed := (coherent 1 0 "a").1
  revert listed
  decide +kernel

end DucklakeCatalog
