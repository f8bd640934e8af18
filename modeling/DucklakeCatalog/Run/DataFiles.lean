import DucklakeCatalog.File.DataFileIndexes
import DucklakeCatalog.Run.Operations

namespace DucklakeCatalog

open KeyedStore

/-! ## Ids and tables of replacement files -/

def DataFileRow.place (row : DataFileRow) : DataFileId × TableId :=
  (row.dataFileId, row.tableId)

theorem ids_of_places {left right : List DataFileRow} (same : left.map DataFileRow.place = right.map DataFileRow.place) :
    left.map DataFileRow.dataFileId = right.map DataFileRow.dataFileId := by
  have ids := congrArg (List.map Prod.fst) same
  rw [List.map_map, List.map_map] at ids
  exact ids

variable {result : List DataFileRow} {compaction : DataFileCompaction} {tableId : TableId} {before after : KvBatch}
  {stage : KvBatch → DataFileRow → KvBatch}
variable {newFiles : List DataFileRow} {dataFileIds : List DataFileId} {operation : CatalogOperation}
  {row : DataFileRow}

theorem deriveMergeReplacementRowIds_places {sources : List ExpiredSourceFile}
    (success : deriveMergeReplacementRowIds newFiles sources = .ok result) :
    result.map DataFileRow.place = newFiles.map DataFileRow.place := by
  unfold deriveMergeReplacementRowIds at success
  split at success
  · simp only [Except.ok.injEq] at success
    rw [success]
  · split at success
    · split at success
      · simp at success
      · simp only [Except.ok.injEq] at success
        simp [← success, DataFileRow.place]
    · simp at success

theorem applyMergeReplacementVisibility_places (newFiles : List DataFileRow) (sources : List ExpiredSourceFile)
    (order : CatalogOrderId) :
    (applyMergeReplacementVisibility newFiles sources order).map DataFileRow.place =
      newFiles.map DataFileRow.place := by
  unfold applyMergeReplacementVisibility
  cases mergeReplacementVisibility sources order with
  | none => rfl
  | some visibility =>
    simp only [Option.elim, List.map_map]
    refine List.map_congr_left ?_
    intro newFile _
    simp only [Function.comp_apply]
    split
    · rfl
    · rfl

theorem assignUnknownRowIds_places (nextStart : Nat) (newFiles : List DataFileRow) :
    (assignUnknownRowIds nextStart newFiles).map DataFileRow.place = newFiles.map DataFileRow.place := by
  induction newFiles generalizing nextStart with
  | nil => rfl
  | cons newFile rest ih =>
    simp only [assignUnknownRowIds]
    split
    · simp [ih]
    · simp [ih, DataFileRow.place]

theorem normalizeRewriteReplacementRowIds_places {kv : CatalogKv} {sourceFileIds : List DataFileId}
    (success : normalizeRewriteReplacementRowIds kv sourceFileIds newFiles = .ok result) :
    result.map DataFileRow.place = newFiles.map DataFileRow.place := by
  unfold normalizeRewriteReplacementRowIds at success
  simp only [bind_eq_ok, pure_eq_ok] at success
  obtain ⟨sources, _, sourceStart, _, derived, derives, rfl⟩ := success
  have samePlaces : derived.map DataFileRow.place = newFiles.map DataFileRow.place := by
    unfold deriveUnknownRewriteReplacementRowIds at derives
    extract_lets unknownRecordCount at derives
    split at derives
    · simp only [Except.ok.injEq] at derives
      rw [derives]
    · simp only [bind_eq_ok, pure_eq_ok] at derives
      obtain ⟨sourceEnd, _, rfl⟩ := derives
      exact assignUnknownRowIds_places _ _
  rw [← samePlaces, List.map_map]
  refine List.map_congr_left ?_
  intro newFile _
  simp only [Function.comp_apply]
  split
  · rfl
  · rfl

theorem validateRewriteDelete_ok {kv : CatalogKv} {normalized : DataFileCompaction}
    (success : validateRewriteDelete kv compaction = .ok (tableId, normalized)) :
    compactionTableId kv compaction.sourceFileIds compaction.newFiles = .ok tableId ∧
      normalized = { compaction with newFiles := normalized.newFiles } ∧
      normalizeRewriteReplacementRowIds kv compaction.sourceFileIds compaction.newFiles = .ok normalized.newFiles := by
  unfold validateRewriteDelete at success
  split at success
  · simp at success
  · simp only [bind_eq_ok, pure_eq_ok, Prod.mk.injEq] at success
    obtain ⟨table, foundTable, newFiles, normalizes, _, _, rfl, rfl⟩ := success
    exact ⟨foundTable, rfl, normalizes⟩

/-! ## Staging the data files of one commit -/

theorem KvBatch.ChangesPartitions.dataFiles (changes : before.ChangesPartitions after) :
    after.dataFiles = before.dataFiles := by
  obtain ⟨_, _, rfl⟩ := changes
  rfl

theorem KvBatch.ChangesStats.dataFiles (changes : before.ChangesStats after) :
    after.dataFiles = before.dataFiles := by
  obtain ⟨_, _, _, _, rfl⟩ := changes
  rfl

theorem KvBatch.ChangesDeleteFiles.dataFiles (changes : before.ChangesDeleteFiles after) :
    after.dataFiles = before.dataFiles := by
  obtain ⟨_, _, _, _, _, _, _, rfl⟩ := changes
  rfl

theorem KvBatch.ChangesInlineEnds.dataFiles (changes : before.ChangesInlineEnds after) :
    after.dataFiles = before.dataFiles := by
  obtain ⟨_, _, _, _, rfl⟩ := changes
  rfl

theorem KvBatch.ChangesInlineDeletions.dataFiles
    (changes : before.ChangesInlineDeletions after) : after.dataFiles = before.dataFiles := by
  obtain ⟨_, rfl⟩ := changes
  rfl

theorem KvBatch.ChangesInlineTables.dataFiles (changes : before.ChangesInlineTables after) :
    after.dataFiles = before.dataFiles := by
  obtain ⟨_, _, _, _, _, _, _, _, _, rfl⟩ := changes
  rfl

theorem KvBatch.ChangesTables.dataFiles (changes : before.ChangesTables after) :
    after.dataFiles = before.dataFiles := by
  obtain ⟨_, _, _, rfl⟩ := changes
  rfl

namespace StagesDataFiles

variable {kv : CatalogKv} {newIds : List DataFileId} {order : CatalogOrderId} {batch next : KvBatch}

/-- The primary rows after appending files in list order. -/
theorem commit_foldl_append
    (appends : ∀ batch row, (stage batch row).dataFiles = (putAppendedDataFile batch row).dataFiles)
    (rows : List DataFileRow) (batch : KvBatch) :
    (kv.commit (rows.foldl stage batch)).dataFile =
      (kv.commit batch).dataFile.insertAll DataFileRow.dataFileId rows := by
  induction rows generalizing batch with
  | nil => rfl
  | cons row rest ih =>
    have appended := congrArg DataFileIndexes.dataFile (kv.commit_dataFileIndexes_congr (appends batch row))
    rw [commit_putAppendedDataFile] at appended
    have inserted : (kv.commit (stage batch row)).dataFile =
      (kv.commit batch).dataFile.insert row.dataFileId row := appended
    rw [List.foldl_cons, ih, inserted]
    rfl

/-- Appending files whose ids are distinct and unknown, in list order. -/
theorem foldl_append (appends : ∀ batch row, (stage batch row).dataFiles = (putAppendedDataFile batch row).dataFiles)
    {rows : List DataFileRow} (staged : StagesDataFiles kv newIds order batch)
    (distinct : (rows.map DataFileRow.dataFileId).Nodup)
    (new : ∀ row ∈ rows, row.dataFileId ∈ newIds ∧ row.validity.endOrder = none)
    (unknown : ∀ dataFileId ∈ newIds, kv.dataFile.get? dataFileId = none)
    (absent : ∀ row ∈ rows, (kv.commit batch).dataFile.get? row.dataFileId = none) :
    StagesDataFiles kv newIds order (rows.foldl stage batch) := by
  induction rows generalizing batch with
  | nil => exact staged
  | cons row rest ih =>
    obtain ⟨notLater, distinctRest⟩ := List.nodup_cons.mp distinct
    obtain ⟨newId, opened⟩ := new row List.mem_cons_self
    refine ih (staged.append newId (unknown _ newId) (absent row List.mem_cons_self) opened (appends batch row))
      distinctRest (fun later member => new later (List.mem_cons_of_mem _ member)) ?_
    intro later member
    have different : later.dataFileId ≠ row.dataFileId := by
      intro same
      exact notLater (same ▸ List.mem_map_of_mem member)
    have inserted : (kv.commit (stage batch row)).dataFile = (kv.commit batch).dataFile.insertAll DataFileRow.dataFileId [row] :=
      commit_foldl_append appends [row] batch
    rw [inserted, OrderedMap.get?_insertAll_of_not_mem _ _ (by simpa using different)]
    exact absent later (List.mem_cons_of_mem _ member)

theorem expireSource {now : Int} {dataFileId : DataFileId} {policy : DeleteFilePolicy}
    {source : ExpiredSourceFile} (staged : StagesDataFiles kv newIds order batch)
    (named : ∀ {dataFileId row}, kv.dataFile.get? dataFileId = some row → row.dataFileId = dataFileId)
    (unknown : ∀ dataFileId ∈ newIds, kv.dataFile.get? dataFileId = none)
    (success : expireCompactedSourceFile kv now batch dataFileId order policy = .ok (source, next)) :
    StagesDataFiles kv newIds order next := by
  obtain ⟨_, _, expired, expires, rfl⟩ := expireCompactedSourceFile_ok success
  obtain ⟨row, stored, _, opened, same, _, _, rfl⟩ := stageExpireCurrentDataFile_ok expires
  obtain rfl := named stored
  rw [same]
  exact staged.expire unknown stored opened rfl

theorem mono (staged : StagesDataFiles kv [] order batch) : StagesDataFiles kv newIds order batch where
  steps := by
    refine Relation.ReflTransGen.mono ?_ _ _ staged.steps
    intro before after step
    cases step with
    | append new => exact absurd new List.not_mem_nil
    | expire stored closes => exact .expire stored closes
    | remove stored => exact .remove stored
  written writes := absurd (staged.written writes) List.not_mem_nil
  kept := staged.kept

end StagesDataFiles

/-- A batch whose new files are exactly the given rows. -/
structure StagesNewFiles (kv : CatalogKv) (rows : List DataFileRow) (order : CatalogOrderId)
    (batch : KvBatch) : Prop where
  staged : StagesDataFiles kv (rows.map DataFileRow.dataFileId) order batch
  added : ∀ row ∈ rows, (kv.commit batch).dataFile.get? row.dataFileId = some row

namespace StagesNewFiles

variable {kv : CatalogKv} {rows : List DataFileRow} {order : CatalogOrderId} {batch next : KvBatch}

theorem congr (files : StagesNewFiles kv rows order batch) (same : next.dataFiles = batch.dataFiles) :
    StagesNewFiles kv rows order next := by
  have unchanged : (kv.commit next).dataFile = (kv.commit batch).dataFile :=
    congrArg DataFileIndexes.dataFile (kv.commit_dataFileIndexes_congr same)
  exact ⟨files.staged.congr same, fun row member => unchanged ▸ files.added row member⟩

/-- Appending to a batch that has added no file yet. -/
theorem append (staged : StagesDataFiles kv [] order batch)
    (appends : ∀ batch row, (stage batch row).dataFiles = (putAppendedDataFile batch row).dataFiles)
    (opened : ∀ row ∈ rows, row.validity.endOrder = none) (distinct : (rows.map DataFileRow.dataFileId).Nodup)
    (unknown : ∀ dataFileId ∈ rows.map DataFileRow.dataFileId, kv.dataFile.get? dataFileId = none) :
    StagesNewFiles kv rows order (rows.foldl stage batch) := by
  refine ⟨staged.mono.foldl_append appends distinct
    (fun row member => ⟨List.mem_map_of_mem member, opened row member⟩) unknown ?_, ?_⟩
  · intro row member
    refine Option.eq_none_iff_forall_ne_some.mpr ?_
    intro found stored
    rcases staged.steps.stored_or_new (Option.isSome_iff_exists.mpr ⟨found, stored⟩) with known | new
    · have missing : kv.dataFileIndexes.dataFile.get? row.dataFileId = none := unknown _ (List.mem_map_of_mem member)
      simp [missing] at known
    · exact absurd new List.not_mem_nil
  · intro row member
    rw [StagesDataFiles.commit_foldl_append appends]
    exact OrderedMap.get?_insertAll_of_mem _ _ distinct member

theorem expire (files : StagesNewFiles kv rows order batch)
    (unknown : ∀ dataFileId ∈ rows.map DataFileRow.dataFileId, kv.dataFile.get? dataFileId = none) {row : DataFileRow}
    (stored : kv.dataFile.get? row.dataFileId = some row) (opened : row.validity.endOrder = none)
    (same : next.dataFiles = (putExpiredDataFile batch (row.withEndOrder (some order)) order).dataFiles) :
    StagesNewFiles kv rows order next := by
  refine ⟨files.staged.expire unknown stored opened same, ?_⟩
  intro added member
  have unchanged : (kv.commit next).dataFile =
      (kv.commit (putExpiredDataFile batch (row.withEndOrder (some order)) order)).dataFile :=
    congrArg DataFileIndexes.dataFile (kv.commit_dataFileIndexes_congr same)
  have different : added.dataFileId ≠ row.dataFileId := by
    intro sameId
    simp [← sameId, unknown _ (List.mem_map_of_mem member)] at stored
  rw [unchanged]
  simpa [CatalogKv.commit, putExpiredDataFile, OrderedMap.get?_insert, DataFileRow.withEndOrder, different] using
    files.added added member

end StagesNewFiles

theorem stageAppendDataFile_dataFiles (kv : CatalogKv) (batch : KvBatch) (row : DataFileRow) :
    (stageAppendDataFile kv batch row).dataFiles = (putAppendedDataFile batch row).dataFiles := by
  obtain ⟨_, _, _, _, same⟩ := stageAppendDataFileWithoutChange_eq kv batch row
  simp only [stageAppendDataFile, same]
  rfl

theorem stageMutationDataFile_dataFiles (kv : CatalogKv) (order : CatalogOrderId) (batch : KvBatch)
    (row : DataFileRow) :
    (stageMutationDataFile kv order batch row).dataFiles = (putAppendedDataFile batch row).dataFiles := by
  unfold stageMutationDataFile
  split
  · obtain ⟨_, _, _, _, same⟩ := stageAppendDataFileWithoutChange_eq kv batch row
    rw [same]
    rfl
  · exact stageAppendDataFile_dataFiles kv batch row

theorem stageMergeReplacementDataFile_dataFiles (kv : CatalogKv) (order : CatalogOrderId) (batch : KvBatch)
    (row : DataFileRow) :
    (stageMergeReplacementDataFile kv batch row order).dataFiles = (putAppendedDataFile batch row).dataFiles := by
  obtain ⟨_, _, _, _, same⟩ := stageAppendDataFileWithoutChange_eq kv batch row
  simp only [stageMergeReplacementDataFile, same]
  rfl

/-! ## Data files of each commit -/

section

variable {kv : CatalogKv} {order : CatalogOrderId} {batch : KvBatch} {now : Int}

theorem stageAppendDataFiles_files {rows : List DataFileRow} {inlineFlushes : List InlineTableFlush}
    (staged : stageAppendDataFiles kv now rows inlineFlushes order = .ok (result, batch)) :
    result.map DataFileRow.dataFileId = rows.map DataFileRow.dataFileId ∧ ((rows.map DataFileRow.dataFileId).Nodup →
        (∀ dataFileId ∈ rows.map DataFileRow.dataFileId, kv.dataFile.get? dataFileId = none) →
        StagesNewFiles kv result order batch) := by
  obtain ⟨_, flushes, rfl⟩ := stageAppendDataFiles_ok staged
  have ids : (rows.map fun row => { row with validity := ⟨order, none⟩ }).map DataFileRow.dataFileId =
      rows.map DataFileRow.dataFileId := by
    simp [Function.comp_def]
  refine ⟨ids, ?_⟩
  intro distinct unknown
  refine StagesNewFiles.congr ?_ (foldlM_stageFlushInlineTablePayloads_changes flushes).dataFiles
  have opening : StagesDataFiles kv [] order
      (stageSnapshot {} (snapshotRowForNextSequence (latestSnapshot kv) order now)) := .start rfl
  refine .append opening (stageAppendDataFile_dataFiles kv) ?_ (ids ▸ distinct) (ids ▸ unknown)
  intro row member
  obtain ⟨_, _, rfl⟩ := List.mem_map.mp member
  rfl

theorem stageMergeAdjacent_files {result : DataFileCompaction}
    (staged : stageMergeAdjacent kv now compaction order = .ok (result, batch)) :
    result.newFiles.map DataFileRow.dataFileId = compaction.newFiles.map DataFileRow.dataFileId ∧
      ((∀ {dataFileId row}, kv.dataFile.get? dataFileId = some row → row.dataFileId = dataFileId) →
        (compaction.newFiles.map DataFileRow.dataFileId).Nodup →
        (∀ dataFileId ∈ compaction.newFiles.map DataFileRow.dataFileId, kv.dataFile.get? dataFileId = none) →
        StagesNewFiles kv result.newFiles order batch) := by
  obtain ⟨sources, expired, expires, newFiles, derives, valued, values, rfl, rfl⟩ := stageMergeAdjacent_ok staged
  have ids : ((applyMergeReplacementVisibility newFiles sources order).map fun newFile =>
      newFile.withEndOrder none).map DataFileRow.dataFileId = compaction.newFiles.map DataFileRow.dataFileId := by
    rw [← ids_of_places (deriveMergeReplacementRowIds_places derives),
      ← ids_of_places (applyMergeReplacementVisibility_places newFiles sources order)]
    simp [Function.comp_def, DataFileRow.withEndOrder]
  refine ⟨ids, ?_⟩
  intro named distinct unknown
  have opening : StagesDataFiles kv [] order
      (stageSnapshot {} (snapshotRowForNextSequence (latestSnapshot kv) order now)) := .start rfl
  have closed : StagesDataFiles kv [] order expired :=
    expireMergeSources_invariant (StagesDataFiles kv [] order) expires opening fun soFar expiresSource =>
      soFar.expireSource named (by simp) expiresSource
  refine StagesNewFiles.congr ?_ (stageCompactionStats_changes valued _ order).dataFiles
  refine StagesNewFiles.congr ?_ (stageNewFilePartitionValues_changes values).dataFiles
  refine .append closed (fun batch row => stageMergeReplacementDataFile_dataFiles kv order batch row) ?_
    (ids ▸ distinct) (ids ▸ unknown)
  intro row member
  obtain ⟨_, _, rfl⟩ := List.mem_map.mp member
  rfl

theorem stageRewriteDelete_files {result : DataFileCompaction}
    (staged : stageRewriteDelete kv now compaction tableId order = .ok (result, batch)) :
    result.newFiles.map DataFileRow.dataFileId = compaction.newFiles.map DataFileRow.dataFileId ∧
      ((∀ {dataFileId row}, kv.dataFile.get? dataFileId = some row → row.dataFileId = dataFileId) →
        (compaction.newFiles.map DataFileRow.dataFileId).Nodup →
        (∀ dataFileId ∈ compaction.newFiles.map DataFileRow.dataFileId, kv.dataFile.get? dataFileId = none) →
        StagesNewFiles kv result.newFiles order batch) := by
  obtain ⟨expired, expires, valued, values, rfl, rfl⟩ := stageRewriteDelete_ok staged
  have ids : (compaction.newFiles.map fun newFile => { newFile with validity := ⟨order, none⟩ }).map
      DataFileRow.dataFileId = compaction.newFiles.map DataFileRow.dataFileId := by
    simp [Function.comp_def]
  refine ⟨ids, ?_⟩
  intro named distinct unknown
  have closed : StagesDataFiles kv [] order expired :=
    expireRewriteSources_invariant (StagesDataFiles kv [] order) expires (.start rfl)
      (fun soFar expiresSource => soFar.expireSource named (by simp) expiresSource) fun soFar => soFar.congr rfl
  refine StagesNewFiles.congr ?_ (stageNewFilePartitionValues_changes values).dataFiles
  refine StagesNewFiles.congr ?_ (stageCompactionStats_changes _ _ order).dataFiles
  refine .append closed (stageAppendDataFile_dataFiles kv) ?_ (ids ▸ distinct) (ids ▸ unknown)
  intro row member
  obtain ⟨_, _, rfl⟩ := List.mem_map.mp member
  rfl

theorem expireRewriteSource_dataFile {inlineDeletions : List (DataFileId × List Nat)} {sourceFileId : DataFileId}
    (named : ∀ {dataFileId row}, kv.dataFile.get? dataFileId = some row → row.dataFileId = dataFileId)
    (taken : expireRewriteSource kv now inlineDeletions order batch sourceFileId = .ok next) :
    ∃ row, kv.dataFile.get? sourceFileId = some row ∧
      (kv.commit next).dataFile = (kv.commit batch).dataFile.insert sourceFileId (row.withEndOrder (some order)) := by
  obtain ⟨source, sourceBatch, expires, rest⟩ := expireRewriteSource_ok taken
  obtain ⟨_, _, expired, ends, rfl⟩ := expireCompactedSourceFile_ok expires
  obtain ⟨row, stored, _, _, same, _, _, rfl⟩ := stageExpireCurrentDataFile_ok ends
  obtain rfl := named stored
  refine ⟨row, stored, ?_⟩
  have inserted : (kv.commit next).dataFile =
      (kv.commit (putExpiredDataFile batch (row.withEndOrder (some order)) order)).dataFile := by
    rw [← same]
    rcases rest with ⟨_, rfl⟩ | ⟨deleteFileId, _, closes⟩
    · rfl
    · obtain ⟨_, closesCurrent, rfl⟩ := expireCompactedDeleteFile_ok closes
      obtain ⟨_, _, _, _, _, rfl⟩ := stageExpireCurrentDeleteFile_ok closesCurrent
      rfl
  rw [inserted]
  exact OrderedMap.commit_put _ _ _ _

/-- Every source of a rewrite ends with it. -/
theorem stageRewriteDelete_closed {result : DataFileCompaction}
    (staged : stageRewriteDelete kv now compaction tableId order = .ok (result, batch))
    (named : ∀ {dataFileId row}, kv.dataFile.get? dataFileId = some row → row.dataFileId = dataFileId)
    (unknown : ∀ dataFileId ∈ compaction.newFiles.map DataFileRow.dataFileId, kv.dataFile.get? dataFileId = none) :
    ∀ sourceFileId ∈ compaction.sourceFileIds, ∃ row, kv.dataFile.get? sourceFileId = some row ∧
      (kv.commit batch).dataFile.get? sourceFileId = some (row.withEndOrder (some order)) := by
  obtain ⟨expired, expires, valued, values, rfl, rfl⟩ := stageRewriteDelete_ok staged
  have closed := foldlM_establishes (fun state sourceFileId => ∃ row, kv.dataFile.get? sourceFileId = some row ∧
      (kv.commit state).dataFile.get? sourceFileId = some (row.withEndOrder (some order))) expires
    (by
      intro state sourceFileId next taken
      obtain ⟨row, stored, inserted⟩ := expireRewriteSource_dataFile named taken
      exact ⟨row, stored, by simp [inserted]⟩)
    (by
      intro state sourceFileId next earlier taken ⟨row, stored, found⟩
      obtain ⟨other, alsoStored, inserted⟩ := expireRewriteSource_dataFile named taken
      refine ⟨row, stored, ?_⟩
      rw [inserted, OrderedMap.get?_insert]
      split
      · rename_i same
        obtain rfl := Option.some.inj (alsoStored.symm.trans (same ▸ stored))
        rfl
      · exact found)
  intro sourceFileId member
  obtain ⟨row, stored, found⟩ := closed sourceFileId member
  have old : sourceFileId ∉ compaction.newFiles.map DataFileRow.dataFileId := by
    intro new
    simp [unknown _ new] at stored
  have sameFiles := (stageNewFilePartitionValues_changes values).dataFiles.trans
    (stageCompactionStats_changes _ _ order).dataFiles
  have unchanged : (kv.commit valued).dataFile = _ :=
    (congrArg DataFileIndexes.dataFile (kv.commit_dataFileIndexes_congr sameFiles)).trans
      (StagesDataFiles.commit_foldl_append (stageAppendDataFile_dataFiles kv) _ expired)
  refine ⟨row, stored, ?_⟩
  rw [unchanged, OrderedMap.get?_insertAll_of_not_mem _ _ (by simpa using old)]
  exact found

theorem loadCurrentDroppedDataFiles_ok {rows : List DataFileRow}
    (success : loadCurrentDroppedDataFiles kv dataFileIds = .ok rows) :
    ∀ row ∈ rows, row.dataFileId ∈ dataFileIds ∧ kv.dataFile.get? row.dataFileId = some row ∧
      row.validity.endOrder = none := by
  unfold loadCurrentDroppedDataFiles at success
  simp only [bind_eq_ok, pure_eq_ok] at success
  obtain ⟨loaded, loads, _, _, rfl⟩ := success
  intro row member
  obtain ⟨dataFileId, listed, loads⟩ := mapM_source loads member
  unfold loadCurrentDroppedDataFile loadDataFile at loads
  rw [bind_eq_ok] at loads
  obtain ⟨found, stored, loads⟩ := loads
  split at loads
  · simp at loads
  · rename_i named
    split at loads
    · simp at loads
    · rename_i opened
      obtain rfl := by simpa using loads
      obtain rfl : found.dataFileId = dataFileId := by simpa using named
      refine ⟨listed, ?_, by simpa using opened⟩
      cases primary : kv.dataFile.get? found.dataFileId with
      | none => simp [primary] at stored
      | some row => simpa [primary] using stored

theorem mutationDataFile_eq (order : CatalogOrderId) (row : DataFileRow) :
    (mutationDataFile order row).dataFileId = row.dataFileId ∧ (mutationDataFile order row).tableId = row.tableId ∧
      (mutationDataFile order row).validity.endOrder = none := by
  unfold mutationDataFile
  split
  · exact ⟨rfl, rfl, rfl⟩
  · exact ⟨rfl, rfl, rfl⟩

theorem foldl_stageDropDataFile_files {rows dropped : List DataFileRow} (files : StagesNewFiles kv rows order batch)
    (unknown : ∀ dataFileId ∈ rows.map DataFileRow.dataFileId, kv.dataFile.get? dataFileId = none)
    (opened : ∀ row ∈ dropped, kv.dataFile.get? row.dataFileId = some row ∧ row.validity.endOrder = none) :
    StagesNewFiles kv rows order (dropped.foldl (stageDropDataFile kv now order) batch) := by
  induction dropped generalizing batch with
  | nil => exact files
  | cons row rest ih =>
    obtain ⟨stored, isOpen⟩ := opened row List.mem_cons_self
    refine ih ?_ fun later member => opened later (List.mem_cons_of_mem _ member)
    obtain ⟨_, _, same⟩ := stageExpireDataFile_eq kv batch (row.withEndOrder (some order)) order
    refine files.expire unknown stored isOpen ?_
    simp only [stageDropDataFile, same]
    rfl

theorem stageDataMutation_files {input : DataMutationInput} {result : DataMutationCommit}
    (staged : stageDataMutation kv now input order = .ok (result, batch)) :
    result.dataFiles = input.dataFiles.map (mutationDataFile order) ∧
      ((input.dataFiles.map DataFileRow.dataFileId).Nodup →
        (∀ dataFileId ∈ input.dataFiles.map DataFileRow.dataFileId, kv.dataFile.get? dataFileId = none) →
        StagesNewFiles kv result.dataFiles order batch) := by
  obtain ⟨valued, values, registered, withDeletes, registers, closed, closes, flushed, flushes, dropped, drops, rfl,
    rfl⟩ := stageDataMutation_ok staged
  have ids : (input.dataFiles.map (mutationDataFile order)).map DataFileRow.dataFileId =
      input.dataFiles.map DataFileRow.dataFileId := by
    rw [List.map_map]
    exact List.map_congr_left fun row _ => (mutationDataFile_eq order row).1
  refine ⟨rfl, ?_⟩
  intro distinct unknown
  have opening : StagesDataFiles kv [] order
      (stageSnapshot {} (snapshotRowForNextSequence (latestSnapshot kv) order now)) := .start rfl
  have opened : ∀ row ∈ input.dataFiles.map (mutationDataFile order), row.validity.endOrder = none := by
    intro row member
    obtain ⟨given, _, rfl⟩ := List.mem_map.mp member
    exact (mutationDataFile_eq order given).2.2
  have appended := StagesNewFiles.append opening (stageMutationDataFile_dataFiles kv order) opened
    (ids ▸ distinct) (ids ▸ unknown)
  have written := ((appended.congr (stageNewFilePartitionValues_changes values).dataFiles).congr
    (stageCompactionStats_changes valued input.fileColumnStats order).dataFiles).congr
    (stageMutationDeleteFiles_changes registers).dataFiles
  have ended := (written.congr (stageCloseMaterializedInlineFileDeletions_changes closes).inlineEnds.dataFiles).congr
    (foldlM_stageFlushInlineTablePayloads_changes flushes).dataFiles
  have deleted := ended.congr (stageNewInlineFileDeletions_changes flushed input.inlineFileDeletions order).dataFiles
  refine foldl_stageDropDataFile_files ?_ (ids ▸ unknown) fun row member => (loadCurrentDroppedDataFiles_ok drops row member).2
  split
  · exact deleted
  · exact deleted.congr rfl

end

/-- Every commit only adds its new files and closes files of the store. -/
theorem CatalogOperation.Commits.dataFiles {kv : CatalogKv} {batch : KvBatch} (commits : operation.Commits kv batch)
    (named : ∀ {dataFileId row}, kv.dataFile.get? dataFileId = some row → row.dataFileId = dataFileId)
    (distinct : operation.newDataFileIds.Nodup)
    (unknown : ∀ dataFileId ∈ operation.newDataFileIds, kv.dataFile.get? dataFileId = none) :
    StagesDataFiles kv operation.newDataFileIds kv.generatedOrderId batch := by
  cases commits with
  | createTable _ staged =>
    obtain ⟨_, rfl⟩ := stageCreateTableRow_ok staged
    exact .start rfl
  | appendDataFiles staged =>
    obtain ⟨ids, files⟩ := stageAppendDataFiles_files staged
    have added := (files distinct unknown).staged
    rw [ids] at added
    exact added
  | @dataMutation input _ _ _ _ staged =>
    obtain ⟨same, files⟩ := stageDataMutation_files staged
    have ids : (input.dataFiles.map (mutationDataFile kv.generatedOrderId)).map DataFileRow.dataFileId =
        input.dataFiles.map DataFileRow.dataFileId := by
      rw [List.map_map]
      exact List.map_congr_left fun row _ => (mutationDataFile_eq _ row).1
    have added := (files distinct unknown).staged
    rw [same, ids] at added
    exact added
  | mergeAdjacent _ staged =>
    obtain ⟨ids, files⟩ := stageMergeAdjacent_files staged
    have added := (files named distinct unknown).staged
    rw [ids] at added
    exact added
  | rewriteDelete valid staged =>
    obtain ⟨_, _, normalizes⟩ := validateRewriteDelete_ok valid
    have ids := ids_of_places (normalizeRewriteReplacementRowIds_places normalizes)
    obtain ⟨sameIds, files⟩ := stageRewriteDelete_files staged
    have added := (files named (ids ▸ distinct) (ids ▸ unknown)).staged
    rw [sameIds, ids] at added
    exact added
  | registerDeleteFiles staged => exact .start (stageRegisterDeleteFiles_changes staged).dataFiles
  | inlineFileDeletions staged => exact .start (stageInlineFileDeletions_changes staged).dataFiles
  | registerInlinePayload _ staged => exact .start (stageInlineTablePayload_changes staged).dataFiles
  | registerInlinePayloadWithTable _ staged => exact .start (stageInlineTablePayloadWithTable_changes staged).dataFiles

/-! ## Removal -/

/-- Every row offered for cleanup is a stored primary row that has ended. -/
theorem listOldDataFilesForCleanup_stored {kv : CatalogKv} {rows : List DataFileRow}
    (named : ∀ {dataFileId row}, kv.dataFile.get? dataFileId = some row → row.dataFileId = dataFileId)
    (listed : listOldDataFilesForCleanup kv = .ok rows) :
    ∀ row ∈ rows, kv.dataFile.get? row.dataFileId = some row ∧ row.validity.endOrder.isSome := by
  unfold listOldDataFilesForCleanup at listed
  simp only [bind_eq_ok, pure_eq_ok] at listed
  obtain ⟨snapshots, _, rfl⟩ := listed
  intro row member
  rcases List.mem_append.mp member with scheduled | ended
  · obtain ⟨schedule, listed, rfl⟩ := List.mem_map.mp scheduled
    obtain ⟨joined, safe⟩ := List.mem_filter.mp listed
    obtain ⟨entry, _, found⟩ := List.mem_filterMap.mp joined
    obtain ⟨dataFile, stored, rfl⟩ := Option.map_eq_some_iff.mp found
    have same := named stored
    simp only [scheduledDataFileIsSafeForPhysicalCleanup, Bool.and_eq_true] at safe
    exact ⟨same ▸ stored, safe.1⟩
  · obtain ⟨key, _, found⟩ := List.mem_filterMap.mp ended
    obtain ⟨stored, unreachable⟩ := Option.filter_eq_some_iff.mp found
    have same := named stored
    simp only [rowIsUnreachable, Bool.and_eq_true] at unreachable
    exact ⟨same ▸ stored, unreachable.1⟩

/-- A removal batch deletes and never writes. -/
structure RemovesDataFiles (kv : CatalogKv) (batch : KvBatch) : Prop where
  steps : DataFileIndexes.Steps [] kv.nextOrder kv.dataFileIndexes (kv.commit batch).dataFileIndexes
  unwritten : batch.dataFile.writes = [] ∧ batch.currentDataFile.writes = [] ∧ batch.dataFileBegin.writes = [] ∧
    batch.dataFileEnd.writes = []
  kept : ∀ {dataFileId row}, (kv.commit batch).dataFile.get? dataFileId = some row →
    kv.dataFile.get? dataFileId = some row

theorem RemovesDataFiles.congr {kv : CatalogKv} (removes : RemovesDataFiles kv before)
    (same : after.dataFiles = before.dataFiles) : RemovesDataFiles kv after := by
  have indexes := kv.commit_dataFileIndexes_congr same
  have unchanged : (kv.commit after).dataFile = (kv.commit before).dataFile :=
    congrArg DataFileIndexes.dataFile indexes
  simp only [KvBatch.dataFiles, Prod.mk.injEq] at same
  obtain ⟨primary, current, begins, ends⟩ := same
  refine ⟨indexes ▸ removes.steps, ?_, ?_⟩
  · rw [primary, current, begins, ends]
    exact removes.unwritten
  · intro dataFileId row found
    exact removes.kept (unchanged ▸ found)

/-- The deletions staged for one removed file. -/
def deleteDataFileMetadata (batch : KvBatch) (row : DataFileRow) : KvBatch :=
  { batch with
    dataFile := batch.dataFile.delete row.dataFileId
    dataFileBegin := batch.dataFileBegin.delete ⟨row.tableId, row.validity.beginOrder, row.dataFileId⟩
    dataFileEnd := row.validity.endOrder.elim batch.dataFileEnd fun endOrder =>
      batch.dataFileEnd.delete ⟨row.tableId, endOrder, row.dataFileId⟩
    currentDataFile := batch.currentDataFile.delete ⟨row.tableId, row.dataFileId⟩ }

theorem stageRemoveDataFileMetadata_dataFiles (kv : CatalogKv) (batch : KvBatch) (row : DataFileRow) :
    (stageRemoveDataFileMetadata kv batch row).dataFiles = (deleteDataFileMetadata batch row).dataFiles :=
  (deletePartitionValuesForDataFile_changes kv _ row.dataFileId).dataFiles.trans
    (stageRemoveFileColumnStats_changes kv (deleteDataFileMetadata batch row) row.dataFileId).dataFiles

theorem RemovesDataFiles.remove {kv : CatalogKv} {batch : KvBatch} (removes : RemovesDataFiles kv batch)
    (stored : kv.dataFile.get? row.dataFileId = some row) :
    RemovesDataFiles kv (deleteDataFileMetadata batch row) := by
  obtain ⟨primary, current, begins, ends⟩ := removes.unwritten
  have removed : (kv.commit (deleteDataFileMetadata batch row)).dataFileIndexes =
      (kv.commit batch).dataFileIndexes.remove row := by
    cases closed : row.validity.endOrder with
    | none =>
      simp only [CatalogKv.dataFileIndexes, CatalogKv.commit, deleteDataFileMetadata, DataFileIndexes.remove, closed,
        Option.elim, OrderedMap.commit_delete _ _ _ (Staged.silent primary _),
        OrderedMap.commit_delete _ _ _ (Staged.silent current _),
        OrderedMap.commit_delete _ _ _ (Staged.silent begins _)]
    | some endOrder =>
      simp only [CatalogKv.dataFileIndexes, CatalogKv.commit, deleteDataFileMetadata, DataFileIndexes.remove, closed,
        Option.elim, OrderedMap.commit_delete _ _ _ (Staged.silent primary _),
        OrderedMap.commit_delete _ _ _ (Staged.silent current _),
        OrderedMap.commit_delete _ _ _ (Staged.silent begins _), OrderedMap.commit_delete _ _ _ (Staged.silent ends _)]
  refine ⟨?_, ⟨primary, current, begins, ?_⟩, ?_⟩
  · rw [removed]
    refine .tail removes.steps (.remove ?_)
    intro other found
    exact Option.some.inj ((removes.kept found).symm.trans stored)
  · cases closed : row.validity.endOrder with
    | none => simpa [deleteDataFileMetadata, closed] using ends
    | some endOrder => simpa [deleteDataFileMetadata, closed, Staged.delete] using ends
  · intro dataFileId other found
    have erased : (kv.commit (deleteDataFileMetadata batch row)).dataFile =
      (kv.commit batch).dataFile.erase row.dataFileId := congrArg DataFileIndexes.dataFile removed
    rw [erased, OrderedMap.get?_erase] at found
    split at found
    · simp at found
    · exact removes.kept found

theorem stageRemoveOldDataFile_removes {kv : CatalogKv} {batch : KvBatch} {snapshots : List SnapshotRow}
    (removes : RemovesDataFiles kv batch) (stored : kv.dataFile.get? row.dataFileId = some row) :
    RemovesDataFiles kv (stageRemoveOldDataFile kv snapshots batch row) := by
  unfold stageRemoveOldDataFile
  extract_lets unscheduled
  have opening : RemovesDataFiles kv unscheduled := by
    refine removes.congr ?_
    simp only [unscheduled]
    split
    · rfl
    · rfl
  split
  · exact (opening.remove stored).congr (stageRemoveDataFileMetadata_dataFiles kv unscheduled row)
  · exact opening

theorem stageRemoveOldDataFiles_removes {kv : CatalogKv} {batch : KvBatch} {removed : List DataFileRow}
    (named : ∀ {dataFileId row}, kv.dataFile.get? dataFileId = some row → row.dataFileId = dataFileId)
    (staged : stageRemoveOldDataFiles kv dataFileIds = .ok (removed, batch)) : RemovesDataFiles kv batch := by
  obtain ⟨rows, listed, snapshots, _, rfl, rfl⟩ := stageRemoveOldDataFiles_ok staged
  refine RemovesDataFiles.congr ?_ (stageRemoveUnreachableTables_changes kv _ _ snapshots).dataFiles
  have stored := listOldDataFilesForCleanup_stored named listed
  have removing : ∀ (removed : List DataFileRow) (start : KvBatch), (∀ row ∈ removed, row ∈ rows) →
      RemovesDataFiles kv start →
      RemovesDataFiles kv (removed.foldl (stageRemoveOldDataFile kv snapshots) start) := by
    intro removed
    induction removed with
    | nil => exact fun _ _ removes => removes
    | cons row rest ih =>
      intro start within removes
      exact ih _ (fun later member => within later (List.mem_cons_of_mem _ member))
        (stageRemoveOldDataFile_removes removes (stored row (within row List.mem_cons_self)).1)
  refine removing _ {} (fun row member => (List.mem_filter.mp member).1) ?_
  exact ⟨.refl, ⟨rfl, rfl, rfl, rfl⟩, fun found => found⟩

/-- Maintenance only removes data files. -/
theorem CatalogOperation.Maintains.dataFiles {kv : CatalogKv} {batch : KvBatch}
    (maintains : operation.Maintains kv batch)
    (named : ∀ {dataFileId row}, kv.dataFile.get? dataFileId = some row → row.dataFileId = dataFileId) :
    RemovesDataFiles kv batch := by
  have nothing : RemovesDataFiles kv {} := ⟨.refl, ⟨rfl, rfl, rfl, rfl⟩, fun found => found⟩
  cases maintains with
  | expireSnapshots staged =>
    obtain ⟨_, rfl⟩ := stageExpiredSnapshots_changes staged
    exact nothing.congr rfl
  | removeOldDataFiles staged => exact stageRemoveOldDataFiles_removes named staged
  | removeOldDeleteFiles staged =>
    obtain ⟨_, ⟨_, _, _, _, _, _, rfl⟩, _, _, _, rfl⟩ := stageRemoveOldDeleteFiles_changes staged
    exact nothing.congr rfl

end DucklakeCatalog
