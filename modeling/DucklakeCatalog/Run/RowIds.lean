import DucklakeCatalog.KeyedStore.Watermark
import DucklakeCatalog.Run.InlineMaps
import Mathlib.Data.List.Dedup

namespace DucklakeCatalog

open KeyedStore

/-! ## The next row id of a table -/

/-- The row ids of the file: none unless it records where they start. -/
def DataFileRow.ownsRowId (row : DataFileRow) (rowId : Nat) : Prop :=
  row.rowIdStart ≤ rowId ∧ rowId < row.rowIdStart + row.recordCount

/-- A file whose row ids are known and do not run past the last row id. -/
def DataFileRow.hasRowIds (row : DataFileRow) : Prop :=
  row.rowIdStartKnown ∧ 0 < row.recordCount ∧ row.rowIdStart + row.recordCount ≤ u64Max

/-- The batch only raises next row ids, at least past the rows of the files. -/
structure KvBatch.AllocatesRowIds (kv : CatalogKv) (rows : List DataFileRow) (batch : KvBatch) : Prop where
  raises : Staged.Raises kv.tableNextRowId batch.tableNextRowId
  covers : ∀ row ∈ rows, rowIdOverlapCheckNeeded row → row.rowIdEnd ≤ loadTableNextRowId (kv.commit batch) row.tableId

variable {row left right : DataFileRow} {appended : List DataFileRow}

section

variable {kv : CatalogKv} {batch next : KvBatch} {rows : List DataFileRow} {now : Int} {order : CatalogOrderId}

theorem KvBatch.AllocatesRowIds.congr (allocates : batch.AllocatesRowIds kv rows)
    (same : next.tableNextRowId = batch.tableNextRowId) : next.AllocatesRowIds kv rows := by
  refine ⟨same ▸ allocates.raises, ?_⟩
  intro row member needed
  have sameNext : loadTableNextRowId (kv.commit next) row.tableId = loadTableNextRowId (kv.commit batch) row.tableId := by
    simp only [loadTableNextRowId, CatalogKv.commit, same]
  rw [sameNext]
  exact allocates.covers row member needed

variable {before after : KvBatch} {compaction result : DataFileCompaction} {operation : CatalogOperation}

theorem KvBatch.ChangesPartitions.tableNextRowId (changes : before.ChangesPartitions after) :
    after.tableNextRowId = before.tableNextRowId := by
  obtain ⟨_, _, rfl⟩ := changes
  rfl

theorem KvBatch.ChangesStats.tableNextRowId (changes : before.ChangesStats after) :
    after.tableNextRowId = before.tableNextRowId := by
  obtain ⟨_, _, _, _, rfl⟩ := changes
  rfl

theorem stageAppendDataFileWithoutChange_tableNextRowId (kv : CatalogKv) (batch : KvBatch) (row : DataFileRow) :
    (stageAppendDataFileWithoutChange kv batch row).tableNextRowId =
      (dataFileNextRowId row).elim batch.tableNextRowId fun nextRowId =>
        stageMaxU64 kv.tableNextRowId batch.tableNextRowId row.tableId nextRowId := by
  unfold stageAppendDataFileWithoutChange
  extract_lets filed raised
  obtain ⟨_, _, same⟩ := deletePartitionValuesForDataFile_changes kv raised row.dataFileId
  rw [same]
  simp only [raised, filed]
  cases dataFileNextRowId row with
  | none => rfl
  | some nextRowId => rfl

/-- Appending a file raises the next row id of its table past its rows. -/
theorem KvBatch.AllocatesRowIds.append (allocates : batch.AllocatesRowIds kv rows)
    (staged : next.tableNextRowId = (stageAppendDataFileWithoutChange kv batch row).tableNextRowId) :
    next.AllocatesRowIds kv (rows ++ [row]) := by
  rw [stageAppendDataFileWithoutChange_tableNextRowId] at staged
  cases needed : dataFileNextRowId row with
  | none =>
    have unchanged : next.AllocatesRowIds kv rows := allocates.congr (by simpa [needed] using staged)
    refine ⟨unchanged.raises, ?_⟩
    intro other member wanted
    rcases List.mem_append.mp member with old | new
    · exact unchanged.covers other old wanted
    · obtain rfl := List.mem_singleton.mp new
      simp [dataFileNextRowId, wanted] at needed
  | some nextRowId =>
    rw [needed, Option.elim_some, stageMaxU64] at staged
    generalize raised : ((kv.tableNextRowId.get? row.tableId).elim nextRowId fun current => max current nextRowId) =
      candidate at staged
    have above : (kv.tableNextRowId.get? row.tableId).getD 0 ≤ candidate ∧ nextRowId ≤ candidate := by
      rw [← raised]
      cases kv.tableNextRowId.get? row.tableId with
      | none => exact ⟨Nat.zero_le _, le_rfl⟩
      | some current => exact ⟨le_max_left _ _, le_max_right _ _⟩
    have loads (tableId : TableId) : loadTableNextRowId (kv.commit next) tableId =
        ((kv.tableNextRowId.commit (batch.tableNextRowId.putMax row.tableId candidate)).get? tableId).getD 0 := by
      simp only [loadTableNextRowId, CatalogKv.commit, staged]
    refine ⟨staged ▸ allocates.raises.putMax above.1, ?_⟩
    intro other member wanted
    rw [loads]
    rcases List.mem_append.mp member with old | new
    · exact (allocates.covers other old wanted).trans (allocates.raises.commit_le_putMax above.1 _)
    · obtain rfl := List.mem_singleton.mp new
      have isEnd : nextRowId = other.rowIdEnd := by
        simpa [dataFileNextRowId, wanted, eq_comm] using needed
      rw [← isEnd]
      exact above.2.trans (allocates.raises.le_putMax above.1)

theorem KvBatch.AllocatesRowIds.appendAll (step : KvBatch → DataFileRow → KvBatch)
    (appends : ∀ state row, (step state row).tableNextRowId = (stageAppendDataFileWithoutChange kv state row).tableNextRowId)
    (allocates : batch.AllocatesRowIds kv rows) (files : List DataFileRow) :
    (files.foldl step batch).AllocatesRowIds kv (rows ++ files) := by
  induction files generalizing batch rows with
  | nil => simpa using allocates
  | cons file rest ih =>
    have next := allocates.append (appends batch file)
    simpa using ih next

theorem KvBatch.AllocatesRowIds.none (kv : CatalogKv) (batch : KvBatch) (unstaged : batch.tableNextRowId = {}) :
    batch.AllocatesRowIds kv [] :=
  ⟨unstaged ▸ .empty _, by simp⟩

theorem KvBatch.AllocatesRowIds.le_commit (allocates : batch.AllocatesRowIds kv rows) (tableId : TableId) :
    loadTableNextRowId kv tableId ≤ loadTableNextRowId (kv.commit batch) tableId :=
  allocates.raises.le_commit tableId

theorem KvBatch.AllocatesRowIds.subset {fewer : List DataFileRow} (allocates : batch.AllocatesRowIds kv rows)
    (listed : ∀ row ∈ fewer, row ∈ rows) : batch.AllocatesRowIds kv fewer :=
  ⟨allocates.raises, fun row member => allocates.covers row (listed row member)⟩

/-! ## What an accepted append was checked against -/

theorem rejectRowIdOverlap_ok (passes : rejectRowIdOverlap left right = .ok ())
    (sameTable : left.tableId = right.tableId) (leftNeeded : rowIdOverlapCheckNeeded left)
    (rightNeeded : rowIdOverlapCheckNeeded right) :
    left.rowIdEnd ≤ right.rowIdStart ∨ right.rowIdEnd ≤ left.rowIdStart := by
  simp only [rowIdOverlapCheckNeeded, Bool.and_eq_true, decide_eq_true_eq] at leftNeeded rightNeeded
  unfold rejectRowIdOverlap at passes
  have counted : ¬(left.tableId ≠ right.tableId ∨ ¬left.rowIdStartKnown ∨ ¬right.rowIdStartKnown ∨
      left.recordCount = 0 ∨ right.recordCount = 0) := by
    simp [sameTable, leftNeeded.1, rightNeeded.1, Nat.pos_iff_ne_zero.mp leftNeeded.2, Nat.pos_iff_ne_zero.mp rightNeeded.2]
  rw [if_neg counted] at passes
  by_contra apart
  push Not at apart
  simp [apart.1, apart.2] at passes

theorem rejectProposedDataFileRowIdOverlaps_ok (passes : rejectProposedDataFileRowIdOverlaps rows = .ok ()) :
    rows.Pairwise fun left right => rejectRowIdOverlap left right = .ok () := by
  induction rows with
  | nil => exact List.Pairwise.nil
  | cons row rest ih =>
    rw [rejectProposedDataFileRowIdOverlaps, bind_eq_ok] at passes
    obtain ⟨_, headPasses, restPasses⟩ := passes
    exact List.Pairwise.cons (forM_eq_ok_iff.mp headPasses) (ih restPasses)

theorem rejectAllocatedTableRowIdReuse_ok (passes : rejectAllocatedTableRowIdReuse kv rows = .ok ())
    (member : row ∈ rows) (needed : rowIdOverlapCheckNeeded row) :
    loadTableNextRowId kv row.tableId ≤ row.rowIdStart := by
  have tablePasses := forM_eq_ok_iff.mp passes (row.tableId, rows.filter fun other => other.tableId = row.tableId) (by
    refine List.mem_map.mpr ⟨row.tableId, ?_, rfl⟩
    rw [List.mem_reverse, List.mem_dedup, List.mem_reverse]
    exact List.mem_map_of_mem member)
  have rowPasses := forM_eq_ok_iff.mp tablePasses row
    (List.mem_filter.mpr ⟨List.mem_filter.mpr ⟨member, by simp⟩, needed⟩)
  by_contra reused
  simp [not_le.mp reused] at rowPasses

/-- Appended files start past every row id allocated before and apart from each other. -/
structure AppendsApart (kv : CatalogKv) (rows : List DataFileRow) : Prop where
  fresh : ∀ row ∈ rows, rowIdOverlapCheckNeeded row → loadTableNextRowId kv row.tableId ≤ row.rowIdStart
  apart : rows.Pairwise fun left right => rejectRowIdOverlap left right = .ok ()

theorem AppendsApart.checked (passes : rejectCurrentDataFileRowIdOverlapsExcept kv rows [] = .ok ()) :
    AppendsApart kv rows := by
  unfold rejectCurrentDataFileRowIdOverlapsExcept at passes
  rw [bind_eq_ok] at passes
  obtain ⟨_, proposed, allocated⟩ := passes
  exact ⟨fun row member => rejectAllocatedTableRowIdReuse_ok (by simpa using allocated) member,
    rejectProposedDataFileRowIdOverlaps_ok proposed⟩

/-! ## One operation -/

theorem mutationDataFile_rowIds (order : CatalogOrderId) (row : DataFileRow) :
    (mutationDataFile order row).tableId = row.tableId ∧ (mutationDataFile order row).rowIdStart = row.rowIdStart ∧
      (mutationDataFile order row).recordCount = row.recordCount ∧
      (mutationDataFile order row).rowIdStartKnown = row.rowIdStartKnown := by
  unfold mutationDataFile
  split
  · exact ⟨rfl, rfl, rfl, rfl⟩
  · exact ⟨rfl, rfl, rfl, rfl⟩

theorem stageDropDataFile_tableNextRowId (kv : CatalogKv) (now : Int) (order : CatalogOrderId) (batch : KvBatch)
    (row : DataFileRow) : (stageDropDataFile kv now order batch row).tableNextRowId = batch.tableNextRowId := by
  obtain ⟨_, _, same⟩ := stageExpireDataFile_eq kv batch (row.withEndOrder (some order)) order
  simp only [stageDropDataFile, same]
  rfl

theorem expireCompactedSourceFile_tableNextRowId {dataFileId : DataFileId} {policy : DeleteFilePolicy}
    {source : ExpiredSourceFile}
    (success : expireCompactedSourceFile kv now batch dataFileId order policy = .ok (source, next)) :
    next.tableNextRowId = batch.tableNextRowId := by
  obtain ⟨_, _, expired, expires, rfl⟩ := expireCompactedSourceFile_ok success
  obtain ⟨_, _, _, _, _, _, _, rfl⟩ := stageExpireCurrentDataFile_ok expires
  rfl

theorem stageAppendDataFiles_rowIds {result : List DataFileRow} {flushes : List InlineTableFlush}
    (staged : stageAppendDataFiles kv now rows flushes order = .ok (result, batch)) :
    AppendsApart kv (rows.map fun row => { row with validity := ⟨order, none⟩ }) ∧
      batch.AllocatesRowIds kv (rows.map fun row => { row with validity := ⟨order, none⟩ }) := by
  obtain ⟨passes, flushes, rfl⟩ := stageAppendDataFiles_ok staged
  refine ⟨.checked passes, ?_⟩
  have appended := KvBatch.AllocatesRowIds.appendAll (stageAppendDataFile kv) (fun _ _ => rfl)
    (.none kv (stageSnapshot {} (snapshotRowForNextSequence (latestSnapshot kv) order now)) rfl)
    (rows.map fun row => { row with validity := ⟨order, none⟩ })
  rw [List.nil_append] at appended
  refine appended.congr ?_
  obtain ⟨_, _, _, _, same⟩ := foldlM_stageFlushInlineTablePayloads_changes flushes
  rw [same]

theorem stageDataMutation_rowIds {input : DataMutationInput} {result : DataMutationCommit}
    (staged : stageDataMutation kv now input order = .ok (result, batch)) :
    batch.AllocatesRowIds kv (input.dataFiles.map (mutationDataFile order)) := by
  obtain ⟨valued, values, deleteFiles, registered, registers, closed, closes, flushed, flushes, dropped, drops, rfl,
    rfl⟩ := stageDataMutation_ok staged
  have appends (state : KvBatch) (row : DataFileRow) : (stageMutationDataFile kv order state row).tableNextRowId =
      (stageAppendDataFileWithoutChange kv state row).tableNextRowId := by
    unfold stageMutationDataFile
    split
    · rfl
    · rfl
  have appended := KvBatch.AllocatesRowIds.appendAll (stageMutationDataFile kv order) appends
    (.none kv (stageSnapshot {} (snapshotRowForNextSequence (latestSnapshot kv) order now)) rfl)
    (input.dataFiles.map (mutationDataFile order))
  rw [List.nil_append] at appended
  refine appended.congr ?_
  rw [foldl_view KvBatch.tableNextRowId (stageDropDataFile_tableNextRowId kv now order)]
  obtain ⟨_, _, _, _, _, _, _, sameDeletes⟩ := stageMutationDeleteFiles_changes registers
  obtain ⟨_, sameClosed⟩ := stageCloseMaterializedInlineFileDeletions_changes closes
  obtain ⟨_, _, _, _, sameFlushed⟩ := foldlM_stageFlushInlineTablePayloads_changes flushes
  obtain ⟨_, sameAdded⟩ := stageNewInlineFileDeletions_changes flushed input.inlineFileDeletions order
  have unchanged : (stageNewInlineFileDeletions flushed input.inlineFileDeletions order).tableNextRowId =
      ((input.dataFiles.map (mutationDataFile order)).foldl (stageMutationDataFile kv order)
        (stageSnapshot {} (snapshotRowForNextSequence (latestSnapshot kv) order now))).tableNextRowId := by
    rw [sameAdded, sameFlushed, sameClosed, sameDeletes]
    exact (stageCompactionStats_changes valued input.fileColumnStats order).tableNextRowId.trans
      (stageNewFilePartitionValues_changes values).tableNextRowId
  split
  · exact unchanged
  · exact unchanged

theorem stageMergeAdjacent_rowIds
    (staged : stageMergeAdjacent kv now compaction order = .ok (result, batch)) : batch.AllocatesRowIds kv [] := by
  obtain ⟨sources, expired, expires, newFiles, derives, valued, values, rfl, rfl⟩ := stageMergeAdjacent_ok staged
  have untouched : expired.tableNextRowId = {} :=
    expireMergeSources_invariant (fun state => state.tableNextRowId = {}) expires rfl fun soFar expiresSource =>
      (expireCompactedSourceFile_tableNextRowId expiresSource).trans soFar
  have appended := KvBatch.AllocatesRowIds.appendAll
    (fun batch newFile => stageMergeReplacementDataFile kv batch newFile order) (fun _ _ => rfl)
    (.none kv expired untouched) ((applyMergeReplacementVisibility newFiles sources order).map fun newFile =>
      newFile.withEndOrder none)
  refine (appended.congr ?_).subset (by simp)
  rw [(stageCompactionStats_changes _ _ _).tableNextRowId, (stageNewFilePartitionValues_changes values).tableNextRowId]

theorem stageRewriteDelete_rowIds {tableId : TableId}
    (staged : stageRewriteDelete kv now compaction tableId order = .ok (result, batch)) :
    batch.AllocatesRowIds kv [] := by
  obtain ⟨expired, expires, valued, values, rfl, rfl⟩ := stageRewriteDelete_ok staged
  have untouched : expired.tableNextRowId = {} :=
    expireRewriteSources_invariant (fun state => state.tableNextRowId = {}) expires rfl
      (fun soFar expiresSource => (expireCompactedSourceFile_tableNextRowId expiresSource).trans soFar) id
  have appended := KvBatch.AllocatesRowIds.appendAll (stageAppendDataFile kv) (fun _ _ => rfl)
    (.none kv expired untouched) (compaction.newFiles.map fun newFile => { newFile with validity := ⟨order, none⟩ })
  refine (appended.congr ?_).subset (by simp)
  rw [(stageNewFilePartitionValues_changes values).tableNextRowId, (stageCompactionStats_changes _ _ _).tableNextRowId]

/-- The files an operation appends under the row id checks: a mutation with delete files or flushes is checked
against other files only. -/
def CatalogOperation.appendedFiles : CatalogOperation → List DataFileRow
  | appendDataFiles _ rows _ => rows
  | dataMutation _ input => if input.deleteFiles = [] ∧ input.inlineFlushes = [] then input.dataFiles else []
  | _ => []

theorem CatalogOperation.Commits.rowIds (commits : operation.Commits kv batch) :
    AppendsApart kv operation.appendedFiles ∧ batch.AllocatesRowIds kv operation.appendedFiles := by
  have apart : AppendsApart kv [] := ⟨by simp, List.Pairwise.nil⟩
  cases commits with
  | createTable _ staged =>
    obtain ⟨_, rfl⟩ := stageCreateTableRow_ok staged
    exact ⟨apart, .none kv _ rfl⟩
  | appendDataFiles staged =>
    obtain ⟨appended, allocates⟩ := stageAppendDataFiles_rowIds staged
    refine ⟨⟨?_, List.pairwise_map.mp appended.apart⟩, allocates.raises, ?_⟩
    · intro row member needed
      exact appended.fresh { row with validity := ⟨kv.generatedOrderId, none⟩ } (List.mem_map.mpr ⟨row, member, rfl⟩)
        needed
    · intro row member needed
      exact allocates.covers { row with validity := ⟨kv.generatedOrderId, none⟩ } (List.mem_map.mpr ⟨row, member, rfl⟩)
        needed
  | @dataMutation input now _ _ valid staged =>
    have allocates := stageDataMutation_rowIds staged
    simp only [CatalogOperation.appendedFiles]
    split_ifs with plain
    · refine ⟨?_, allocates.raises, ?_⟩
      · unfold validateDataMutation at valid
        simp only [bind_eq_ok, plain.1, plain.2, List.map_nil, if_true] at valid
        obtain ⟨_, _, _, _, passes⟩ := valid
        exact .checked passes
      · intro row member needed
        obtain ⟨table, first, count, known⟩ := mutationDataFile_rowIds kv.generatedOrderId row
        have covered := allocates.covers _ (List.mem_map_of_mem member) (by
          rw [rowIdOverlapCheckNeeded, count, known]
          exact needed)
        rw [DataFileRow.rowIdEnd, table, first, count] at covered
        exact covered
    · exact ⟨apart, allocates.subset (by simp)⟩
  | mergeAdjacent _ staged => exact ⟨apart, stageMergeAdjacent_rowIds staged⟩
  | rewriteDelete _ staged => exact ⟨apart, stageRewriteDelete_rowIds staged⟩
  | registerDeleteFiles staged =>
    obtain ⟨_, _, _, _, _, _, _, rfl⟩ := stageRegisterDeleteFiles_changes staged
    exact ⟨apart, .none kv _ rfl⟩
  | inlineFileDeletions staged =>
    obtain ⟨_, _, _, _, rfl⟩ := stageInlineFileDeletions_changes staged
    exact ⟨apart, .none kv _ rfl⟩
  | registerInlinePayload _ staged =>
    obtain ⟨_, _, _, _, _, _, _, _, _, rfl⟩ := stageInlineTablePayload_changes staged
    exact ⟨apart, .none kv _ rfl⟩
  | registerInlinePayloadWithTable _ staged =>
    obtain ⟨_, _, _, _, _, _, _, _, _, rfl⟩ := stageInlineTablePayloadWithTable_changes staged
    exact ⟨apart, .none kv _ rfl⟩

/-- Maintenance leaves the next row ids alone. -/
theorem CatalogOperation.Maintains.tableNextRowId
    (maintains : operation.Maintains kv batch) : batch.tableNextRowId = {} := by
  cases maintains with
  | expireSnapshots staged =>
    obtain ⟨_, rfl⟩ := stageExpiredSnapshots_changes staged
    rfl
  | removeOldDataFiles staged =>
    obtain ⟨_, ⟨_, _, _, _, _, _, _, _, _, _, _, rfl⟩, _, _, _, rfl⟩ := stageRemoveOldDataFiles_changes staged
    rfl
  | removeOldDeleteFiles staged =>
    obtain ⟨_, ⟨_, _, _, _, _, _, rfl⟩, _, _, _, rfl⟩ := stageRemoveOldDeleteFiles_changes staged
    rfl

end

/-! ## Runs -/

/-- The files share no row id, provided they belong to one table and their row ids are known. -/
def DataFileRow.RowIdsApart (left right : DataFileRow) : Prop :=
  left.tableId = right.tableId → left.hasRowIds → right.hasRowIds →
    ∀ rowId, ¬(left.ownsRowId rowId ∧ right.ownsRowId rowId)

/-- Every file appended along the run, whether it is still current or already removed. -/
def CatalogHistory.appendLog (history : CatalogHistory) : List CatalogOperation → List DataFileRow
  | [] => []
  | operation :: rest =>
    (match (operation.apply history.kv).1 with
      | .ok _ => operation.appendedFiles
      | .error _ => []) ++ (history.after operation).appendLog rest

/-- The next row ids dominate everything appended so far. -/
def CatalogKv.DominatesRowIds (kv : CatalogKv) (appended : List DataFileRow) : Prop :=
  ∀ row ∈ appended, rowIdOverlapCheckNeeded row → row.rowIdEnd ≤ loadTableNextRowId kv row.tableId

theorem DataFileRow.hasRowIds.needed (known : row.hasRowIds) : rowIdOverlapCheckNeeded row := by
  simp [rowIdOverlapCheckNeeded, known.1, known.2.1]

theorem DataFileRow.hasRowIds.rowIdEnd_eq (known : row.hasRowIds) :
    row.rowIdEnd = row.rowIdStart + row.recordCount :=
  min_eq_left known.2.2

theorem DataFileRow.RowIdsApart.of_le (before : left.hasRowIds → right.hasRowIds →
      left.rowIdEnd ≤ right.rowIdStart ∨ right.rowIdEnd ≤ left.rowIdStart) : left.RowIdsApart right := by
  intro _ leftKnown rightKnown rowId ⟨inLeft, inRight⟩
  unfold DataFileRow.ownsRowId at inLeft inRight
  have ends := before leftKnown rightKnown
  rw [leftKnown.rowIdEnd_eq, rightKnown.rowIdEnd_eq] at ends
  omega

theorem AppendsApart.rowIdsApart {kv : CatalogKv} {rows : List DataFileRow} (appends : AppendsApart kv rows) :
    rows.Pairwise DataFileRow.RowIdsApart := by
  refine appends.apart.imp ?_
  intro left right passes sameTable leftKnown rightKnown
  have ends := rejectRowIdOverlap_ok passes sameTable leftKnown.needed rightKnown.needed
  exact DataFileRow.RowIdsApart.of_le (fun _ _ => ends) sameTable leftKnown rightKnown

theorem CatalogKv.DominatesRowIds.rowIdsApart {kv : CatalogKv} {rows : List DataFileRow}
    (dominates : kv.DominatesRowIds appended) (appends : AppendsApart kv rows) {earlier later : DataFileRow}
    (before : earlier ∈ appended) (after : later ∈ rows) : earlier.RowIdsApart later := by
  intro sameTable earlierKnown laterKnown
  have allocated := dominates earlier before earlierKnown.needed
  have fresh := appends.fresh later after laterKnown.needed
  rw [sameTable] at allocated
  exact DataFileRow.RowIdsApart.of_le (fun _ _ => Or.inl (allocated.trans fresh)) sameTable earlierKnown laterKnown

/-- One operation: what it appends is apart from everything before, and the next row ids cover it too. -/
theorem CatalogKv.DominatesRowIds.after {history : CatalogHistory}
    (dominates : history.kv.DominatesRowIds appended) (apart : appended.Pairwise DataFileRow.RowIdsApart)
    (operation : CatalogOperation) :
    (history.after operation).kv.DominatesRowIds (appended ++ match (operation.apply history.kv).1 with
        | .ok _ => operation.appendedFiles
        | .error _ => []) ∧ (appended ++ match (operation.apply history.kv).1 with
        | .ok _ => operation.appendedFiles
        | .error _ => []).Pairwise DataFileRow.RowIdsApart := by
  unfold CatalogHistory.after
  have outcome := operation.apply_outcome history.kv
  generalize operation.apply history.kv = result at outcome
  cases outcome with
  | rejected failure
  | rejectedWithOrder failure => simpa using ⟨dominates, apart⟩
  | nothingToDo noDataFiles noDeleteFiles _ _ =>
    have empty : operation.appendedFiles = [] := by
      cases operation with
      | appendDataFiles now rows flushes =>
        simpa [CatalogOperation.newDataFileIds, CatalogOperation.appendedFiles] using noDataFiles
      | dataMutation now input =>
        have noFiles : input.dataFiles = [] := by simpa [CatalogOperation.newDataFileIds] using noDataFiles
        simp [CatalogOperation.appendedFiles, noFiles]
      | _ => rfl
    simpa [empty] using ⟨dominates, apart⟩
  | @committed batch commits =>
    obtain ⟨appends, allocates⟩ := commits.rowIds
    refine ⟨?_, List.pairwise_append.mpr ⟨apart, appends.rowIdsApart, ?_⟩⟩
    · intro row member needed
      rcases List.mem_append.mp member with old | new
      · exact (dominates row old needed).trans (allocates.le_commit row.tableId)
      · exact allocates.covers row new needed
    · intro earlier before later after
      exact dominates.rowIdsApart appends before after
  | @maintained batch maintains =>
    have empty : operation.appendedFiles = [] := by
      cases maintains with
      | expireSnapshots => rfl
      | removeOldDataFiles => rfl
      | removeOldDeleteFiles => rfl
    have unchanged : (history.kv.commit batch).tableNextRowId = history.kv.tableNextRowId := by
      simp only [CatalogKv.commit, maintains.tableNextRowId, OrderedMap.commit_empty]
    have still : (history.kv.commit batch).DominatesRowIds appended := by
      intro row member needed
      rw [loadTableNextRowId, unchanged]
      exact dominates row member needed
    simpa [empty] using ⟨still, apart⟩

/-- Row ids are never given out twice: any two files appended along a run have disjoint row ids, in one batch or in
different commits, whatever happened to the first of them since. -/
theorem appendLog_rowIdsApart (history : CatalogHistory) (operations : List CatalogOperation) :
    (history.appendLog operations).Pairwise DataFileRow.RowIdsApart := by
  have run {appended : List DataFileRow} (dominates : history.kv.DominatesRowIds appended)
      (apart : appended.Pairwise DataFileRow.RowIdsApart) :
      (appended ++ history.appendLog operations).Pairwise DataFileRow.RowIdsApart := by
    induction operations generalizing history appended with
    | nil => simpa [CatalogHistory.appendLog] using apart
    | cons operation rest ih =>
      obtain ⟨dominatesNext, apartNext⟩ := dominates.after apart operation
      rw [CatalogHistory.appendLog, ← List.append_assoc]
      exact ih (history.after operation) dominatesNext apartNext
  have nothing : history.kv.DominatesRowIds [] := fun row member => absurd member List.not_mem_nil
  simpa using run nothing List.Pairwise.nil

end DucklakeCatalog
