import DucklakeCatalog.File.Maintenance
import DucklakeCatalog.Inline.Tables
import Mathlib.Algebra.GroupWithZero.Nat

namespace DucklakeCatalog

open KeyedStore

structure DataFileCompaction where
  sourceFileIds : List DataFileId
  newFiles : List DataFileRow
  partitionValues : List FilePartitionValueRow := []
  fileColumnStats : List FileColumnStatsRow := []
  deriving DecidableEq, Repr

inductive DeleteFilePolicy where
  | reject
  | allow
  deriving DecidableEq, Repr

structure ExpiredSourceFile where
  dataFile : DataFileRow
  deleteFileId : Option DeleteFileId
  deriving DecidableEq, Repr

/-! ## Steps shared by both compactions -/

def currentDeleteFileId (kv : CatalogKv) (dataFileId : DataFileId) : Option DeleteFileId :=
  (kv.currentDeleteFile.get? dataFileId).map DeleteFileRow.deleteFileId

def expireCompactedSourceFile (kv : CatalogKv) (now : Int) (batch : KvBatch) (dataFileId : DataFileId)
    (endOrder : CatalogOrderId) (deletePolicy : DeleteFilePolicy) :
    CatalogResult (ExpiredSourceFile × KvBatch) := do
  let deleteFileId := currentDeleteFileId kv dataFileId
  if deletePolicy = .reject ∧ deleteFileId.isSome then
    .error (.invalidMutation
      s!"data file {dataFileId} has delete files and cannot be merge-adjacent compacted")
  else
    let (dataFile, batch) ← stageExpireCurrentDataFile kv batch dataFileId endOrder
    return (⟨dataFile, deleteFileId⟩, stageScheduledCompactedDataFileCleanup batch dataFileId now)

def expireCompactedDeleteFile (kv : CatalogKv) (now : Int) (batch : KvBatch) (dataFile : DataFileRow)
    (deleteFileId : DeleteFileId) (endOrder : CatalogOrderId) : CatalogResult KvBatch := do
  let batch ← stageExpireCurrentDeleteFile kv batch dataFile deleteFileId endOrder
  return stageScheduledDeleteFileCleanup batch dataFile.tableId deleteFileId now

variable {endOrder : CatalogOrderId} {sourceFileIds : List DataFileId}
  {inlineDeletions : List (DataFileId × List Nat)}

theorem expireCompactedSourceFile_ok {kv : CatalogKv} {now : Int} {batch next : KvBatch} {dataFileId : DataFileId}
    {policy : DeleteFilePolicy} {source : ExpiredSourceFile}
    (success : expireCompactedSourceFile kv now batch dataFileId endOrder policy = .ok (source, next)) :
    (policy = .reject → currentDeleteFileId kv dataFileId = none) ∧
      source.deleteFileId = currentDeleteFileId kv dataFileId ∧
      ∃ expired, stageExpireCurrentDataFile kv batch dataFileId endOrder = .ok (source.dataFile, expired) ∧
        next = stageScheduledCompactedDataFileCleanup expired dataFileId now := by
  unfold expireCompactedSourceFile at success
  extract_lets deleteFileId at success
  split at success
  · simp at success
  · rename_i allowed
    simp only [bind_eq_ok, pure_eq_ok, Prod.mk.injEq] at success
    obtain ⟨⟨dataFile, expired⟩, expires, rfl, rfl⟩ := success
    refine ⟨?_, rfl, expired, expires, rfl⟩
    intro rejects
    simpa [rejects, deleteFileId] using allowed

theorem expireCompactedDeleteFile_ok {kv : CatalogKv} {now : Int} {batch next : KvBatch} {dataFile : DataFileRow}
    {deleteFileId : DeleteFileId}
    (success : expireCompactedDeleteFile kv now batch dataFile deleteFileId endOrder = .ok next) :
    ∃ expired, stageExpireCurrentDeleteFile kv batch dataFile deleteFileId endOrder = .ok expired ∧
      next = stageScheduledDeleteFileCleanup expired dataFile.tableId deleteFileId now := by
  unfold expireCompactedDeleteFile at success
  simp only [bind_eq_ok, pure_eq_ok] at success
  obtain ⟨expired, expires, rfl⟩ := success
  exact ⟨expired, expires, rfl⟩

def loadSourceFiles (kv : CatalogKv) (sourceFileIds : List DataFileId) : CatalogResult (List DataFileRow) :=
  sourceFileIds.mapM (loadDataFile kv)

def stageNewFilePartitionValues (batch : KvBatch) (partitionValues : List FilePartitionValueRow)
    (newFiles : List DataFileRow) : CatalogResult KvBatch :=
  partitionValues.foldlM
    (fun batch row =>
      match newFiles.find? fun dataFile => dataFile.dataFileId = row.dataFileId with
      | none => .error (.invalidMutation s!"partition value references unknown data file {row.dataFileId}")
      | some dataFile => .ok (stageFilePartitionValue batch row dataFile))
    batch

/-- A single replacement of a single source inherits the source's statistics. -/
def deriveSingleSourceRewriteStats (kv : CatalogKv) (sourceFileIds : List DataFileId)
    (newFiles : List DataFileRow) : List FileColumnStatsRow :=
  match sourceFileIds, newFiles with
  | [sourceId], [newFile] =>
    ((listFileColumnStatsForDataFileIds kv sourceFileIds).filter fun row => row.dataFileId = sourceId).map fun row =>
      { row with dataFileId := newFile.dataFileId, tableId := newFile.tableId, valueCount := some newFile.recordCount }
  | _, _ => []

def compactionFileColumnStats (kv : CatalogKv) (compaction : DataFileCompaction) (newFiles : List DataFileRow) :
    List FileColumnStatsRow :=
  if compaction.fileColumnStats ≠ [] then compaction.fileColumnStats
  else deriveSingleSourceRewriteStats kv compaction.sourceFileIds newFiles

def stageCompactionStats (batch : KvBatch) (fileColumnStats : List FileColumnStatsRow) (order : CatalogOrderId) :
    KvBatch :=
  stageTableFileStatsVersionsForRows (fileColumnStats.foldl stageFileColumnStats batch) fileColumnStats order

theorem stageNewFilePartitionValues_changes {batch next : KvBatch} {partitionValues : List FilePartitionValueRow}
    {newFiles : List DataFileRow} (success : stageNewFilePartitionValues batch partitionValues newFiles = .ok next) :
    batch.ChangesPartitions next := by
  refine foldlM_relates (fun _ => ⟨_, _, rfl⟩) (fun left right => left.trans right) ?_ success
  intro batch row next taken
  split at taken
  · simp at taken
  · simp only [Except.ok.injEq] at taken
    exact ⟨_, _, taken.symm⟩

theorem stageCompactionStats_changes (batch : KvBatch) (fileColumnStats : List FileColumnStatsRow)
    (order : CatalogOrderId) : batch.ChangesStats (stageCompactionStats batch fileColumnStats order) :=
  (stageFileColumnStats_changes fileColumnStats batch).trans
    (stageTableFileStatsVersionsForRows_changes _ fileColumnStats order)

/-! ## Merge-adjacent compaction -/

def rejectEmptyReplacementForNonEmptySources (kv : CatalogKv) (compaction : DataFileCompaction) :
    CatalogResult Unit :=
  if compaction.newFiles ≠ [] then .ok ()
  else
    compaction.sourceFileIds.forM fun sourceFileId => do
      let source ← loadDataFile kv sourceFileId
      if source.recordCount ≠ 0 then
        .error (.invalidMutation
          "merge-adjacent compaction requires a replacement data file for non-empty sources")
      else .ok ()

def rejectActiveInlineDeletionsForMergeSources (kv : CatalogKv) (sourceFileIds : List DataFileId)
    (snapshotOrder : CatalogOrderId) : CatalogResult Unit :=
  sourceFileIds.forM fun sourceFileId => do
    let source ← loadDataFile kv sourceFileId
    if inlineDeletionsOf (listInlineFileDeletionsAt kv source.tableId snapshotOrder) sourceFileId ≠ [] then
      .error (.invalidMutation
        s!"data file {sourceFileId} has active inline deletions and cannot be merge-adjacent compacted")
    else .ok ()

def deriveMergeReplacementRowIds (newFiles : List DataFileRow) (expiredSources : List ExpiredSourceFile) :
    CatalogResult (List DataFileRow) :=
  if newFiles.all DataFileRow.rowIdStartKnown then .ok newFiles
  else
    match newFiles with
    | [replacement] =>
      match ((expiredSources.map ExpiredSourceFile.dataFile).filter DataFileRow.rowIdStartKnown).map
        DataFileRow.rowIdStart |>.min? with
      | none =>
        .error (.invalidMutation "merge-adjacent compaction requires source row id metadata")
      | some rowIdStart => .ok [{ replacement with rowIdStart := rowIdStart, rowIdStartKnown := true }]
    | _ => .error (.invalidMutation "merge-adjacent compaction replacements require row id metadata")

def hasExplicitMergeVisibility (file : DataFileRow) : Bool :=
  file.maxPartialOrder.isSome || decide (file.validity.beginOrder ≠ autoOrder)

/-- Sources of one begin order are replaced from the merge on; otherwise the replacement is backfilled
to the begin order of the first source listed. -/
def mergeReplacementVisibility (expiredSources : List ExpiredSourceFile) (mergeOrder : CatalogOrderId) :
    Option (CatalogOrderId × Option CatalogOrderId) :=
  match expiredSources with
  | [] => none
  | firstSource :: _ =>
    let firstBegin := firstSource.dataFile.validity.beginOrder
    if expiredSources.all fun source => source.dataFile.validity.beginOrder = firstBegin then
      some (mergeOrder, none)
    else
      let maxPartial := (expiredSources.map fun source => source.dataFile.maxCoveredOrder).max?
      some (firstBegin, if 1 < expiredSources.length then maxPartial else none)

def applyMergeReplacementVisibility (newFiles : List DataFileRow) (expiredSources : List ExpiredSourceFile)
    (mergeOrder : CatalogOrderId) : List DataFileRow :=
  (mergeReplacementVisibility expiredSources mergeOrder).elim newFiles fun (beginOrder, maxPartialOrder) =>
    newFiles.map fun newFile =>
      if hasExplicitMergeVisibility newFile then newFile
      else { newFile.withBeginOrder beginOrder with maxPartialOrder }

def stageMergeReplacementDataFile (kv : CatalogKv) (batch : KvBatch) (row : DataFileRow)
    (changeOrder : CatalogOrderId) : KvBatch :=
  writeDataFileChange (stageAppendDataFileWithoutChange kv batch row) row.tableId changeOrder .added row.dataFileId

def expireMergeSources (kv : CatalogKv) (now : Int) (batch : KvBatch) (sourceFileIds : List DataFileId)
    (order : CatalogOrderId) : CatalogResult (List ExpiredSourceFile × KvBatch) :=
  sourceFileIds.foldlM
    (fun (expired, batch) sourceFileId => do
      let (source, batch) ← expireCompactedSourceFile kv now batch sourceFileId order .reject
      return (expired ++ [source], batch))
    ([], batch)

def stageMergeAdjacent (kv : CatalogKv) (now : Int) (compaction : DataFileCompaction) (order : CatalogOrderId) :
    CatalogResult (DataFileCompaction × KvBatch) := do
  let snapshot := snapshotRowForNextSequence (latestSnapshot kv) order now
  let (expiredSources, batch) ← expireMergeSources kv now (stageSnapshot {} snapshot) compaction.sourceFileIds order
  let newFiles ← deriveMergeReplacementRowIds compaction.newFiles expiredSources
  let newFiles := (applyMergeReplacementVisibility newFiles expiredSources order).map fun newFile =>
    newFile.withEndOrder none
  let batch := newFiles.foldl (fun batch newFile => stageMergeReplacementDataFile kv batch newFile order) batch
  let batch ← stageNewFilePartitionValues batch compaction.partitionValues newFiles
  let batch := stageCompactionStats batch (compactionFileColumnStats kv compaction newFiles) order
  return ({ compaction with newFiles }, batch)

variable {compaction result : DataFileCompaction}

section

variable {kv : CatalogKv} {now : Int} {order : CatalogOrderId} {batch next : KvBatch}

/-- What closing a source keeps holds when all of them are closed. -/
theorem expireMergeSources_invariant {sources : List ExpiredSourceFile} (Invariant : KvBatch → Prop)
    (expires : expireMergeSources kv now batch sourceFileIds order = .ok (sources, next)) (holds : Invariant batch)
    (preserved : ∀ {state closed sourceFileId source}, Invariant state →
      expireCompactedSourceFile kv now state sourceFileId order .reject = .ok (source, closed) → Invariant closed) :
    Invariant next := by
  refine foldlM_invariant (fun state => Invariant state.2) expires holds ?_
  intro state sourceFileId next _ soFar taken
  simp only [bind_eq_ok, pure_eq_ok] at taken
  obtain ⟨⟨source, closed⟩, expiresSource, rfl⟩ := taken
  exact preserved soFar expiresSource

theorem stageMergeAdjacent_ok (staged : stageMergeAdjacent kv now compaction order = .ok (result, batch)) :
    ∃ sources expired, expireMergeSources kv now
        (stageSnapshot {} (snapshotRowForNextSequence (latestSnapshot kv) order now)) compaction.sourceFileIds order =
          .ok (sources, expired) ∧
      ∃ newFiles, deriveMergeReplacementRowIds compaction.newFiles sources = .ok newFiles ∧
      ∃ valued, stageNewFilePartitionValues
          (((applyMergeReplacementVisibility newFiles sources order).map fun newFile => newFile.withEndOrder none).foldl
            (fun batch newFile => stageMergeReplacementDataFile kv batch newFile order) expired)
          compaction.partitionValues
          ((applyMergeReplacementVisibility newFiles sources order).map fun newFile => newFile.withEndOrder none) =
            .ok valued ∧
        { compaction with newFiles := (applyMergeReplacementVisibility newFiles sources order).map fun newFile =>
            newFile.withEndOrder none } = result ∧
        stageCompactionStats valued (compactionFileColumnStats kv compaction
          ((applyMergeReplacementVisibility newFiles sources order).map fun newFile => newFile.withEndOrder none)) order =
            batch := by
  unfold stageMergeAdjacent at staged
  simp only [bind_eq_ok, pure_eq_ok, Prod.mk.injEq] at staged
  obtain ⟨⟨sources, expired⟩, expires, newFiles, derives, valued, values, rfl, rfl⟩ := staged
  exact ⟨sources, expired, expires, newFiles, derives, valued, values, rfl, rfl⟩

end

def validateMergeAdjacent (kv : CatalogKv) (compaction : DataFileCompaction) : CatalogResult Unit :=
  if compaction.sourceFileIds = [] then
    .error (.invalidMutation "merge-adjacent compaction requires source data files")
  else do
    rejectEmptyReplacementForNonEmptySources kv compaction
    (latestSnapshot kv).elim (.ok ()) fun snapshot =>
      rejectActiveInlineDeletionsForMergeSources kv compaction.sourceFileIds snapshot.order

def commitMergeAdjacentDataFiles (kv : CatalogKv) (now : Int) (compaction : DataFileCompaction) :
    CatalogResult DataFileCompaction × CatalogKv :=
  match validateMergeAdjacent kv compaction with
  | .error failure => (.error failure, kv)
  | .ok () => commitWith kv (stageMergeAdjacent kv now compaction)

/-! ## Rewrite-delete compaction -/

def compactionTableId (kv : CatalogKv) (sourceFileIds : List DataFileId) (newFiles : List DataFileRow) :
    CatalogResult TableId :=
  match sourceFileIds with
  | [] => .error (.invalidMutation "compaction conflict check requires source data files")
  | firstSourceId :: restIds => do
    let first ← loadDataFile kv firstSourceId
    restIds.forM fun sourceFileId => do
      let source ← loadDataFile kv sourceFileId
      if source.tableId ≠ first.tableId then
        .error (.invalidMutation "compaction source files must belong to one table")
      else .ok ()
    newFiles.forM fun newFile =>
      if newFile.tableId ≠ first.tableId then
        .error (.invalidMutation "compaction replacement files must belong to the source table")
      else .ok ()
    return first.tableId

def rewriteSourceRowIdsRequired : CatalogError :=
  .invalidMutation "rewrite-delete compaction requires source row id metadata"

def minKnownSourceRowIdStart (sources : List DataFileRow) : CatalogResult Nat :=
  ((sources.filter DataFileRow.rowIdStartKnown).map DataFileRow.rowIdStart).min?.elim
    (.error rewriteSourceRowIdsRequired) .ok

def maxKnownSourceRowIdEnd (sources : List DataFileRow) : CatalogResult Nat :=
  ((sources.filter DataFileRow.rowIdStartKnown).map DataFileRow.rowIdEnd).max?.elim
    (.error rewriteSourceRowIdsRequired) .ok

/-- Unknown replacements are packed one after another from `nextStart`. -/
def assignUnknownRowIds (nextStart : Nat) : List DataFileRow → List DataFileRow
  | [] => []
  | newFile :: rest =>
    if newFile.rowIdStartKnown then newFile :: assignUnknownRowIds nextStart rest
    else
      { newFile with rowIdStart := nextStart, rowIdStartKnown := true } ::
        assignUnknownRowIds (saturatingAdd nextStart newFile.recordCount) rest

def deriveUnknownRewriteReplacementRowIds (sources newFiles : List DataFileRow) :
    CatalogResult (List DataFileRow) :=
  -- The record counts are summed in 64 bits.
  let unknownRecordCount :=
    ((newFiles.filter fun file => !file.rowIdStartKnown).map DataFileRow.recordCount).sum % 2 ^ 64
  if unknownRecordCount = 0 then .ok newFiles
  else do
    let sourceEnd ← maxKnownSourceRowIdEnd sources
    return assignUnknownRowIds (sourceEnd - unknownRecordCount) newFiles

def normalizeRewriteReplacementRowIds (kv : CatalogKv) (sourceFileIds : List DataFileId)
    (newFiles : List DataFileRow) : CatalogResult (List DataFileRow) := do
  let sources ← loadSourceFiles kv sourceFileIds
  let sourceStart ← minKnownSourceRowIdStart sources
  let newFiles ← deriveUnknownRewriteReplacementRowIds sources newFiles
  return newFiles.map fun newFile =>
    if newFile.rowIdStartKnown ∧ newFile.rowIdStart < sourceStart then
      { newFile with rowIdStart := saturatingAdd sourceStart newFile.rowIdStart }
    else newFile

def expireRewriteSource (kv : CatalogKv) (now : Int) (inlineDeletions : List (DataFileId × List Nat))
    (order : CatalogOrderId) (batch : KvBatch) (sourceFileId : DataFileId) : CatalogResult KvBatch := do
  let (expiredSource, batch) ← expireCompactedSourceFile kv now batch sourceFileId order .allow
  match expiredSource.deleteFileId with
  | none =>
    if inlineDeletionsOf inlineDeletions sourceFileId = [] then
      .error (.invalidMutation s!"data file {sourceFileId} has no delete file or inline deletions to rewrite")
    else .ok batch
  | some deleteFileId => expireCompactedDeleteFile kv now batch expiredSource.dataFile deleteFileId order

theorem expireRewriteSource_ok {kv : CatalogKv} {now : Int}
    {order : CatalogOrderId} {batch next : KvBatch} {sourceFileId : DataFileId}
    (success : expireRewriteSource kv now inlineDeletions order batch sourceFileId = .ok next) :
    ∃ source expired, expireCompactedSourceFile kv now batch sourceFileId order .allow = .ok (source, expired) ∧
      ((source.deleteFileId = none ∧ next = expired) ∨
        ∃ deleteFileId, source.deleteFileId = some deleteFileId ∧
          expireCompactedDeleteFile kv now expired source.dataFile deleteFileId order = .ok next) := by
  unfold expireRewriteSource at success
  rw [bind_eq_ok] at success
  obtain ⟨⟨source, expired⟩, expires, success⟩ := success
  refine ⟨source, expired, expires, ?_⟩
  dsimp only at success
  split at success
  · rename_i without
    split at success
    · simp at success
    · simp only [Except.ok.injEq] at success
      exact Or.inl ⟨without, success.symm⟩
  · rename_i deleteFileId found
    exact Or.inr ⟨deleteFileId, found, success⟩

def stageRewriteDelete (kv : CatalogKv) (now : Int) (compaction : DataFileCompaction) (tableId : TableId)
    (order : CatalogOrderId) : CatalogResult (DataFileCompaction × KvBatch) := do
  let latest := latestSnapshot kv
  let inlineDeletions := latest.elim [] fun snapshot => listInlineFileDeletionsAt kv tableId snapshot.order
  let batch := stageSnapshot {} (snapshotRowForNextSequence latest order now)
  let batch := stageSnapshotOperation batch order .rewriteDelete tableId
  let batch ← compaction.sourceFileIds.foldlM (expireRewriteSource kv now inlineDeletions order) batch
  let newFiles := compaction.newFiles.map fun newFile => { newFile with validity := ⟨order, none⟩ }
  let batch := newFiles.foldl (stageAppendDataFile kv) batch
  let batch := stageCompactionStats batch (compactionFileColumnStats kv compaction newFiles) order
  let batch ← stageNewFilePartitionValues batch compaction.partitionValues newFiles
  return ({ compaction with newFiles }, batch)

section

variable {kv : CatalogKv} {now : Int} {order : CatalogOrderId} {batch next : KvBatch}

/-- What closing a source and closing its delete file keep holds when all of them are closed. -/
theorem expireRewriteSources_invariant (Invariant : KvBatch → Prop)
    (expires : sourceFileIds.foldlM (expireRewriteSource kv now inlineDeletions order) batch = .ok next)
    (holds : Invariant batch) (preserved : ∀ {state closed sourceFileId source}, Invariant state →
      expireCompactedSourceFile kv now state sourceFileId order .allow = .ok (source, closed) → Invariant closed)
    (deletes : ∀ {state deleteFileId} {dataFile : DataFileRow} {row : DeleteFileRow}, Invariant state →
      Invariant (stageScheduledDeleteFileCleanup
        { putClosedDeleteFile kv state dataFile.tableId (row.withEndOrder (some order)) order with
          currentDeleteFile := state.currentDeleteFile.delete dataFile.dataFileId } dataFile.tableId deleteFileId now)) :
    Invariant next := by
  refine foldlM_invariant Invariant expires holds ?_
  intro state sourceFileId next _ soFar taken
  obtain ⟨source, closed, expiresSource, rest⟩ := expireRewriteSource_ok taken
  have kept := preserved soFar expiresSource
  rcases rest with ⟨_, rfl⟩ | ⟨deleteFileId, _, closes⟩
  · exact kept
  · obtain ⟨_, ends, rfl⟩ := expireCompactedDeleteFile_ok closes
    obtain ⟨_, _, _, _, _, rfl⟩ := stageExpireCurrentDeleteFile_ok ends
    exact deletes kept

theorem stageRewriteDelete_ok {tableId : TableId}
    (staged : stageRewriteDelete kv now compaction tableId order = .ok (result, batch)) :
    ∃ expired, compaction.sourceFileIds.foldlM (expireRewriteSource kv now ((latestSnapshot kv).elim [] fun snapshot =>
          listInlineFileDeletionsAt kv tableId snapshot.order) order)
        (stageSnapshotOperation (stageSnapshot {} (snapshotRowForNextSequence (latestSnapshot kv) order now)) order
          .rewriteDelete tableId) = .ok expired ∧
      ∃ valued, stageNewFilePartitionValues (stageCompactionStats
            ((compaction.newFiles.map fun newFile => { newFile with validity := ⟨order, none⟩ }).foldl
              (stageAppendDataFile kv) expired)
            (compactionFileColumnStats kv compaction
              (compaction.newFiles.map fun newFile => { newFile with validity := ⟨order, none⟩ })) order)
          compaction.partitionValues
          (compaction.newFiles.map fun newFile => { newFile with validity := ⟨order, none⟩ }) = .ok valued ∧
        { compaction with
          newFiles := compaction.newFiles.map fun newFile => { newFile with validity := ⟨order, none⟩ } } = result ∧
        valued = batch := by
  unfold stageRewriteDelete at staged
  simp only [bind_eq_ok, pure_eq_ok, Prod.mk.injEq] at staged
  obtain ⟨expired, expires, valued, values, rfl, rfl⟩ := staged
  exact ⟨expired, expires, valued, values, rfl, rfl⟩

end

def validateRewriteDelete (kv : CatalogKv) (compaction : DataFileCompaction) :
    CatalogResult (TableId × DataFileCompaction) :=
  if compaction.sourceFileIds = [] then
    .error (.invalidMutation "rewrite-delete compaction requires source data files")
  else do
    let tableId ← compactionTableId kv compaction.sourceFileIds compaction.newFiles
    let newFiles ← normalizeRewriteReplacementRowIds kv compaction.sourceFileIds compaction.newFiles
    rejectCurrentDataFileRowIdOverlapsExcept kv newFiles compaction.sourceFileIds
    return (tableId, { compaction with newFiles })

def commitRewriteDeleteDataFiles (kv : CatalogKv) (now : Int) (compaction : DataFileCompaction) :
    CatalogResult DataFileCompaction × CatalogKv :=
  match validateRewriteDelete kv compaction with
  | .error failure => (.error failure, kv)
  | .ok (tableId, compaction) => commitWith kv (stageRewriteDelete kv now compaction tableId)

end DucklakeCatalog
