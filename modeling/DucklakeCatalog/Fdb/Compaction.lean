import DucklakeCatalog.Fdb.DataMutation
import DucklakeCatalog.Table.Commits

/-! Compaction batches of the FoundationDB backend. The sources and their
deletes are read when the batch is planned; the commit is a data mutation that
drops the sources. -/
namespace DucklakeCatalog.Fdb

open KeyedStore

/-! ## Sources -/

def rejectMergeShape (compaction : DataFileCompaction) : CatalogResult Unit :=
  if compaction.sourceFileIds = [] then
    .error (.invalidMutation "merge-adjacent compaction requires source data files")
  else .ok ()

def rejectRewriteShape (compaction : DataFileCompaction) : CatalogResult Unit :=
  if compaction.sourceFileIds = [] then
    .error (.invalidMutation "rewrite-delete compaction requires source data files")
  else .ok ()

/-- Only delete files are looked at, not inline file deletions. -/
def rejectSourceDeleteFiles (kv : CatalogKv) (sourceFileIds : List DataFileId) : CatalogResult Unit :=
  sourceFileIds.forM fun dataFileId =>
    if (kv.currentDeleteFile.get? dataFileId).isSome then
      .error (.invalidMutation s!"data file {dataFileId} has delete files and cannot be merge-adjacent compacted")
    else .ok ()

def loadCompactionSource (kv : CatalogKv) (sourceFileId : DataFileId) : CatalogResult DataFileRow :=
  match kv.dataFile.get? sourceFileId with
  | none => .error (.notFound "data file")
  | some row =>
    if row.dataFileId ≠ sourceFileId then
      .error (.decode s!"data file key {sourceFileId} decoded as data file {row.dataFileId}")
    else .ok row

def loadCompactionSources (kv : CatalogKv) (sourceFileIds : List DataFileId) : CatalogResult (List DataFileRow) :=
  sourceFileIds.mapM (loadCompactionSource kv)

def compactionTableIdFromSources (sources newFiles : List DataFileRow) : CatalogResult TableId :=
  match sources with
  | [] => .error (.invalidMutation "compaction conflict check requires source data files")
  | first :: rest => do
    rest.forM fun source =>
      if source.tableId ≠ first.tableId then
        .error (.invalidMutation "compaction source files must belong to one table")
      else .ok ()
    newFiles.forM fun newFile =>
      if newFile.tableId ≠ first.tableId then
        .error (.invalidMutation "compaction replacement files must belong to the source table")
      else .ok ()
    return first.tableId

/-! ## Conflicts since the read snapshot -/

def sameUserVisibleSchemaAs (left right : TableRow) : Bool :=
  { left with validity := right.validity, inlinedDataTables := [] } = { right with inlinedDataTables := [] }

/-- The table was dropped or its schema changed between the two orders. -/
def rejectTableChangedSinceBase (kv : CatalogKv) (tableId : TableId) (baseOrder throughOrder : CatalogOrderId)
    (rejectSchema : Bool) : CatalogResult Unit :=
  match loadTableAt kv tableId baseOrder with
  | none => .ok ()
  | some table =>
    match table.validity.endOrder with
    | none => .ok ()
    | some changedAt =>
      if baseOrder < changedAt ∧ changedAt ≤ throughOrder then
        match loadTableAt kv tableId throughOrder with
        | none => if rejectSchema then .ok () else .error (.invalidMutation s!"table {tableId} was dropped at {changedAt}")
        | some current =>
          if rejectSchema && !sameUserVisibleSchemaAs current table then
            .error (.invalidMutation s!"table {tableId} changed at {changedAt}")
          else .ok ()
      else .ok ()

/-- A rewrite conflicts with every file the table gained or lost. -/
def rejectConflictsSinceBase (kv : CatalogKv) (tableId : TableId) (baseOrder throughOrder : CatalogOrderId) :
    CatalogResult Unit :=
  if throughOrder < baseOrder then
    .error (.invalidMutation "logical conflict end order cannot precede base order")
  else if throughOrder = baseOrder then .ok ()
  else do
    rejectTableChangedSinceBase kv tableId baseOrder throughOrder false
    if kv.tableDataFileChange.scan (fun key =>
        key.tableId = tableId && baseOrder < key.order && key.order ≤ throughOrder) = [] then
      rejectTableChangedSinceBase kv tableId baseOrder throughOrder true
    else
      .error (.invalidMutation s!"logical conflict on table {tableId}")

def rejectRewriteSourceDeleteConflicts (kv : CatalogKv) (tableId : TableId) (baseOrder throughOrder : CatalogOrderId)
    (sourceFileIds : List DataFileId) : CatalogResult Unit :=
  if throughOrder < baseOrder then
    .error (.invalidMutation "rewrite-delete source conflict end order cannot precede base order")
  else
    sourceFileIds.forM fun dataFileId =>
      let deleteFiles := kv.deleteFileTimeline.scan fun key =>
        key.dataFileId = dataFileId && baseOrder < key.order && key.order ≤ throughOrder
      let inlineDeletions := kv.inlineFileDeletion.scan fun key =>
        key.tableId = tableId && key.dataFileId = dataFileId && baseOrder < key.beginOrder &&
          key.beginOrder ≤ throughOrder
      if deleteFiles = [] ∧ inlineDeletions = [] then .ok ()
      else .error (.invalidMutation s!"logical conflict on table {tableId}")

/-! ## Replacements of a merge -/

def rejectNonEmptySourcesWithoutReplacement (sources newFiles : List DataFileRow) : CatalogResult Unit :=
  if newFiles ≠ [] ∨ sources.all fun source => source.recordCount = 0 then .ok ()
  else
    .error (.invalidMutation
      "merge-adjacent compaction cannot drop non-empty source files without a replacement")

/-- One range after another, without gaps. -/
def contiguousEnd (finish : Nat) : List (Nat ×ₗ Nat) → Option Nat
  | [] => some finish
  | range :: rest => if (ofLex range).1 = finish then contiguousEnd (ofLex range).2 rest else none

def sourceRowRangesAreContiguousForRecordCount (sources : List DataFileRow) (recordCount : Nat) : Bool :=
  if sources.any fun source => !source.rowIdStartKnown then false
  else
    let ranges := ((sources.filter fun source => source.recordCount ≠ 0).map fun source =>
      (toLex (source.rowIdStart, source.rowIdEnd) : Nat ×ₗ Nat)).insertionSort (· ≤ ·)
    match ranges with
    | [] => recordCount = 0
    | first :: rest =>
      (contiguousEnd (ofLex first).2 rest).any fun finish => decide (finish - (ofLex first).1 = recordCount)

def clearSparseMergeReplacementRowIds (sources newFiles : List DataFileRow) : List DataFileRow :=
  match newFiles with
  | [newFile] =>
    if sourceRowRangesAreContiguousForRecordCount sources newFile.recordCount then [newFile]
    else [{ newFile with rowIdStart := 0, rowIdStartKnown := false }]
  | newFiles => newFiles

/-- The sources of one partition, when there are any. -/
def sourcesOfPartition (sources : List DataFileRow) (sourcePartitionValues : List FilePartitionValueRow)
    (key : List (Nat ×ₗ String)) : List DataFileRow :=
  sources.filter fun source => partitionKeyFromRows sourcePartitionValues source.dataFileId = key

def knownRowIdStart (message : String) (sources : List DataFileRow) : CatalogResult Nat :=
  ((sources.filter DataFileRow.rowIdStartKnown).map DataFileRow.rowIdStart).min?.elim
    (.error (.invalidMutation message)) .ok

def deriveReplacementRowIds (message : String) (sources : List DataFileRow) (newFile : DataFileRow) :
    CatalogResult DataFileRow :=
  if sourceRowRangesAreContiguousForRecordCount sources newFile.recordCount then do
    let rowIdStart ← knownRowIdStart message sources
    return { newFile with rowIdStart, rowIdStartKnown := true }
  else .ok newFile

def deriveMergeReplacementRowIds (sources : List DataFileRow) (sourcePartitionValues : List FilePartitionValueRow)
    (compaction : DataFileCompaction) (newFiles : List DataFileRow) : CatalogResult (List DataFileRow) :=
  if newFiles.all DataFileRow.rowIdStartKnown then .ok newFiles
  else
    match newFiles with
    | [newFile] => do
      let newFile ← deriveReplacementRowIds "merge-adjacent compaction requires source row id metadata" sources newFile
      return [newFile]
    | newFiles =>
      newFiles.mapM fun newFile =>
        if newFile.rowIdStartKnown then .ok newFile
        else
          deriveReplacementRowIds "merge-adjacent compaction replacements require row id metadata"
            (sourcesOfPartition sources sourcePartitionValues
              (partitionKeyFromRows compaction.partitionValues newFile.dataFileId)) newFile

def hasCompleteExplicitMergeVisibility (file : DataFileRow) (coveredSourceCount : Nat) : Bool :=
  file.maxPartialOrder.isSome || (coveredSourceCount ≤ 1 && file.validity.beginOrder ≠ autoOrder)

/-- The begin order is the first listed source's, which need not be the smallest. -/
def applyMergeVisibilityFromSources (sources : List DataFileRow) (newFile : DataFileRow) : DataFileRow :=
  match sources with
  | [] => newFile
  | first :: _ =>
    if sources.all fun source => source.validity.beginOrder = first.validity.beginOrder then
      { newFile with maxPartialOrder := none }
    else
      { newFile.withBeginOrder first.validity.beginOrder with
        maxPartialOrder :=
          if 1 < sources.length then
            (sources.map fun source => source.maxPartialOrder.getD source.validity.beginOrder).max?
          else none }

def applyMergeReplacementVisibility (sources : List DataFileRow) (sourcePartitionValues : List FilePartitionValueRow)
    (compaction : DataFileCompaction) (newFiles : List DataFileRow) : CatalogResult (List DataFileRow) :=
  if sources = [] then .ok newFiles
  else
    newFiles.mapM fun newFile => do
      let key := partitionKeyFromRows compaction.partitionValues newFile.dataFileId
      let covered := sourcesOfPartition sources sourcePartitionValues key
      if newFiles.length ≠ 1 ∧ key ≠ [] ∧ covered = [] then
        .error (.invalidMutation
          s!"merge-adjacent replacement data file {newFile.dataFileId} has partition values that do not match any source file in table {newFile.tableId}")
      else
        let covered := if newFiles.length = 1 ∨ key = [] then sources else covered
        if hasCompleteExplicitMergeVisibility newFile covered.length then return newFile
        else return applyMergeVisibilityFromSources covered newFile

def normalizeMergeReplacements (sources : List DataFileRow) (sourcePartitionValues : List FilePartitionValueRow)
    (compaction : DataFileCompaction) : CatalogResult (List DataFileRow) := do
  rejectNonEmptySourcesWithoutReplacement sources compaction.newFiles
  let newFiles := clearSparseMergeReplacementRowIds sources compaction.newFiles
  let newFiles ← deriveMergeReplacementRowIds sources sourcePartitionValues compaction newFiles
  applyMergeReplacementVisibility sources sourcePartitionValues compaction newFiles

/-! ## Planned batches -/

/-- The window between the read snapshot and the newest one when the batch was received. -/
abbrev ConflictWindow := Option (CatalogOrderId × CatalogOrderId)

/-- Merged statistics of a replacement, by comparing the sources' typed extrema. -/
abbrev MergedStats := CatalogKv → List DataFileRow → DataFileCompaction → List DataFileRow → List FileColumnStatsRow

/-- One compaction of a batch as it enters the data mutation. -/
structure PlannedCompaction where
  newFiles : List DataFileRow
  partitionValues : List FilePartitionValueRow
  fileColumnStats : List FileColumnStatsRow
  sources : List DataFileRow
  expiredDeleteFiles : List FdbExpiredDeleteFile := []
  inlineFileDeletions : List InlineFileDeletionRow := []
  tableId : TableId

def planMerge (mergedStats : MergedStats) (read : CatalogKv) (window : ConflictWindow)
    (compaction : DataFileCompaction) : CatalogResult PlannedCompaction := do
  rejectMergeShape compaction
  rejectSourceDeleteFiles read compaction.sourceFileIds
  let sources ← loadCompactionSources read compaction.sourceFileIds
  let tableId ← compactionTableIdFromSources sources compaction.newFiles
  let sourcePartitionValues := if 1 < compaction.newFiles.length then
    listFilePartitionValuesForDataFiles read
      ((sources.map DataFileRow.dataFileId).dedup.insertionSort (· ≤ ·)) else []
  window.elim (.ok ()) fun window => rejectConflictsSinceBase read tableId window.1 window.2
  let newFiles ← normalizeMergeReplacements sources sourcePartitionValues compaction
  return {
    newFiles, sources, tableId
    partitionValues := compaction.partitionValues
    fileColumnStats := if compaction.fileColumnStats = [] then mergedStats read sources compaction newFiles
      else compaction.fileColumnStats }

def rewriteWithoutDelete (dataFileId : DataFileId) : CatalogError :=
  .invalidMutation s!"data file {dataFileId} has no delete file or inline deletions to rewrite"

/-- A source with a delete file is rewritten by it alone; its inline deletions are not read. -/
def rewriteSourceDeletions (read : CatalogKv) (tableId : TableId) (sources : List DataFileRow) :
    CatalogResult (List FdbExpiredDeleteFile × List InlineFileDeletionRow) :=
  let inlineDeletions := (latestSnapshot read).elim [] fun snapshot =>
    listInlineFileDeletionsAt read tableId snapshot.order
  sources.foldlM
    (fun (expired, inline) source =>
      match read.currentDeleteFile.get? source.dataFileId with
      | some current =>
        match read.deleteFile.get? current.deleteFileId with
        | none => .error (.notFound "delete file")
        | some deleteFile =>
          if deleteFile.deleteFileId ≠ current.deleteFileId then
            .error (.decode
              s!"delete file key {current.deleteFileId} decoded as delete file {deleteFile.deleteFileId}")
          else .ok (expired ++ [⟨source.tableId, deleteFile⟩], inline)
      | none =>
        let rowIds := inlineDeletionsOf inlineDeletions source.dataFileId
        if rowIds = [] then .error (rewriteWithoutDelete source.dataFileId)
        else .ok (expired, inline ++ rowIds.map fun rowId =>
          (⟨tableId, source.dataFileId, rowId, ⟨autoOrder, none⟩⟩ : InlineFileDeletionRow)))
    ([], [])

def normalizeRewriteReplacementRowIdsFromSources (sources newFiles : List DataFileRow) :
    CatalogResult (List DataFileRow) := do
  let sourceStart ← minKnownSourceRowIdStart sources
  let newFiles ← deriveUnknownRewriteReplacementRowIds sources newFiles
  return newFiles.map fun newFile =>
    if newFile.rowIdStartKnown ∧ newFile.rowIdStart < sourceStart then
      { newFile with rowIdStart := saturatingAdd sourceStart newFile.rowIdStart }
    else newFile

def planRewrite (read : CatalogKv) (window : ConflictWindow) (compaction : DataFileCompaction) :
    CatalogResult PlannedCompaction := do
  rejectRewriteShape compaction
  let sources ← loadCompactionSources read compaction.sourceFileIds
  let tableId ← compactionTableIdFromSources sources compaction.newFiles
  window.elim (.ok ()) fun window => do
    rejectConflictsSinceBase read tableId window.1 window.2
    rejectRewriteSourceDeleteConflicts read tableId window.1 window.2 compaction.sourceFileIds
  let (expiredDeleteFiles, inlineFileDeletions) ← rewriteSourceDeletions read tableId sources
  let newFiles ← normalizeRewriteReplacementRowIdsFromSources sources compaction.newFiles
  return {
    newFiles, sources, tableId, expiredDeleteFiles, inlineFileDeletions
    partitionValues := compaction.partitionValues
    fileColumnStats := compactionFileColumnStats read compaction newFiles }

/-- The data mutation of a merge: the sources are dropped and their removal is scheduled. -/
def mergeMutationPlan (attempt : FdbMutationAttempt) (metadata : SnapshotCommitMetadata)
    (planned : List PlannedCompaction) : FdbMutationPlan where
  attempt := attempt
  commitMetadata := metadata
  mutation := {
    dataFiles := planned.flatMap PlannedCompaction.newFiles
    partitionValues := planned.flatMap PlannedCompaction.partitionValues
    fileColumnStats := planned.flatMap PlannedCompaction.fileColumnStats
    droppedDataFileIds := (planned.flatMap PlannedCompaction.sources).map DataFileRow.dataFileId }
  rowIdOverlapPolicy := .trustCompactionReplacementRows
  expiredObjectCleanupPolicy := .schedule .compactionReplacement
  readContext := { dataFiles := planned.flatMap PlannedCompaction.sources }

def rewriteMutationPlan (attempt : FdbMutationAttempt) (metadata : SnapshotCommitMetadata)
    (planned : List PlannedCompaction) : FdbMutationPlan where
  attempt := attempt
  commitMetadata := metadata
  mutation := {
    dataFiles := planned.flatMap PlannedCompaction.newFiles
    partitionValues := planned.flatMap PlannedCompaction.partitionValues
    inlineFileDeletions := planned.flatMap PlannedCompaction.inlineFileDeletions
    fileColumnStats := planned.flatMap PlannedCompaction.fileColumnStats
    droppedDataFileIds := (planned.flatMap PlannedCompaction.sources).map DataFileRow.dataFileId }
  expiredDeleteFiles := planned.flatMap PlannedCompaction.expiredDeleteFiles
  snapshotOperations := planned.map fun compaction => (.rewriteDelete, compaction.tableId)
  rowIdOverlapPolicy := .trustCompactionReplacementRows
  expiredObjectCleanupPolicy := .preserve
  readContext := { dataFiles := planned.flatMap PlannedCompaction.sources }

end DucklakeCatalog.Fdb
