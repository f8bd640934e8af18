import DucklakeCatalog.Fdb.MutationPlan

/-! The transaction of a FoundationDB data mutation and the loop that retries it. -/
namespace DucklakeCatalog.Fdb

open KeyedStore

/-! ## Validation inside the transaction -/

/-- The newest snapshot must be the one the caller captured. -/
def stageSnapshotFence (kv : CatalogKv) (fence : Option CatalogOrderId) : CatalogResult Unit :=
  match fence with
  | none => .ok ()
  | some order =>
    if (kv.snapshot.entries.getLast?).map Prod.fst = some order then .ok ()
    else .error (.invalidMutation "conflict committing data mutation: transaction snapshot fence changed")

def tablesOf (rows : List DataFileRow) : List TableId :=
  (rows.map DataFileRow.tableId).dedup.insertionSort (· ≤ ·)

def rejectAllocatedTableRowIdReuseInTransaction (kv : CatalogKv) (dataFiles : List DataFileRow) :
    CatalogResult Unit :=
  let rows := dataFiles.filter fun row => (dataFileNextRowId row).isSome
  (tablesOf rows).forM fun tableId =>
    let nextRowId := (kv.tableNextRowId.get? tableId).getD 0
    (rows.filter fun row => row.tableId = tableId).forM fun row =>
      if row.rowIdStart < nextRowId then
        .error (.invalidMutation
          s!"conflict committing data mutation: data file {row.dataFileId} row ids [{row.rowIdStart}..{row.rowIdEnd}) reuse allocated row ids below table {tableId} next row id {nextRowId}")
      else .ok ()

/-- Files that a delete file or a drop refers to and that the mutation does not itself append. -/
def targetIds (mutation : FdbDataMutation) : List DataFileId :=
  let proposedIds := mutation.dataFiles.map DataFileRow.dataFileId
  ((mutation.deleteFiles.map DeleteFileRow.dataFileId ++ mutation.droppedDataFileIds).filter fun dataFileId =>
    dataFileId ∉ proposedIds).dedup.insertionSort (· ≤ ·)

def activeTargets (context : MutationDataFileContext) (readOrder : Option CatalogOrderId)
    (mutation : FdbDataMutation) : CatalogResult (List DataFileRow) := do
  let rows ← (targetIds mutation).mapM context.load
  return rows.filter fun row => readOrder.all fun order => decide (row.validity.beginOrder ≤ order)

def rejectNoLongerCurrent (kv : CatalogKv) (row : DataFileRow) : CatalogResult Unit :=
  if (kv.currentDataFile.get? ⟨row.tableId, row.dataFileId⟩).isSome then .ok ()
  else
    .error (.invalidMutation
      s!"conflict committing data mutation: data file {row.dataFileId} is no longer current")

def rejectStalePartition (readOrder : Option CatalogOrderId) (appendPartitions : List FdbAppendPartitionExpectation)
    (table : TableRow) (dataFile : DataFileRow) : CatalogResult Unit :=
  match appendPartitions.find? fun expectation => expectation.dataFileId = dataFile.dataFileId with
  | none =>
    if readOrder.isSome then
      .error (.invalidMutation
        s!"conflict committing data mutation: partition expectation is missing for data file {dataFile.dataFileId}")
    else .ok ()
  | some expectation =>
    if expectation.matchesCurrentTable table then .ok ()
    else
      .error (.invalidMutation
        s!"conflict committing data mutation: table {dataFile.tableId} partition metadata is stale")

def rejectStaleAppends (kv : CatalogKv) (readOrder : Option CatalogOrderId)
    (appendPartitions : List FdbAppendPartitionExpectation) (dataFiles : List DataFileRow) : CatalogResult Unit :=
  (tablesOf dataFiles).forM fun tableId =>
    match kv.currentTableRow.get? tableId with
    | none =>
      .error (.invalidMutation
        (if readOrder.isSome then
          s!"conflict committing data mutation: table {tableId} was dropped after read snapshot"
        else s!"conflict committing data mutation: table {tableId} is not current"))
    | some table =>
      if table.tableId ≠ tableId then
        .error (.decode s!"current table key {tableId} decoded as table {table.tableId}")
      else
        (dataFiles.filter fun dataFile => dataFile.tableId = tableId).forM
          (rejectStalePartition readOrder appendPartitions table)

/-- Only the begin order of the delete file that is current now is compared with the read order. -/
def rejectCurrentDeleteFileAfterRead (kv : CatalogKv) (readOrder : CatalogOrderId) (dataFileId : DataFileId) :
    CatalogResult Unit :=
  match kv.currentDeleteFile.get? dataFileId with
  | none => .ok ()
  | some deleteFile =>
    if readOrder < deleteFile.validity.beginOrder then
      .error (.invalidMutation
        s!"conflict committing data mutation: data file {dataFileId} was deleted from after read snapshot")
    else .ok ()

/-- The delete targets among the active ones, checked only for a caller with a read order. -/
def rejectDeletesAfterRead (kv : CatalogKv) (readOrder : Option CatalogOrderId) (mutation : FdbDataMutation)
    (active : List DataFileRow) : CatalogResult Unit :=
  match readOrder with
  | none => .ok ()
  | some order =>
    let deleteIds := mutation.deleteFiles.map DeleteFileRow.dataFileId
    ((active.map DataFileRow.dataFileId).filter fun dataFileId => dataFileId ∈ deleteIds).forM
      (rejectCurrentDeleteFileAfterRead kv order)

/-- True when the recovery row shows that the mutation has been committed before. -/
def rejectStaleDataFileTargetsInTransaction (store : FdbStore) (recoveryId : Option CommitAttemptId)
    (readContext : FdbMutationReadContext) (prepared : PreparedDataMutation) : CatalogResult Bool := do
  let active ← activeTargets prepared.dataFileContext readContext.order prepared.mutation
  if recoveryId.any fun recoveryId => (store.commitAttempt.get? recoveryId).isSome then
    return true
  else
    active.forM (rejectNoLongerCurrent store.kv)
    rejectStaleAppends store.kv readContext.order readContext.appendPartitions prepared.mutation.dataFiles
    rejectDeletesAfterRead store.kv readContext.order prepared.mutation active
    return false

def rejectDuplicateFileIds (kind : String) (fileIds : List Nat) : CatalogResult Unit := do
  let _ ← fileIds.foldlM
    (fun seen fileId =>
      if fileId ∈ seen then
        .error (.invalidMutation
          s!"conflict committing data mutation: {kind} file id {fileId} is duplicated in the mutation")
      else .ok (fileId :: seen))
    ([] : List Nat)
  return ()

def rejectExistingFileIds (kv : CatalogKv) (mutation : FdbDataMutation) : CatalogResult Unit := do
  rejectDuplicateFileIds "data" (mutation.dataFiles.map DataFileRow.dataFileId)
  rejectDuplicateFileIds "delete" (mutation.deleteFiles.map DeleteFileRow.deleteFileId)
  mutation.dataFiles.forM fun row =>
    if (kv.dataFile.get? row.dataFileId).isSome then
      .error (.invalidMutation s!"conflict committing data mutation: data file id {row.dataFileId} already exists")
    else .ok ()
  mutation.deleteFiles.forM fun row =>
    if (kv.deleteFile.get? row.deleteFileId).isSome then
      .error (.invalidMutation s!"conflict committing data mutation: delete file id {row.deleteFileId} already exists")
    else .ok ()

/-! ## Staging -/

def mutationSnapshot (now : Int) (order : CatalogOrderId) (sequence : RawSnapshotSequence)
    (metadata : SnapshotCommitMetadata) : SnapshotRow :=
  { order, sequence, createdAtMicros := now
    createdBy := metadata.author.getD "aux-ducklake"
    commitMessage := metadata.commitMessage
    commitExtraInfo := metadata.commitExtraInfo }

def stageFilePartitionValues (context : MutationDataFileContext) (kv : CatalogKv)
    (rows : List FilePartitionValueRow) : CatalogResult CatalogKv :=
  rows.foldlM (fun kv row => do return stageFilePartitionValue kv row (← context.load row.dataFileId)) kv

/-- A delete file of a file in the same mutation takes its own begin order in the timeline. -/
def deleteFileTimelineOrderForCommit (dataFiles : List DataFileRow) (row : DeleteFileRow) : CatalogOrderId :=
  if row.dataFileId ∈ dataFiles.map DataFileRow.dataFileId then row.validity.beginOrder else autoOrder

def stageDeleteFiles (seen : CatalogKv) (now : Int) (order : CatalogOrderId) (prepared : PreparedDataMutation)
    (kv : CatalogKv) : CatalogResult CatalogKv := do
  let staging ← prepared.mutation.deleteFiles.foldlM
    (fun (staging : DeleteFileStaging) row => do
      let dataFile ← prepared.dataFileContext.load row.dataFileId
      stageDeleteFileWithoutWatermark seen now order staging dataFile row
        (deleteFileTimelineOrderForCommit prepared.mutation.dataFiles row))
    { kv }
  return staging.kv

def fileIdWatermarkCandidates (prepared : PreparedDataMutation) : List Nat :=
  prepared.mutation.dataFiles.map DataFileRow.dataFileId ++
    (prepared.mutation.deleteFiles.map DeleteFileRow.deleteFileId ++
      if prepared.mutation.inlineFileDeletions = [] then [] else [prepared.snapshotSequence])

def stageDroppedDataFiles (seen : CatalogKv) (now : Int) (order : CatalogOrderId)
    (policy : ExpiredObjectCleanupPolicy) (context : MutationDataFileContext) (droppedIds : List DataFileId)
    (kv : CatalogKv) : CatalogResult CatalogKv := do
  let rows ← droppedIds.mapM context.load
  return rows.foldl
    (fun kv row =>
      let kv := stageExpiredDataFile seen order kv row
      match policy with
      | .schedule cleanupKind => stageScheduledDataFileCleanup now kv cleanupKind row.dataFileId
      | .preserve => kv)
    kv

def stageExpiredDeleteFiles (seen : CatalogKv) (now : Int) (order : CatalogOrderId)
    (policy : ExpiredObjectCleanupPolicy) (expired : List FdbExpiredDeleteFile) (kv : CatalogKv) : CatalogKv :=
  expired.foldl
    (fun kv expired =>
      let kv := stageExpiredDeleteFile seen order kv expired.tableId expired.deleteFile
      match policy with
      | .schedule _ => stageScheduledDeleteFileCleanup now kv expired.tableId expired.deleteFile.deleteFileId
      | .preserve => kv)
    kv

/-- The files of the mutation: what it appends, deletes from and drops. -/
def stageMutationFiles (seen : CatalogKv) (now : Int) (order : CatalogOrderId) (plan : FdbMutationPlan)
    (prepared : PreparedDataMutation) (kv : CatalogKv) : CatalogResult CatalogKv := do
  let mutation := prepared.mutation
  let kv ← stageDataFiles order kv mutation.dataFiles
  let kv ← stageFilePartitionValues prepared.dataFileContext kv mutation.partitionValues
  let kv := stageFileStatsVersions order (mutation.fileColumnStats.foldl stageFileColumnStats kv) mutation.fileColumnStats
  let kv ← stageDeleteFiles seen now order prepared kv
  let kv := mutation.inlineFileDeletions.foldl (stageInlineFileDeletion order) kv
  let kv := (fileIdWatermarkCandidates prepared).max?.elim kv (stageMaxFileIdWatermark kv)
  let kv ← stageDroppedDataFiles seen now order plan.expiredObjectCleanupPolicy prepared.dataFileContext
    mutation.droppedDataFileIds kv
  return stageExpiredDeleteFiles seen now order plan.expiredObjectCleanupPolicy plan.expiredDeleteFiles kv

def stageCommitAttempt (order : CatalogOrderId) (recoveryId : Option CommitAttemptId) (store : FdbStore) : FdbStore :=
  recoveryId.elim store fun recoveryId =>
    { store with commitAttempt := store.commitAttempt.insert recoveryId order }

def stageOptionalInlineMutation (order : CatalogOrderId) (prepared : Option PreparedInlineMutation)
    (store : FdbStore) : CatalogResult FdbStore :=
  match prepared with
  | none => .ok store
  | some prepared => stagePreparedInlineMutation order store prepared

/-- Everything that follows once the mutation is accepted. -/
def stageAcceptedMutation (seen : CatalogKv) (now : Int) (order : CatalogOrderId) (recoveryId : Option CommitAttemptId)
    (plan : FdbMutationPlan) (prepared : PreparedDataMutation) (store : FdbStore) : CatalogResult FdbStore := do
  let store := stageCommitAttempt order recoveryId store
  let snapshot := mutationSnapshot now order prepared.snapshotSequence plan.commitMetadata
  let store := { store with kv := stageSnapshot store.kv snapshot }
  let store ← stageOptionalInlineMutation order prepared.inlineMutation store
  let kv := plan.snapshotOperations.foldl (stageSnapshotOperation order) store.kv
  let kv ← stageMutationFiles seen now order plan prepared kv
  return { store with kv := { kv with nextOrder := order } }

/-- What the transaction is about to commit, or why it stops without an error. -/
inductive StagedMutation where
  | recovered
  | flushSuperseded
  | staged (store : FdbStore)

/-- A mutation that drops files has compared its row ids with the current files before. -/
def validatesWithRowIdWatermark (plan : FdbMutationPlan) : Bool :=
  shouldRejectCurrentRowIdOverlaps plan.rowIdOverlapPolicy plan.mutation.inlineFlushes &&
    plan.mutation.droppedDataFileIds.isEmpty

def rejectRowIdReuse (kv : CatalogKv) (plan : FdbMutationPlan) (dataFiles : List DataFileRow) : CatalogResult Unit :=
  if validatesWithRowIdWatermark plan then rejectAllocatedTableRowIdReuseInTransaction kv dataFiles else .ok ()

def conflictFenceChanged : CatalogError := .invalidMutation "conflict fence changed"

/-- An unfenced mutation whose flushes another flush has overtaken stops here as a whole. -/
def stageValidatedMutation (seen : CatalogKv) (now : Int) (recoveryId : Option CommitAttemptId)
    (plan : FdbMutationPlan) (prepared : PreparedDataMutation) (store : FdbStore) : CatalogResult StagedMutation :=
  match stagePreparedInlineFlushes store.commitOrder store prepared.inlineFlushes with
  | none => if plan.readContext.snapshotFence.isSome then .error conflictFenceChanged else .ok .flushSuperseded
  | some (flushed, items) =>
    if plan.mutation.inlineFlushes ≠ [] ∧ items = 0 then
      if plan.readContext.snapshotFence.isSome then
        .error (.invalidMutation "conflict committing fenced mutation: inline flush staged no rows")
      else .ok .flushSuperseded
    else do
      rejectExistingFileIds store.kv prepared.mutation
      return .staged (← stageAcceptedMutation seen now store.commitOrder recoveryId plan prepared flushed)

def stageDataMutation (seen : FdbStore) (now : Int) (recoveryId : Option CommitAttemptId) (plan : FdbMutationPlan)
    (prepared : PreparedDataMutation) (store : FdbStore) : CatalogResult StagedMutation := do
  stageSnapshotFence store.kv plan.readContext.snapshotFence
  rejectRowIdReuse store.kv plan prepared.mutation.dataFiles
  let recovered ← rejectStaleDataFileTargetsInTransaction store recoveryId plan.readContext prepared
  if recovered then return .recovered else stageValidatedMutation seen.kv now recoveryId plan prepared store

/-! ## Attempts -/

/-- One attempt at a plan: the state its preparation reads, the file ids it was given and the time it stages at. -/
structure MutationAttempt where
  plan : FdbMutationPlan
  recoveryId : Option CommitAttemptId
  seen : FdbStore
  firstFileId : Nat := 0
  now : Int := 0

def MutationAttempt.reserved (attempt : MutationAttempt) : CatalogResult FdbMutationPlan :=
  reserveMutationFileIds attempt.firstFileId attempt.plan

/-- The transaction of the attempt when it commits on the given state. -/
def MutationAttempt.transact (attempt : MutationAttempt) (store : FdbStore) : CatalogResult StagedMutation := do
  let plan ← attempt.reserved
  let prepared ← prepareDataMutation attempt.seen plan
  stageDataMutation attempt.seen attempt.now attempt.recoveryId plan prepared store

inductive FoundationDbErrorClass where
  | maybeCommitted
  | retryableNotCommitted
  | retryable
  | nonRetryable
  deriving DecidableEq

/-- What FoundationDB answers to a commit, and whether the writes have landed
where the answer leaves that open. -/
inductive CommitReport where
  | committed
  | notCommitted
  | failed (errorClass : FoundationDbErrorClass) (uncertain : errorClass ≠ .retryableNotCommitted) (landed : Bool)

def CommitReport.landed : CommitReport → Bool
  | .committed => true
  | .notCommitted => false
  | .failed _ _ landed => landed

def CommitReport.errorClass : CommitReport → Option FoundationDbErrorClass
  | .committed => none
  | .notCommitted => some .retryableNotCommitted
  | .failed errorClass _ _ => some errorClass

inductive MutationFailureAction where
  | recoverMaybeCommitted
  | retry
  | returnError
  deriving DecidableEq

def maxMutationCommitRetries : Nat := 3

def mutationFailureAction (errorClass : FoundationDbErrorClass) (attemptIndex : Nat) : MutationFailureAction :=
  match errorClass with
  | .maybeCommitted => .recoverMaybeCommitted
  | .retryableNotCommitted => if attemptIndex < maxMutationCommitRetries then .retry else .returnError
  | .retryable | .nonRetryable => .returnError

inductive MutationCommitAttempt where
  | done (commit : DataMutationCommit)
  | retry (error : CatalogError)
  deriving DecidableEq

def recoverCommittedMutation (store : FdbStore) (recoveryId : Option CommitAttemptId) : Option DataMutationCommit :=
  if recoveryId.any fun recoveryId => (store.commitAttempt.get? recoveryId).isSome then some {} else none

def foundationDbError : CatalogError := .invalidMutation "foundationdb commit failed"

/-- The answer of an attempt whose commit failed; the recovery row is read afterwards. -/
def failedCommitAnswer (plan : FdbMutationPlan) (recoveryId : Option CommitAttemptId) (attemptIndex : Nat)
    (errorClass : FoundationDbErrorClass) (afterwards : FdbStore) : CatalogResult MutationCommitAttempt :=
  if plan.readContext.snapshotFence = none ∧ plan.mutation.inlineFlushes ≠ [] ∧
      errorClass = .retryableNotCommitted then
    .ok (.done {})
  else
    match mutationFailureAction errorClass attemptIndex with
    | .recoverMaybeCommitted =>
      match recoverCommittedMutation afterwards recoveryId with
      | some commit => .ok (.done commit)
      | none => .error foundationDbError
    | .retry => .ok (.retry foundationDbError)
    | .returnError => .error foundationDbError

/-- The rows of a successful commit with the orders they were given. -/
def committedMutation (plan : FdbMutationPlan) (order : CatalogOrderId) : DataMutationCommit :=
  let mutation := FdbDataMutation.prepared plan.mutation
  { dataFiles := mutation.dataFiles.map fun row =>
      match row.maxPartialOrder with
      | some partialOrder => { row with maxPartialOrder := some (resolveOrder order partialOrder) }
      | none => row.withBeginOrder order
    deleteFiles := mutation.deleteFiles.map fun row =>
      { row.withBeginOrder (resolveOrder order row.validity.beginOrder) with
        maxPartialOrder := row.maxPartialOrder.map (resolveOrder order) }
    partitionValueCount := mutation.partitionValues.length
    fileColumnStatsCount := mutation.fileColumnStats.length
    flushedInlineCount := mutation.inlineFlushes.length
    inlineFileDeletionCount := mutation.inlineFileDeletions.length
    droppedDataFileCount := mutation.droppedDataFileIds.length }

end DucklakeCatalog.Fdb
