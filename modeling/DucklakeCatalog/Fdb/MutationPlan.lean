import DucklakeCatalog.Fdb.InlineFlush
import DucklakeCatalog.Fdb.InlineTables

/-! What a FoundationDB data mutation commits and what it reads before its
transaction starts. -/
namespace DucklakeCatalog.Fdb

open KeyedStore

structure SnapshotCommitMetadata where
  author : Option String := none
  commitMessage : Option String := none
  commitExtraInfo : Option String := none
  deriving DecidableEq

structure FdbExpiredDeleteFile where
  tableId : TableId
  deleteFile : DeleteFileRow
  deriving DecidableEq

inductive ExpiredObjectCleanupPolicy where
  | schedule (cleanupKind : ScheduledDataFileCleanupKind)
  | preserve
  deriving DecidableEq

inductive RowIdOverlapPolicy where
  | rejectCurrentOverlaps
  | trustCompactionReplacementRows
  deriving DecidableEq

/-- The same seven lists as the mutations of the generic store. -/
abbrev FdbDataMutation := DataMutationInput

def FdbDataMutation.isEmpty (mutation : FdbDataMutation) : Bool :=
  mutation.dataFiles.isEmpty && mutation.deleteFiles.isEmpty && mutation.inlineFlushes.isEmpty &&
    mutation.partitionValues.isEmpty && mutation.inlineFileDeletions.isEmpty &&
    mutation.fileColumnStats.isEmpty && mutation.droppedDataFileIds.isEmpty

structure FdbAppendPartitionExpectation where
  dataFileId : DataFileId
  tableId : TableId
  partitionTableId : Option TableId := none
  partitionId : Option Nat := none
  valueCount : Nat := 0
  deriving DecidableEq

def FdbAppendPartitionExpectation.matchesCurrentTable (expectation : FdbAppendPartitionExpectation)
    (table : TableRow) : Bool :=
  table.tableId = expectation.tableId &&
    match table.partition with
    | some partition =>
      expectation.partitionTableId = some expectation.tableId &&
        expectation.partitionId = some partition.partitionId &&
        expectation.valueCount = partition.fields.length
    | none =>
      expectation.partitionTableId.isNone && expectation.partitionId.isNone && expectation.valueCount = 0

/-- What the caller read: the snapshot fence holds the order of the newest snapshot it accepts. -/
structure FdbMutationReadContext where
  snapshotFence : Option CatalogOrderId := none
  order : Option CatalogOrderId := none
  dataFiles : List DataFileRow := []
  appendPartitions : List FdbAppendPartitionExpectation := []
  deriving DecidableEq

structure FdbMutationAttempt where
  proposedSnapshot : Option Nat := none
  recovery : Option CommitAttemptId := none
  deriving DecidableEq

structure FdbMutationPlan where
  attempt : FdbMutationAttempt := {}
  commitMetadata : SnapshotCommitMetadata := {}
  mutation : FdbDataMutation := {}
  expiredDeleteFiles : List FdbExpiredDeleteFile := []
  snapshotOperations : List (SnapshotOperationKind × TableId) := []
  rowIdOverlapPolicy : RowIdOverlapPolicy := .rejectCurrentOverlaps
  expiredObjectCleanupPolicy : ExpiredObjectCleanupPolicy := .schedule .unreachableOnly
  readContext : FdbMutationReadContext := {}
  inlineMutation : FdbInlineMutation := {}
  deriving DecidableEq

def FdbMutationPlan.isEmpty (plan : FdbMutationPlan) : Bool :=
  FdbDataMutation.isEmpty plan.mutation && plan.expiredDeleteFiles.isEmpty && plan.inlineMutation.isEmpty

/-! ## File ids -/

/-- One transaction of its own takes the ids after the file id watermark. -/
def reserveFileIdRange (store : FdbStore) (count : Nat) : CatalogResult (Nat × FdbStore) :=
  let first := (store.kv.conflictMaxFileId.get? ()).elim 0 fun value => saturatingAdd value 1
  let last := first + (count - 1)
  if u64Max < last then
    .error (.invalidMutation "file ID range overflow")
  else
    .ok (first, { store with
      kv := { store.kv with
        conflictMaxFileId := store.kv.conflictMaxFileId.insert () last
        nextOrder := store.commitOrder } })

def proposedFileIds (mutation : FdbDataMutation) : CatalogResult (List Nat) :=
  let proposed := mutation.dataFiles.map DataFileRow.dataFileId ++ mutation.deleteFiles.map DeleteFileRow.deleteFileId
  if proposed.Nodup then
    .ok (proposed.insertionSort (· ≤ ·))
  else
    .error (.invalidMutation "data mutation proposes duplicate file IDs")

def fileIdRemaps (first : Nat) (proposed : List Nat) : OrderedMap Nat Nat :=
  proposed.zipIdx.foldl (fun remaps entry => remaps.insert entry.1 (first + entry.2)) .empty

def remapFileId (remaps : OrderedMap Nat Nat) (fileId : Nat) : Nat := (remaps.get? fileId).getD fileId

/-- Data files and delete files share one table of new ids; dropped files keep theirs. -/
def remapMutationFileIds (remaps : OrderedMap Nat Nat) (mutation : FdbDataMutation) : FdbDataMutation :=
  { mutation with
    dataFiles := mutation.dataFiles.map fun row => { row with dataFileId := remapFileId remaps row.dataFileId }
    deleteFiles := mutation.deleteFiles.map fun row =>
      { row with
        deleteFileId := remapFileId remaps row.deleteFileId
        dataFileId := remapFileId remaps row.dataFileId }
    partitionValues := mutation.partitionValues.map fun row =>
      { row with dataFileId := remapFileId remaps row.dataFileId }
    inlineFileDeletions := mutation.inlineFileDeletions.map fun row =>
      { row with dataFileId := remapFileId remaps row.dataFileId }
    fileColumnStats := mutation.fileColumnStats.map fun row =>
      { row with dataFileId := remapFileId remaps row.dataFileId } }

/-- The plan under the ids reserved from the given first id on. -/
def reserveMutationFileIds (first : Nat) (plan : FdbMutationPlan) : CatalogResult FdbMutationPlan := do
  let proposed ← proposedFileIds plan.mutation
  if proposed = [] then
    return plan
  else
    let remaps := fileIdRemaps first proposed
    return { plan with
      mutation := remapMutationFileIds remaps plan.mutation
      readContext := { plan.readContext with
        appendPartitions := plan.readContext.appendPartitions.map fun expectation =>
          { expectation with dataFileId := remapFileId remaps expectation.dataFileId } } }

/-! ## Data files the mutation refers to -/

abbrev MutationDataFileContext := OrderedMap DataFileId DataFileRow

def loadMissingDataFiles (seen : CatalogKv) (context : MutationDataFileContext) (referencedIds : List DataFileId) :
    CatalogResult MutationDataFileContext :=
  ((referencedIds.dedup.insertionSort (· ≤ ·)).filter fun dataFileId => (context.get? dataFileId).isNone).foldlM
    (fun context dataFileId =>
      match seen.dataFile.get? dataFileId with
      | none => .error (.notFound "data file")
      | some row =>
        if row.dataFileId ≠ dataFileId then
          .error (.decode s!"data file key {dataFileId} decoded as data file {row.dataFileId}")
        else .ok (context.insert dataFileId row))
    context

/-- Proposed rows first, then the rows the caller loaded already. -/
def MutationDataFileContext.known (proposed preloaded : List DataFileRow) : MutationDataFileContext :=
  preloaded.foldl
    (fun context row => if (context.get? row.dataFileId).isSome then context else context.insert row.dataFileId row)
    (proposed.foldl (fun context row => context.insert row.dataFileId row) .empty)

def MutationDataFileContext.load (context : MutationDataFileContext) (dataFileId : DataFileId) :
    CatalogResult DataFileRow :=
  (context.get? dataFileId).elim (.error (.notFound "data file")) .ok

def mutationDataFileReferenceIds (mutation : FdbDataMutation) : List DataFileId :=
  mutation.partitionValues.map FilePartitionValueRow.dataFileId ++
    (mutation.deleteFiles.map DeleteFileRow.dataFileId ++ mutation.droppedDataFileIds)

/-! ## Preparation -/

structure PreparedDataMutation where
  snapshotSequence : RawSnapshotSequence
  mutation : FdbDataMutation
  dataFileContext : MutationDataFileContext
  inlineFlushes : List PreparedInlineFlush
  inlineMutation : Option PreparedInlineMutation

def shouldRejectCurrentRowIdOverlaps (policy : RowIdOverlapPolicy) (inlineFlushes : List InlineTableFlush) : Bool :=
  policy = .rejectCurrentOverlaps && inlineFlushes.isEmpty

def mutationSnapshotSequence (latest : Option SnapshotRow) (proposedSnapshot : Option Nat) :
    CatalogResult RawSnapshotSequence :=
  match proposedSnapshot with
  | some requested =>
    if u64Max < requested then
      .error (.invalidMutation s!"ducklake snapshot id {requested} is too large for aux catalog snapshots")
    else
      .ok (latest.elim requested fun snapshot =>
        if snapshot.sequence ≤ requested then requested else saturatingAdd snapshot.sequence 1)
  | none => .ok (latest.elim 0 fun snapshot => saturatingAdd snapshot.sequence 1)

/-- The row id checks that come before the transaction. -/
def rejectPreparedRowIdOverlaps (seen : CatalogKv) (plan : FdbMutationPlan) : CatalogResult Unit :=
  if shouldRejectCurrentRowIdOverlaps plan.rowIdOverlapPolicy plan.mutation.inlineFlushes then
    if plan.mutation.droppedDataFileIds = [] then
      rejectProposedDataFileRowIdOverlaps plan.mutation.dataFiles
    else
      rejectCurrentDataFileRowIdOverlapsExcept seen plan.mutation.dataFiles plan.mutation.droppedDataFileIds
  else .ok ()

def preparedDataFile (row : DataFileRow) : DataFileRow :=
  if row.maxPartialOrder.isSome then row.withEndOrder none else { row with validity := ⟨autoOrder, none⟩ }

/-- A delete file may name the order it begins at; the zero order leaves it to the commit. -/
def prepareDeleteFileForVersionstampedCommit (row : DeleteFileRow) : DeleteFileRow := row.withEndOrder none

/-- The mutation with the orders it will be staged with. -/
def FdbDataMutation.prepared (mutation : FdbDataMutation) : FdbDataMutation :=
  { mutation with
    dataFiles := mutation.dataFiles.map preparedDataFile
    deleteFiles := mutation.deleteFiles.map prepareDeleteFileForVersionstampedCommit
    inlineFileDeletions := mutation.inlineFileDeletions.map fun row => { row with validity := ⟨autoOrder, none⟩ } }

def prepareInlineMutation (seen : FdbStore) (plan : FdbMutationPlan) :
    CatalogResult (Option PreparedInlineMutation) :=
  if plan.inlineMutation.isEmpty then .ok none
  else if plan.attempt.proposedSnapshot.any fun snapshot => decide (u64Max < snapshot) then
    .error (.decode "commit snapshot exceeds u64")
  else
    (prepareInlineTableMutation seen plan.inlineMutation plan.attempt.proposedSnapshot none).map some

def prepareDataMutation (seen : FdbStore) (plan : FdbMutationPlan) : CatalogResult PreparedDataMutation := do
  let latest := latestSnapshot seen.kv
  let inlineMutation ← prepareInlineMutation seen plan
  rejectPreparedRowIdOverlaps seen.kv plan
  let snapshotSequence ← mutationSnapshotSequence latest plan.attempt.proposedSnapshot
  let mutation := FdbDataMutation.prepared plan.mutation
  let known := MutationDataFileContext.known mutation.dataFiles plan.readContext.dataFiles
  let inlineFlushes ← prepareInlineFlushes seen plan.mutation.inlineFlushes
  let dataFileContext ← loadMissingDataFiles seen.kv known (mutationDataFileReferenceIds mutation)
  return { snapshotSequence, mutation, dataFileContext, inlineFlushes, inlineMutation }

end DucklakeCatalog.Fdb
