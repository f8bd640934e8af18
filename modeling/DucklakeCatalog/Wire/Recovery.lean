import DucklakeCatalog.Wire.Rows

/-! The recovery id of a FoundationDB data mutation. A client whose commit may
have landed looks for a commit attempt under this id before it tries again. -/
namespace DucklakeCatalog.Wire

open ByteCodec

structure SnapshotCommitMetadata where
  author : Option String := none
  commitMessage : Option String := none
  commitExtraInfo : Option String := none
  deriving DecidableEq

structure InlineTableFlush where
  tableId : UInt64
  schemaId : UInt64
  flushSnapshotSequence : UInt64
  flushInlineData : Bool
  deriving DecidableEq

structure FdbDataMutation where
  dataFiles : List DataFileRow := []
  deleteFiles : List DeleteFileRow := []
  inlineFlushes : List InlineTableFlush := []
  partitionValues : List FilePartitionValueRow := []
  inlineFileDeletions : List InlineFileDeletionRow := []
  fileColumnStats : List FileColumnStatsRow := []
  droppedDataFileIds : List UInt64 := []
  deriving DecidableEq

structure FdbExpiredDeleteFile where
  tableId : UInt64
  deleteFile : DeleteFileRow
  deriving DecidableEq

inductive SnapshotOperationKind
  | inlineFlush
  | rewriteDelete
  deriving DecidableEq

def snapshotOperationHashTag : SnapshotOperationKind → UInt8
  | .inlineFlush => 2
  | .rewriteDelete => 1

structure InlineTablePayload where
  tableId : UInt64
  schemaId : UInt64
  payload : Bytes
  deriving DecidableEq

structure InlineTableDeletePayload where
  tableId : UInt64
  schemaId : UInt64
  rowIds : List UInt64
  deriving DecidableEq

structure FdbInlineMutation where
  tables : List TableRow := []
  payloads : List InlineTablePayload := []
  deletes : List InlineTableDeletePayload := []
  deriving DecidableEq

/-- What the recovery id of a plan is computed from. -/
structure FdbMutationPlan where
  proposedSnapshot : Option (BitVec 128)
  commitMetadata : SnapshotCommitMetadata := {}
  mutation : FdbDataMutation := {}
  expiredDeleteFiles : List FdbExpiredDeleteFile := []
  snapshotOperations : List (SnapshotOperationKind × UInt64) := []
  inlineMutation : FdbInlineMutation := {}
  deriving DecidableEq

/-! ## The hashed stream -/

def writeBytesWithLen (bytes : Bytes) : Bytes := sizedBytes 8 bytes

def writeOptionalString (value : Option String) : Bytes :=
  optionBytes [] (fun text => writeBytesWithLen (utf8 text)) value

def InlineTableFlush.hashed (flush : InlineTableFlush) : UInt64 × UInt64 × UInt64 :=
  (flush.tableId, flush.schemaId, flush.flushSnapshotSequence)

def writeFlush (flush : UInt64 × UInt64 × UInt64) : Bytes :=
  u64Bytes flush.1 ++ u64Bytes flush.2.1 ++ u64Bytes flush.2.2

def FdbExpiredDeleteFile.hashed (expired : FdbExpiredDeleteFile) : UInt64 × Bytes :=
  (expired.tableId, expired.deleteFile.encode)

def writeExpired (expired : UInt64 × Bytes) : Bytes :=
  u64Bytes expired.1 ++ writeBytesWithLen expired.2

def writeSnapshotOperation (operation : SnapshotOperationKind × UInt64) : Bytes :=
  snapshotOperationHashTag operation.1 :: u64Bytes operation.2

def writePayload (payload : InlineTablePayload) : Bytes :=
  u64Bytes payload.tableId ++ u64Bytes payload.schemaId ++ writeBytesWithLen payload.payload

/-- The row ids follow one another without a count. -/
def writeDelete (delete : InlineTableDeletePayload) : Bytes :=
  u64Bytes delete.tableId ++ u64Bytes delete.schemaId ++ delete.rowIds.flatMap u64Bytes

def writeDeletes (deletes : List InlineTableDeletePayload) : Bytes := sectionBytes 13 writeDelete deletes

/-! The sections of the stream, each together with the sections after it. -/

section Sections

variable (plan : FdbMutationPlan)

def fromTag12 : Bytes :=
  sectionBytes 12 writePayload plan.inlineMutation.payloads ++ writeDeletes plan.inlineMutation.deletes

def fromTag11 : Bytes :=
  sectionBytes 11 writeBytesWithLen (plan.inlineMutation.tables.map TableRow.encode) ++ fromTag12 plan

def fromTag10 : Bytes := sectionBytes 10 writeSnapshotOperation plan.snapshotOperations ++ fromTag11 plan

def fromTag9 : Bytes :=
  sectionBytes 9 writeExpired (plan.expiredDeleteFiles.map FdbExpiredDeleteFile.hashed) ++ fromTag10 plan

def fromTag8 : Bytes := sectionBytes 8 u64Bytes plan.mutation.droppedDataFileIds ++ fromTag9 plan

def fromTag7 : Bytes :=
  sectionBytes 7 writeBytesWithLen (plan.mutation.fileColumnStats.map FileColumnStatsRow.encode) ++ fromTag8 plan

def fromTag6 : Bytes :=
  sectionBytes 6 writeBytesWithLen (plan.mutation.inlineFileDeletions.map InlineFileDeletionRow.encode) ++ fromTag7 plan

def fromTag5 : Bytes :=
  sectionBytes 5 writeBytesWithLen (plan.mutation.partitionValues.map FilePartitionValueRow.encode) ++ fromTag6 plan

def fromTag4 : Bytes :=
  sectionBytes 4 writeFlush (plan.mutation.inlineFlushes.map InlineTableFlush.hashed) ++ fromTag5 plan

def fromTag3 : Bytes :=
  sectionBytes 3 writeBytesWithLen (plan.mutation.deleteFiles.map DeleteFileRow.encode) ++ fromTag4 plan

def fromTag2 : Bytes :=
  sectionBytes 2 writeBytesWithLen (plan.mutation.dataFiles.map DataFileRow.encode) ++ fromTag3 plan

end Sections

/-- The bytes that `mutation_recovery_attempt_id` feeds to its hash. -/
def recoveryFeed (snapshotId : BitVec 128) (plan : FdbMutationPlan) : Bytes :=
  beBytes 16 snapshotId.toNat ++ ([1] ++ (writeOptionalString plan.commitMetadata.author ++
    (writeOptionalString plan.commitMetadata.commitMessage ++
    (writeOptionalString plan.commitMetadata.commitExtraInfo ++ fromTag2 plan))))

def FdbMutationPlan.recoveryFeed? (plan : FdbMutationPlan) : Option Bytes :=
  plan.proposedSnapshot.map fun snapshotId => recoveryFeed snapshotId plan

namespace Fnv1a64

def offset : UInt64 := 0xcbf29ce484222325

def prime : UInt64 := 0x100000001b3

def writeBytes (hash : UInt64) (bytes : Bytes) : UInt64 :=
  bytes.foldl (fun hash byte => (hash ^^^ byte.toUInt64) * prime) hash

end Fnv1a64

def mutationRecoveryAttemptId (plan : FdbMutationPlan) : Option (BitVec 128) :=
  plan.proposedSnapshot.map fun snapshotId : BitVec 128 =>
    (snapshotId <<< (64 : Nat)) ^^^ ((Fnv1a64.writeBytes Fnv1a64.offset (recoveryFeed snapshotId plan)).toBitVec.setWidth 128)

/-! ## What the stream tells apart -/

/-- A byte vector that can exist in memory, so its length fits `u64`. -/
def Allocated (bytes : Bytes) : Prop := bytes.length < 256 ^ 8

/-- Every byte vector the hash is fed with can exist in memory. -/
structure FdbMutationPlan.Allocated (plan : FdbMutationPlan) : Prop where
  author : ∀ text ∈ plan.commitMetadata.author, Wire.Allocated (utf8 text)
  commitMessage : ∀ text ∈ plan.commitMetadata.commitMessage, Wire.Allocated (utf8 text)
  commitExtraInfo : ∀ text ∈ plan.commitMetadata.commitExtraInfo, Wire.Allocated (utf8 text)
  dataFiles : ∀ row ∈ plan.mutation.dataFiles, Wire.Allocated row.encode
  deleteFiles : ∀ row ∈ plan.mutation.deleteFiles, Wire.Allocated row.encode
  partitionValues : ∀ row ∈ plan.mutation.partitionValues, Wire.Allocated row.encode
  fileColumnStats : ∀ row ∈ plan.mutation.fileColumnStats, Wire.Allocated row.encode
  expiredDeleteFiles : ∀ expired ∈ plan.expiredDeleteFiles, Wire.Allocated expired.deleteFile.encode
  tables : ∀ table ∈ plan.inlineMutation.tables, Wire.Allocated table.encode
  payloads : ∀ payload ∈ plan.inlineMutation.payloads, Wire.Allocated payload.payload

/-- Two plans that agree in everything the stream holds: rows by their encoding,
flushes without their flag, and inline deletes only as one run of bytes. -/
structure FdbMutationPlan.SameHashed (left right : FdbMutationPlan) : Prop where
  proposedSnapshot : left.proposedSnapshot = right.proposedSnapshot
  commitMetadata : left.commitMetadata = right.commitMetadata
  dataFiles : left.mutation.dataFiles.map DataFileRow.encode = right.mutation.dataFiles.map DataFileRow.encode
  deleteFiles : left.mutation.deleteFiles.map DeleteFileRow.encode =
    right.mutation.deleteFiles.map DeleteFileRow.encode
  inlineFlushes : left.mutation.inlineFlushes.map InlineTableFlush.hashed =
    right.mutation.inlineFlushes.map InlineTableFlush.hashed
  partitionValues : left.mutation.partitionValues.map FilePartitionValueRow.encode =
    right.mutation.partitionValues.map FilePartitionValueRow.encode
  inlineFileDeletions : left.mutation.inlineFileDeletions = right.mutation.inlineFileDeletions
  fileColumnStats : left.mutation.fileColumnStats.map FileColumnStatsRow.encode =
    right.mutation.fileColumnStats.map FileColumnStatsRow.encode
  droppedDataFileIds : left.mutation.droppedDataFileIds = right.mutation.droppedDataFileIds
  expiredDeleteFiles : left.expiredDeleteFiles.map FdbExpiredDeleteFile.hashed =
    right.expiredDeleteFiles.map FdbExpiredDeleteFile.hashed
  snapshotOperations : left.snapshotOperations = right.snapshotOperations
  tables : left.inlineMutation.tables.map TableRow.encode = right.inlineMutation.tables.map TableRow.encode
  payloads : left.inlineMutation.payloads = right.inlineMutation.payloads
  deletes : writeDeletes left.inlineMutation.deletes = writeDeletes right.inlineMutation.deletes

theorem writeBytesWithLen_delimits : SelfDelimitingOn {bytes | Allocated bytes} writeBytesWithLen :=
  sizedBytes_delimits 8

theorem writeOptionalString_delimits :
    SelfDelimitingOn {value | ∀ text ∈ value, Allocated (utf8 text)} writeOptionalString := by
  have text : SelfDelimitingOn {text | Allocated (utf8 text)} fun text => writeBytesWithLen (utf8 text) :=
    writeBytesWithLen_delimits.comp (fun _ allocated => allocated) (fun _ _ _ _ same => utf8_inj same)
  exact optionBytes_delimits [] text

theorem writeFlush_delimits : SelfDelimitingOn Set.univ writeFlush := by
  rintro ⟨leftTable, leftSchema, leftSequence⟩ _ ⟨rightTable, rightSchema, rightSequence⟩ _ afterLeft afterRight same
  simp only [writeFlush, List.append_assoc, u64Bytes_cut] at same
  obtain ⟨rfl, rfl, rfl, after⟩ := same
  exact ⟨rfl, after⟩

theorem writeExpired_delimits : SelfDelimitingOn {expired | Allocated expired.2} writeExpired := by
  rintro ⟨leftTable, leftBytes⟩ leftIn ⟨rightTable, rightBytes⟩ rightIn afterLeft afterRight same
  simp only [writeExpired, List.append_assoc, u64Bytes_cut, writeBytesWithLen_delimits.cut leftIn rightIn] at same
  obtain ⟨rfl, rfl, after⟩ := same
  exact ⟨rfl, after⟩

theorem writeSnapshotOperation_delimits : SelfDelimitingOn Set.univ writeSnapshotOperation := by
  rintro ⟨leftKind, leftTable⟩ _ ⟨rightKind, rightTable⟩ _ afterLeft afterRight same
  simp only [writeSnapshotOperation, List.cons_append, List.cons.injEq, u64Bytes_cut] at same
  obtain ⟨tag, rfl, after⟩ := same
  have kinds : leftKind = rightKind := by
    revert tag
    cases leftKind <;> cases rightKind <;> decide
  exact ⟨by rw [kinds], after⟩

theorem writePayload_delimits : SelfDelimitingOn {payload | Allocated payload.payload} writePayload := by
  intro left leftIn right rightIn afterLeft afterRight same
  simp only [writePayload, List.append_assoc, u64Bytes_cut, writeBytesWithLen_delimits.cut leftIn rightIn] at same
  obtain ⟨table, schema, payload, after⟩ := same
  cases left
  cases right
  simp only [InlineTablePayload.mk.injEq]
  exact ⟨⟨table, schema, payload⟩, after⟩

/-- Inline file deletion rows have one length, far below `u64`. -/
theorem InlineFileDeletionRow.allocated (row : InlineFileDeletionRow) : Allocated row.encode := by
  have order (stored : CatalogOrderId) : (encodeStoredOrder stored).length = 17 := by simp [encodeStoredOrder]
  have optional (stored : Option CatalogOrderId) : (encodeOptionalOrder stored).length = 18 := by
    cases stored <;> simp [encodeOptionalOrder, optionBytes, order]
  have length : row.encode.length = 60 := by
    simp [InlineFileDeletionRow.encode, ValidityWindow.encode, u64Bytes, order, optional]
  rw [Wire.Allocated, length]
  decide

section

variable (plan : FdbMutationPlan)

theorem writeDeletes_above : SectionsAbove 12 (writeDeletes plan.inlineMutation.deletes) :=
  sectionsAbove_lastSection (by decide)

theorem fromTag12_above : SectionsAbove 11 (fromTag12 plan) :=
  sectionsAbove_section (by decide) (writeDeletes_above plan)

theorem fromTag11_above : SectionsAbove 10 (fromTag11 plan) :=
  sectionsAbove_section (by decide) (fromTag12_above plan)

theorem fromTag10_above : SectionsAbove 9 (fromTag10 plan) :=
  sectionsAbove_section (by decide) (fromTag11_above plan)

theorem fromTag9_above : SectionsAbove 8 (fromTag9 plan) :=
  sectionsAbove_section (by decide) (fromTag10_above plan)

theorem fromTag8_above : SectionsAbove 7 (fromTag8 plan) :=
  sectionsAbove_section (by decide) (fromTag9_above plan)

theorem fromTag7_above : SectionsAbove 6 (fromTag7 plan) :=
  sectionsAbove_section (by decide) (fromTag8_above plan)

theorem fromTag6_above : SectionsAbove 5 (fromTag6 plan) :=
  sectionsAbove_section (by decide) (fromTag7_above plan)

theorem fromTag5_above : SectionsAbove 4 (fromTag5 plan) :=
  sectionsAbove_section (by decide) (fromTag6_above plan)

theorem fromTag4_above : SectionsAbove 3 (fromTag4 plan) :=
  sectionsAbove_section (by decide) (fromTag5_above plan)

theorem fromTag3_above : SectionsAbove 2 (fromTag3 plan) :=
  sectionsAbove_section (by decide) (fromTag4_above plan)

end

variable {left right : FdbMutationPlan}

theorem FdbMutationPlan.sameHashed_of_feed {leftId rightId : BitVec 128}
    (leftProposes : left.proposedSnapshot = some leftId) (rightProposes : right.proposedSnapshot = some rightId)
    (leftAllocated : left.Allocated) (rightAllocated : right.Allocated)
    (same : recoveryFeed leftId left = recoveryFeed rightId right) : left.SameHashed right := by
  have encodings {α : Type} {rows : List α} {encode : α → Bytes} (allocated : ∀ row ∈ rows, Wire.Allocated (encode row)) :
      ∀ bytes ∈ rows.map encode, bytes ∈ {bytes | Wire.Allocated bytes} := by
    intro bytes member
    obtain ⟨row, listed, rfl⟩ := List.mem_map.mp member
    exact allocated row listed
  have expiredEncodings {plan : FdbMutationPlan} (allocated : plan.Allocated) :
      ∀ expired ∈ plan.expiredDeleteFiles.map FdbExpiredDeleteFile.hashed,
        expired ∈ {expired : UInt64 × Bytes | Wire.Allocated expired.2} := by
    intro hashed member
    obtain ⟨expired, listed, rfl⟩ := List.mem_map.mp member
    exact allocated.expiredDeleteFiles expired listed
  have anything {α : Type} {values : List α} : ∀ value ∈ values, value ∈ Set.univ := fun _ _ => trivial
  -- the stream is read front to back; each section ends at the first higher tag
  simp only [recoveryFeed] at same
  obtain ⟨snapshot, same⟩ := beBytes_delimits 16 _ leftId.isLt _ rightId.isLt _ _ same
  have same := List.append_cancel_left same
  obtain ⟨author, same⟩ := writeOptionalString_delimits _ leftAllocated.author _ rightAllocated.author _ _ same
  obtain ⟨message, same⟩ :=
    writeOptionalString_delimits _ leftAllocated.commitMessage _ rightAllocated.commitMessage _ _ same
  obtain ⟨extraInfo, same⟩ :=
    writeOptionalString_delimits _ leftAllocated.commitExtraInfo _ rightAllocated.commitExtraInfo _ _ same
  obtain ⟨dataFiles, same⟩ := sectionBytes_inj writeBytesWithLen_delimits (encodings leftAllocated.dataFiles)
    (encodings rightAllocated.dataFiles) (fromTag3_above left) (fromTag3_above right) same
  obtain ⟨deleteFiles, same⟩ := sectionBytes_inj writeBytesWithLen_delimits (encodings leftAllocated.deleteFiles)
    (encodings rightAllocated.deleteFiles) (fromTag4_above left) (fromTag4_above right) same
  obtain ⟨flushes, same⟩ := sectionBytes_inj writeFlush_delimits anything anything (fromTag5_above left)
    (fromTag5_above right) same
  obtain ⟨partitionValues, same⟩ := sectionBytes_inj writeBytesWithLen_delimits
    (encodings leftAllocated.partitionValues) (encodings rightAllocated.partitionValues) (fromTag6_above left)
    (fromTag6_above right) same
  obtain ⟨deletions, same⟩ := sectionBytes_inj writeBytesWithLen_delimits
    (encodings fun row _ => row.allocated) (encodings fun row _ => row.allocated) (fromTag7_above left)
    (fromTag7_above right) same
  obtain ⟨stats, same⟩ := sectionBytes_inj writeBytesWithLen_delimits (encodings leftAllocated.fileColumnStats)
    (encodings rightAllocated.fileColumnStats) (fromTag8_above left) (fromTag8_above right) same
  obtain ⟨dropped, same⟩ := sectionBytes_inj u64Bytes_delimits anything anything (fromTag9_above left)
    (fromTag9_above right) same
  obtain ⟨expired, same⟩ := sectionBytes_inj writeExpired_delimits (expiredEncodings leftAllocated)
    (expiredEncodings rightAllocated) (fromTag10_above left) (fromTag10_above right) same
  obtain ⟨operations, same⟩ := sectionBytes_inj writeSnapshotOperation_delimits anything anything
    (fromTag11_above left) (fromTag11_above right) same
  obtain ⟨tables, same⟩ := sectionBytes_inj writeBytesWithLen_delimits (encodings leftAllocated.tables)
    (encodings rightAllocated.tables) (fromTag12_above left) (fromTag12_above right) same
  obtain ⟨payloads, deletes⟩ := sectionBytes_inj writePayload_delimits leftAllocated.payloads
    rightAllocated.payloads (writeDeletes_above left) (writeDeletes_above right) same
  have ids : leftId = rightId := BitVec.eq_of_toNat_eq snapshot
  have sameMetadata : left.commitMetadata = right.commitMetadata := by
    cases leftMetadata : left.commitMetadata
    cases rightMetadata : right.commitMetadata
    simp_all
  have sameDeletions : left.mutation.inlineFileDeletions = right.mutation.inlineFileDeletions :=
    List.map_injective_iff.mpr (Set.injOn_univ.mp InlineFileDeletionRow.encode_delimits.injOn) deletions
  exact
    { proposedSnapshot := by rw [leftProposes, rightProposes, ids]
      commitMetadata := sameMetadata
      dataFiles, deleteFiles
      inlineFlushes := flushes
      partitionValues
      inlineFileDeletions := sameDeletions
      fileColumnStats := stats
      droppedDataFileIds := dropped
      expiredDeleteFiles := expired
      snapshotOperations := operations
      tables, payloads, deletes }

theorem FdbMutationPlan.SameHashed.feed (same : left.SameHashed right)
    (snapshotId : BitVec 128) : recoveryFeed snapshotId left = recoveryFeed snapshotId right := by
  simp only [recoveryFeed, fromTag2, fromTag3, fromTag4, fromTag5, fromTag6, fromTag7, fromTag8, fromTag9, fromTag10,
    fromTag11, fromTag12, same.commitMetadata, same.dataFiles, same.deleteFiles, same.inlineFlushes,
    same.partitionValues, same.inlineFileDeletions, same.fileColumnStats, same.droppedDataFileIds,
    same.expiredDeleteFiles, same.snapshotOperations, same.tables, same.payloads, same.deletes]

/-- Different plans with one recovery id. -/
def FdbMutationPlan.Confusable (left right : FdbMutationPlan) : Prop :=
  left ≠ right ∧ left.proposedSnapshot.isSome ∧ left.SameHashed right

theorem FdbMutationPlan.sameHashed_of_feeds (leftAllocated : left.Allocated)
    (rightAllocated : right.Allocated) {stream : Bytes} (leftFeeds : left.recoveryFeed? = some stream)
    (rightFeeds : right.recoveryFeed? = some stream) : left.proposedSnapshot.isSome ∧ left.SameHashed right := by
  obtain ⟨leftId, leftProposes, rfl⟩ := Option.map_eq_some_iff.mp leftFeeds
  obtain ⟨rightId, rightProposes, same⟩ := Option.map_eq_some_iff.mp rightFeeds
  refine ⟨by simp [leftProposes], ?_⟩
  exact sameHashed_of_feed leftProposes rightProposes leftAllocated rightAllocated same.symm

theorem FdbMutationPlan.identifies_iff (leftAllocated : left.Allocated) (rightAllocated : right.Allocated) :
    (∀ stream, left.recoveryFeed? = some stream → right.recoveryFeed? = some stream → left = right) ↔
      ¬ left.Confusable right := by
  constructor
  · rintro identifies ⟨different, proposes, same⟩
    obtain ⟨snapshotId, leftProposes⟩ := Option.isSome_iff_exists.mp proposes
    apply different
    apply identifies (recoveryFeed snapshotId left)
    · rw [recoveryFeed?, leftProposes, Option.map_some]
    · rw [recoveryFeed?, ← same.proposedSnapshot, leftProposes, Option.map_some, same.feed]
  · intro distinct stream leftFeeds rightFeeds
    by_contra different
    exact distinct ⟨different, sameHashed_of_feeds leftAllocated rightAllocated leftFeeds rightFeeds⟩

/-! ## Plans with short strings and small row ids

Here the lengths written as `u32` are not truncated and no row id looks like the
tag of the next inline delete, so only the flush flag is lost. -/

/-- The first of the eight bytes is not the tag of an inline delete. -/
def UnlikeDeleteTag (rowId : UInt64) : Prop := rowId.toNat / 256 ^ 7 ≠ 13

structure FdbMutationPlan.Plain (plan : FdbMutationPlan) : Prop where
  dataFiles : ∀ row ∈ plan.mutation.dataFiles, ShortString row.encryptionKey
  deleteFiles : ∀ row ∈ plan.mutation.deleteFiles, ShortString row.encryptionKey
  partitionValues : ∀ row ∈ plan.mutation.partitionValues, ShortString row.partitionValue
  fileColumnStats : ∀ row ∈ plan.mutation.fileColumnStats, row.Short
  expiredDeleteFiles : ∀ expired ∈ plan.expiredDeleteFiles, ShortString expired.deleteFile.encryptionKey
  tables : ∀ table ∈ plan.inlineMutation.tables, table.Short
  deletes : ∀ delete ∈ plan.inlineMutation.deletes, ∀ rowId ∈ delete.rowIds, UnlikeDeleteTag rowId

def InlineTableFlush.withoutFlag (flush : InlineTableFlush) : InlineTableFlush :=
  { flush with flushInlineData := false }

def FdbMutationPlan.withoutFlags (plan : FdbMutationPlan) : FdbMutationPlan :=
  { plan with mutation :=
    { plan.mutation with inlineFlushes := plan.mutation.inlineFlushes.map InlineTableFlush.withoutFlag } }

theorem startsInside_rowIds : StartsInside (· = 13) {rowId | UnlikeDeleteTag rowId} u64Bytes := by
  intro rowId unlike
  refine ⟨UInt8.ofNat (rowId.toNat / 256 ^ 7), beBytes 7 rowId.toNat, rfl, ?_⟩
  intro tag
  apply unlike
  have byte := congrArg UInt8.toNat tag
  have bound : rowId.toNat < 256 ^ 8 := rowId.toNat_lt
  simp only [UInt8.toNat_ofNat', UInt8.reduceToNat] at byte
  omega

theorem stopsAt_writeDeletes (deletes : List InlineTableDeletePayload) :
    StopsAt (· = 13) (writeDeletes deletes) := by
  cases deletes with
  | nil => exact stopsAt_nil _
  | cons delete rest =>
    intro first member
    simp only [writeDeletes, sectionBytes, List.flatMap_cons, List.cons_append, List.head?_cons, Option.mem_def,
      Option.some.injEq] at member
    exact member.symm

theorem writeDeletes_inj {left right : List InlineTableDeletePayload}
    (leftUnlike : ∀ delete ∈ left, ∀ rowId ∈ delete.rowIds, UnlikeDeleteTag rowId)
    (rightUnlike : ∀ delete ∈ right, ∀ rowId ∈ delete.rowIds, UnlikeDeleteTag rowId)
    (same : writeDeletes left = writeDeletes right) : left = right := by
  induction left generalizing right with
  | nil =>
    cases right with
    | nil => rfl
    | cons delete rest => simp [writeDeletes, sectionBytes] at same
  | cons delete rest ih =>
    cases right with
    | nil => simp [writeDeletes, sectionBytes] at same
    | cons other others =>
      simp only [writeDeletes, sectionBytes, List.flatMap_cons, writeDelete, List.cons_append, List.cons.injEq,
        true_and, List.append_assoc, u64Bytes_cut] at same
      obtain ⟨table, schema, same⟩ := same
      obtain ⟨rowIds, same⟩ := (u64Bytes_delimits.comp (fun _ _ => trivial) (fun _ _ _ _ same => same)).flatMap_until
        startsInside_rowIds (leftUnlike delete (by simp)) (rightUnlike other (by simp))
        (stopsAt_writeDeletes rest) (stopsAt_writeDeletes others) same
      have later : rest = others := ih (fun item member => leftUnlike item (by simp [member]))
        (fun item member => rightUnlike item (by simp [member])) same
      cases delete
      cases other
      simp_all

theorem InlineTableFlush.hashed_inj {left right : InlineTableFlush} (same : left.hashed = right.hashed) :
    left.withoutFlag = right.withoutFlag := by
  cases left
  cases right
  simp_all [InlineTableFlush.hashed, withoutFlag]

theorem withoutFlag_map_of_hashed {left right : List InlineTableFlush}
    (same : left.map InlineTableFlush.hashed = right.map InlineTableFlush.hashed) :
    left.map InlineTableFlush.withoutFlag = right.map InlineTableFlush.withoutFlag := by
  induction left generalizing right with
  | nil => rw [List.map_eq_nil_iff.mp same.symm]
  | cons flush rest ih =>
    cases right with
    | nil => simp at same
    | cons other others =>
      simp only [List.map_cons, List.cons.injEq] at same
      rw [List.map_cons, List.map_cons, InlineTableFlush.hashed_inj same.1, ih same.2]

theorem FdbExpiredDeleteFile.hashed_injOn :
    Set.InjOn FdbExpiredDeleteFile.hashed {expired | ShortString expired.deleteFile.encryptionKey} := by
  intro left leftShort right rightShort same
  simp only [FdbExpiredDeleteFile.hashed, Prod.mk.injEq] at same
  have files := DeleteFileRow.encode_injOn leftShort rightShort same.2
  cases left
  cases right
  simp_all

theorem FdbMutationPlan.sameHashed_iff_withoutFlags (leftPlain : left.Plain)
    (rightPlain : right.Plain) : left.SameHashed right ↔ left.withoutFlags = right.withoutFlags := by
  constructor
  · intro same
    have dataFiles := eq_of_map_eq DataFileRow.encode_injOn leftPlain.dataFiles rightPlain.dataFiles same.dataFiles
    have deleteFiles :=
      eq_of_map_eq DeleteFileRow.encode_injOn leftPlain.deleteFiles rightPlain.deleteFiles same.deleteFiles
    have flushes := withoutFlag_map_of_hashed same.inlineFlushes
    have partitionValues := eq_of_map_eq FilePartitionValueRow.encode_delimits.injOn leftPlain.partitionValues
      rightPlain.partitionValues same.partitionValues
    have stats := eq_of_map_eq FileColumnStatsRow.encode_delimits.injOn leftPlain.fileColumnStats
      rightPlain.fileColumnStats same.fileColumnStats
    have expired := eq_of_map_eq FdbExpiredDeleteFile.hashed_injOn leftPlain.expiredDeleteFiles
      rightPlain.expiredDeleteFiles same.expiredDeleteFiles
    have tables := eq_of_map_eq TableRow.encode_delimits.injOn leftPlain.tables rightPlain.tables same.tables
    have deletes := writeDeletes_inj leftPlain.deletes rightPlain.deletes same.deletes
    obtain ⟨snapshot, metadata, -, -, -, -, deletions, -, dropped, -, operations, -, payloads, -⟩ := same
    rcases left with ⟨_, _, ⟨_, _, _, _, _, _, _⟩, _, _, ⟨_, _, _⟩⟩
    rcases right with ⟨_, _, ⟨_, _, _, _, _, _, _⟩, _, _, ⟨_, _, _⟩⟩
    dsimp only at *
    simp only [withoutFlags, snapshot, metadata, dataFiles, deleteFiles, flushes, partitionValues, deletions, stats,
      dropped, expired, operations, tables, payloads, deletes]
  · intro same
    have flushes : left.mutation.inlineFlushes.map InlineTableFlush.withoutFlag =
        right.mutation.inlineFlushes.map InlineTableFlush.withoutFlag :=
      congrArg (fun plan : FdbMutationPlan => plan.mutation.inlineFlushes) same
    have hashed := congrArg (List.map InlineTableFlush.hashed) flushes
    simp only [List.map_map] at hashed
    simp only [withoutFlags, FdbMutationPlan.mk.injEq, FdbDataMutation.mk.injEq] at same
    obtain ⟨snapshot, metadata, ⟨dataFiles, deleteFiles, -, partitionValues, deletions, stats, dropped⟩, expired,
      operations, inline⟩ := same
    constructor <;> first | assumption | rw [inline] | simp only [*]

/-! ## Calls of `commit_planned_data_mutation`

The 64-bit hash is taken as collision free: a commit attempt row is found by the
stream it was written for. -/

structure RecoveryStore where
  attempts : List Bytes := []
  committed : List FdbMutationPlan := []

def recoverCommittedMutation (store : RecoveryStore) (plan : FdbMutationPlan) : Bool :=
  plan.recoveryFeed?.any fun stream => decide (stream ∈ store.attempts)

/-- Answers `Ok` for a recovered plan; otherwise the transaction lands or fails as a whole. -/
def commitPlannedDataMutation (store : RecoveryStore) (plan : FdbMutationPlan) (lands : Bool) : Bool × RecoveryStore :=
  if recoverCommittedMutation store plan then (true, store)
  else if lands then
    (true, { attempts := plan.recoveryFeed?.toList ++ store.attempts, committed := plan :: store.committed })
  else (false, store)

def commitCalls (calls : List (FdbMutationPlan × Bool)) : RecoveryStore :=
  calls.foldl (fun store call => (commitPlannedDataMutation store call.1 call.2).2) {}

/-- Each attempt row was written by a plan that was submitted and committed. -/
def RecoveryStore.Explained (calls : List (FdbMutationPlan × Bool)) (store : RecoveryStore) : Prop :=
  ∀ stream ∈ store.attempts, ∃ plan ∈ store.committed, plan.recoveryFeed? = some stream ∧ ∃ call ∈ calls, call.1 = plan

theorem RecoveryStore.Explained.commit {calls : List (FdbMutationPlan × Bool)} {store : RecoveryStore}
    (explained : store.Explained calls) {call : FdbMutationPlan × Bool} (submitted : call ∈ calls) :
    (commitPlannedDataMutation store call.1 call.2).2.Explained calls := by
  unfold commitPlannedDataMutation
  split
  · exact explained
  · split
    · intro stream member
      rcases List.mem_append.mp member with own | earlier
      · exact ⟨call.1, List.mem_cons_self, Option.mem_toList.mp own, call, submitted, rfl⟩
      · obtain ⟨plan, committed, feeds, known⟩ := explained stream earlier
        exact ⟨plan, List.mem_cons_of_mem _ committed, feeds, known⟩
    · exact explained

theorem commitCalls_explained (calls : List (FdbMutationPlan × Bool)) : (commitCalls calls).Explained calls := by
  have run (rest : List (FdbMutationPlan × Bool)) (store : RecoveryStore) (inside : ∀ call ∈ rest, call ∈ calls)
      (explained : store.Explained calls) :
      (rest.foldl (fun store call => (commitPlannedDataMutation store call.1 call.2).2) store).Explained calls := by
    induction rest generalizing store with
    | nil => exact explained
    | cons call rest ih =>
      exact ih _ (fun later member => inside later (List.mem_cons_of_mem _ member))
        (explained.commit (inside call List.mem_cons_self))
  apply run calls {} (fun _ member => member)
  intro stream member
  exact absurd member List.not_mem_nil

/-- An accepted call has committed its own plan, unless an earlier plan can be confused with it. -/
theorem accepted_committed {calls : List (FdbMutationPlan × Bool)} {plan : FdbMutationPlan} {lands : Bool}
    (allocated : plan.Allocated) (distinct : ∀ call ∈ calls, call.1.Allocated ∧ ¬ call.1.Confusable plan)
    (accepted : (commitPlannedDataMutation (commitCalls calls) plan lands).1 = true) :
    plan ∈ (commitPlannedDataMutation (commitCalls calls) plan lands).2.committed := by
  unfold commitPlannedDataMutation at accepted ⊢
  split
  · rename_i recovered
    obtain ⟨stream, feeds, recorded⟩ := (Option.any_eq_true ..).mp recovered
    obtain ⟨earlier, committed, earlierFeeds, call, submitted, rfl⟩ :=
      commitCalls_explained calls stream (of_decide_eq_true recorded)
    obtain ⟨earlierAllocated, apart⟩ := distinct call submitted
    have same := (FdbMutationPlan.identifies_iff earlierAllocated allocated).mpr apart stream earlierFeeds feeds
    exact same ▸ committed
  · rename_i fresh
    rw [if_neg fresh] at accepted
    split
    · exact List.mem_cons_self
    · rename_i fails
      rw [if_neg fails] at accepted
      cases accepted

/-- The stream tells two plans apart exactly when they differ in something it
holds. For plain plans that is everything but the flush flags, and without an
earlier confusable plan an accepted call has committed its own plan. -/
theorem recoveryFeed_identifies_iff {left right : FdbMutationPlan} (leftAllocated : left.Allocated)
    (rightAllocated : right.Allocated) :
    ((∀ stream, left.recoveryFeed? = some stream → right.recoveryFeed? = some stream → left = right) ↔
      ¬ left.Confusable right) ∧
    (left.Plain → right.Plain → (left.Confusable right ↔
      left ≠ right ∧ left.proposedSnapshot.isSome ∧ left.withoutFlags = right.withoutFlags)) ∧
    ∀ calls lands, (∀ call ∈ calls, call.1.Allocated ∧ ¬ call.1.Confusable right) →
      (commitPlannedDataMutation (commitCalls calls) right lands).1 = true →
      right ∈ (commitPlannedDataMutation (commitCalls calls) right lands).2.committed := by
  refine ⟨FdbMutationPlan.identifies_iff leftAllocated rightAllocated, ?_, ?_⟩
  · intro leftPlain rightPlain
    unfold FdbMutationPlan.Confusable
    rw [FdbMutationPlan.sameHashed_iff_withoutFlags leftPlain rightPlain]
  · intro calls lands distinct accepted
    exact accepted_committed rightAllocated distinct accepted

/-- One flush of a table, with or without its inline rows. -/
def flushOfTable (tableId : UInt64) (flushInlineData : Bool) : FdbMutationPlan :=
  { proposedSnapshot := some 5, mutation := { inlineFlushes := [⟨tableId, 1, 4, flushInlineData⟩] } }

theorem flushOfTable_allocated (tableId : UInt64) (flushInlineData : Bool) :
    (flushOfTable tableId flushInlineData).Allocated := by
  constructor <;> simp [flushOfTable]

theorem recoveryFeed_identifies_otherTable :
    (flushOfTable 1 true).Allocated ∧ (flushOfTable 2 true).Allocated ∧
      (flushOfTable 1 true).recoveryFeed? ≠ (flushOfTable 2 true).recoveryFeed? := by
  have tells := (recoveryFeed_identifies_iff (flushOfTable_allocated 1 true) (flushOfTable_allocated 2 true)).1.mpr (by
    rintro ⟨-, -, same⟩
    have tables := same.inlineFlushes
    revert tables
    decide)
  refine ⟨flushOfTable_allocated 1 true, flushOfTable_allocated 2 true, ?_⟩
  intro same
  cases fed : (flushOfTable 1 true).recoveryFeed? with
  | none => exact absurd fed (by simp [FdbMutationPlan.recoveryFeed?, flushOfTable])
  | some stream =>
    have equal := tells stream fed (same ▸ fed)
    revert equal
    decide

/-- A flush of the inline rows and a flush of file deletions alone share one
stream: after the first one commits, the second is answered without being applied. -/
theorem recoveryFeed_confuses_flushKinds :
    flushOfTable 1 true ≠ flushOfTable 1 false ∧
      (flushOfTable 1 true).recoveryFeed? = (flushOfTable 1 false).recoveryFeed? ∧
      (flushOfTable 1 true).recoveryFeed?.isSome ∧
      (commitPlannedDataMutation (commitCalls [(flushOfTable 1 true, true)]) (flushOfTable 1 false) false).1 = true ∧
      flushOfTable 1 false ∉
        (commitPlannedDataMutation (commitCalls [(flushOfTable 1 true, true)]) (flushOfTable 1 false) false).2.committed := by
  decide +kernel

end DucklakeCatalog.Wire
