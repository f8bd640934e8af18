import DucklakeCatalog.File.Mutation
import DucklakeCatalog.Inline.ChangeFeed
import DucklakeCatalog.Snapshot.PublicSequences
import DucklakeCatalog.Table.Commits

namespace DucklakeCatalog

open KeyedStore

/-! ## Mutations as the runtime holds them -/

inductive DeleteFileRole
  | historicalDeleteFile
  | materializeInlineDeletesForDataFile
  deriving DecidableEq, Repr

structure DeleteFileMaterialization where
  row : DeleteFileRow
  role : DeleteFileRole
  deriving DecidableEq, Repr

def DeleteFileMaterialization.markMaterializesInlineDeletes (materialization : DeleteFileMaterialization) :
    DeleteFileMaterialization :=
  { materialization with role := .materializeInlineDeletesForDataFile }

structure RuntimeDataMutation where
  dataFiles : List DataFileRow := []
  materializedDeleteFiles : List DeleteFileMaterialization := []
  inlineFlushes : List InlineTableFlush := []
  partitionValues : List FilePartitionValueRow := []
  inlineFileDeletions : List InlineFileDeletionRow := []
  fileColumnStats : List FileColumnStatsRow := []
  droppedDataFileIds : List DataFileId := []
  deriving DecidableEq, Repr

/-- What is committed of a mutation; the roles of its delete files are not. -/
def RuntimeDataMutation.input (mutation : RuntimeDataMutation) : DataMutationInput where
  dataFiles := mutation.dataFiles
  deleteFiles := mutation.materializedDeleteFiles.map DeleteFileMaterialization.row
  inlineFlushes := mutation.inlineFlushes
  partitionValues := mutation.partitionValues
  inlineFileDeletions := mutation.inlineFileDeletions
  fileColumnStats := mutation.fileColumnStats
  droppedDataFileIds := mutation.droppedDataFileIds

/-! ## Completing flushes -/

structure InlineFlushTargets where
  flushes : List InlineTableFlush
  deleteFiles : List DeleteFileMaterialization

def InlineFlushTargets.completeInlineFlush (targets : InlineFlushTargets) (file : DataFileRow) (schemaId : SchemaId)
    (publicSequence : RawSnapshotSequence) : InlineFlushTargets :=
  let flush := InlineTableFlush.new file.tableId schemaId publicSequence
  { flushes := if flush ∈ targets.flushes then targets.flushes else targets.flushes ++ [flush]
    deleteFiles := targets.deleteFiles.map fun deleteFile =>
      if deleteFile.row.dataFileId = file.dataFileId then deleteFile.markMaterializesInlineDeletes else deleteFile }

/-- Every end marker counts here, also one of a later order. -/
def listUnflushedInlineTablePayloadsAt (kv : CatalogKv) (tableId : TableId) (schemaId : SchemaId)
    (snapshotOrder : CatalogOrderId) : CatalogResult (List InlineTablePayloadRow) :=
  let endOrders := inlineTableEndOrders kv tableId schemaId snapshotOrder false
  let visible := (inlineTableChunkRows kv tableId schemaId).filter fun row =>
    inlineChunkVisibleAt row endOrders snapshotOrder
  (groupChunksByBegin visible).mapM fun (beginOrder, rows) => do
    let payload ← assembleInlinePayload rows
    return { tableId, schemaId, beginOrder, payload }

def completeInlineFlushForPayload (file : DataFileRow) (schemaId : SchemaId)
    (sequences : List (CatalogOrderId × RawSnapshotSequence)) (targets : InlineFlushTargets)
    (payload : InlineTablePayloadRow) : CatalogResult InlineFlushTargets :=
  match sequences.lookup payload.beginOrder with
  | none =>
    .error (.decode
      s!"inline payload for table {file.tableId} at order {payload.beginOrder} has no public snapshot sequence")
  | some publicSequence => .ok (targets.completeInlineFlush file schemaId publicSequence)

/-- Coverage is tested payload by payload; the flush that is added names a snapshot. -/
def completeInlineFlushesForSchema (kv : CatalogKv) (file : DataFileRow) (maxPartialOrder : CatalogOrderId)
    (targets : InlineFlushTargets) (inlined : InlinedTableRow) : CatalogResult InlineFlushTargets := do
  let payloads ← listUnflushedInlineTablePayloadsAt kv file.tableId inlined.schemaVersion maxPartialOrder
  let covered := payloads.filter fun payload => dataFileCoversInlineBegin file payload.beginOrder
  let sequences := activeDataSnapshotSequences kv (covered.map InlineTablePayloadRow.beginOrder)
  covered.foldlM (completeInlineFlushForPayload file inlined.schemaVersion sequences) targets

def completeInlineFlushesForMaterializedFile (kv : CatalogKv) (targets : InlineFlushTargets) (file : DataFileRow) :
    CatalogResult InlineFlushTargets :=
  match file.maxPartialOrder with
  | none => .ok targets
  | some maxPartialOrder => do
    let table ← (loadTableAt kv file.tableId file.validity.beginOrder).elim (.error (.notFound "table")) .ok
    table.inlinedDataTables.foldlM (completeInlineFlushesForSchema kv file maxPartialOrder) targets

def completeInlineFlushesFromMaterializedFiles (kv : CatalogKv) (mutation : RuntimeDataMutation) :
    CatalogResult RuntimeDataMutation := do
  let targets ← (mutation.dataFiles.filter fun file => file.maxPartialOrder.isSome).foldlM
    (completeInlineFlushesForMaterializedFile kv) ⟨mutation.inlineFlushes, mutation.materializedDeleteFiles⟩
  return { mutation with inlineFlushes := targets.flushes, materializedDeleteFiles := targets.deleteFiles }

/-! ## The flushes a completion adds -/

/-- The file stores an unflushed payload of its table, begun inside its span under a retained snapshot. -/
structure StoresPayload (kv : CatalogKv) (file : DataFileRow) (schemaId : SchemaId) (payload : InlineTablePayloadRow)
    (publicSequence : RawSnapshotSequence) : Prop where
  inlined : ∃ table, loadTableAt kv file.tableId file.validity.beginOrder = some table ∧
    schemaId ∈ table.inlinedDataTables.map InlinedTableRow.schemaVersion
  listed : ∃ maxPartialOrder payloads, file.maxPartialOrder = some maxPartialOrder ∧
    listUnflushedInlineTablePayloadsAt kv file.tableId schemaId maxPartialOrder = .ok payloads ∧ payload ∈ payloads
  covered : dataFileCoversInlineBegin file payload.beginOrder = true
  active : activeSnapshotSequence kv payload.beginOrder = some publicSequence

section

variable {kv : CatalogKv} {file : DataFileRow} {targets next : InlineFlushTargets}

theorem mem_completeInlineFlush {schemaId : SchemaId} {publicSequence : RawSnapshotSequence} {flush : InlineTableFlush} :
    flush ∈ (targets.completeInlineFlush file schemaId publicSequence).flushes ↔
      flush ∈ targets.flushes ∨ flush = .new file.tableId schemaId publicSequence := by
  simp only [InlineFlushTargets.completeInlineFlush]
  split
  · rename_i known
    constructor
    · exact Or.inl
    · rintro (earlier | rfl)
      · exact earlier
      · exact known
  · simp

theorem mem_completeInlineFlushesForSchema {maxPartialOrder : CatalogOrderId} {inlined : InlinedTableRow}
    (success : completeInlineFlushesForSchema kv file maxPartialOrder targets inlined = .ok next)
    (flush : InlineTableFlush) :
    flush ∈ next.flushes ↔ flush ∈ targets.flushes ∨ ∃ payloads payload publicSequence,
      listUnflushedInlineTablePayloadsAt kv file.tableId inlined.schemaVersion maxPartialOrder = .ok payloads ∧
        payload ∈ payloads ∧ dataFileCoversInlineBegin file payload.beginOrder = true ∧
        activeSnapshotSequence kv payload.beginOrder = some publicSequence ∧
        flush = .new file.tableId inlined.schemaVersion publicSequence := by
  unfold completeInlineFlushesForSchema at success
  rw [bind_eq_ok] at success
  obtain ⟨payloads, listed, success⟩ := success
  dsimp only at success
  generalize sequencesOf : activeDataSnapshotSequences kv ((payloads.filter fun payload =>
    dataFileCoversInlineBegin file payload.beginOrder).map InlineTablePayloadRow.beginOrder) = sequences at success
  rw [foldlM_collects (fun (state : InlineFlushTargets) flush => flush ∈ state.flushes)
    (fun payload flush => ∃ publicSequence, sequences.lookup payload.beginOrder = some publicSequence ∧
      flush = .new file.tableId inlined.schemaVersion publicSequence) success ?_ flush]
  · refine or_congr_right ?_
    simp only [listed, Except.ok.injEq, exists_and_left, exists_eq_left', List.mem_filter]
    constructor
    · rintro ⟨payload, ⟨member, covered⟩, publicSequence, found, named⟩
      rw [← sequencesOf, lookup_activeDataSnapshotSequences, if_pos] at found
      · exact ⟨payload, member, covered, publicSequence, found, named⟩
      · exact List.mem_map.mpr ⟨payload, List.mem_filter.mpr ⟨member, covered⟩, rfl⟩
    · rintro ⟨payload, member, covered, publicSequence, found, named⟩
      refine ⟨payload, ⟨member, covered⟩, publicSequence, ?_, named⟩
      rw [← sequencesOf, lookup_activeDataSnapshotSequences, if_pos]
      · exact found
      · exact List.mem_map.mpr ⟨payload, List.mem_filter.mpr ⟨member, covered⟩, rfl⟩
  · intro state payload following taken flush
    unfold completeInlineFlushForPayload at taken
    cases found : sequences.lookup payload.beginOrder with
    | none => simp [found] at taken
    | some publicSequence =>
      simp only [found, Except.ok.injEq] at taken
      rw [← taken, mem_completeInlineFlush]
      simp

theorem mem_completeInlineFlushesForMaterializedFile
    (success : completeInlineFlushesForMaterializedFile kv targets file = .ok next) (flush : InlineTableFlush) :
    flush ∈ next.flushes ↔ flush ∈ targets.flushes ∨ ∃ schemaId payload publicSequence,
      StoresPayload kv file schemaId payload publicSequence ∧ flush = .new file.tableId schemaId publicSequence := by
  unfold completeInlineFlushesForMaterializedFile at success
  cases partialOrder : file.maxPartialOrder with
  | none =>
    simp only [partialOrder, Except.ok.injEq] at success
    rw [success, or_iff_left]
    rintro ⟨_, _, _, stores, _⟩
    obtain ⟨_, _, some, _⟩ := stores.listed
    simp [partialOrder] at some
  | some maxPartialOrder =>
    simp only [partialOrder] at success
    rw [bind_eq_ok] at success
    obtain ⟨table, loaded, success⟩ := success
    cases visible : loadTableAt kv file.tableId file.validity.beginOrder with
    | none => simp [visible] at loaded
    | some stored =>
      obtain rfl : stored = table := by simpa [visible] using loaded
      rw [foldlM_collects (fun (state : InlineFlushTargets) flush => flush ∈ state.flushes) _ success
        (fun _ _ _ taken => mem_completeInlineFlushesForSchema taken) flush]
      refine or_congr_right ?_
      constructor
      · rintro ⟨inlined, member, payloads, payload, publicSequence, listed, inside, covered, active, rfl⟩
        exact ⟨inlined.schemaVersion, payload, publicSequence, ⟨⟨stored, visible, List.mem_map_of_mem member⟩,
          ⟨maxPartialOrder, payloads, partialOrder, listed, inside⟩, covered, active⟩, rfl⟩
      · rintro ⟨schemaId, payload, publicSequence, stores, rfl⟩
        obtain ⟨other, same, named⟩ := stores.inlined
        obtain rfl : stored = other := Option.some.inj (visible.symm.trans same)
        obtain ⟨inlined, member, rfl⟩ := List.mem_map.mp named
        obtain ⟨otherOrder, payloads, sameOrder, listed, inside⟩ := stores.listed
        obtain rfl : maxPartialOrder = otherOrder := Option.some.inj (partialOrder.symm.trans sameOrder)
        exact ⟨inlined, member, payloads, payload, publicSequence, listed, inside, stores.covered, stores.active, rfl⟩

/-- A completed mutation carries its own flushes and one for each snapshot a stored payload began under. -/
theorem completeInlineFlushesFromMaterializedFiles_ok {mutation completed : RuntimeDataMutation}
    (success : completeInlineFlushesFromMaterializedFiles kv mutation = .ok completed) :
    completed.dataFiles = mutation.dataFiles ∧ ∀ flush, flush ∈ completed.inlineFlushes ↔
      flush ∈ mutation.inlineFlushes ∨ ∃ file ∈ mutation.dataFiles, ∃ schemaId payload publicSequence,
        StoresPayload kv file schemaId payload publicSequence ∧ flush = .new file.tableId schemaId publicSequence := by
  unfold completeInlineFlushesFromMaterializedFiles at success
  simp only [bind_eq_ok, pure_eq_ok] at success
  obtain ⟨targets, completes, rfl⟩ := success
  refine ⟨rfl, ?_⟩
  intro flush
  dsimp only
  rw [foldlM_collects (fun (state : InlineFlushTargets) flush => flush ∈ state.flushes) _ completes
    (fun _ _ _ taken => mem_completeInlineFlushesForMaterializedFile taken) flush]
  refine or_congr_right ?_
  constructor
  · rintro ⟨file, member, added⟩
    exact ⟨file, (List.mem_filter.mp member).1, added⟩
  · rintro ⟨file, member, schemaId, payload, publicSequence, stores, named⟩
    obtain ⟨maxPartialOrder, _, isPartial, _⟩ := stores.listed
    exact ⟨file, List.mem_filter.mpr ⟨member, by simp [isPartial]⟩, schemaId, payload, publicSequence, stores, named⟩

end

end DucklakeCatalog
