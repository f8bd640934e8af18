import DucklakeCatalog.Inline.Visibility
import DucklakeCatalog.Run.InlineMaps

namespace DucklakeCatalog

open KeyedStore

/-! ## What a commit stages -/

/-- The chunks a payload is stored as. -/
def chunkEntries (payload : InlineTablePayloadRow) : List (InlineTableChunkKey × InlineTableChunkRow) :=
  ((inlineTableChunks payload.tableId payload.schemaId payload.beginOrder payload.payload).toOption.getD []).map
    fun row => (⟨payload.tableId, payload.schemaId, payload.beginOrder, row.chunkIndex⟩, row)

/-- The watermark an accepted flush leaves behind, if it ended anything. -/
def watermarkEntries (kv : CatalogKv) (flush : InlineTableFlush) : List (InlineFlushWatermarkKey × Unit) :=
  if flush.flushInlineData then
    ((((flushInlineTablePayloadRows kv flush kv.generatedOrderId).toOption.getD []).map fun row =>
      row.validity.beginOrder).max?.map fun maxBeginOrder =>
        (⟨flush.tableId, kv.generatedOrderId, flush.schemaId, maxBeginOrder⟩, ())).toList
  else []

/-- A payload registration checked: its lines fit and it has chunks. -/
def Storable (payload : InlineTablePayloadRow) : Prop :=
  validateInlineTableRowsFitFdb payload.payload = .ok () ∧
    ∃ rows, inlineTableChunks payload.tableId payload.schemaId payload.beginOrder payload.payload = .ok rows

structure StagesInlineData (kv : CatalogKv) (operation : CatalogOperation) (batch : KvBatch) : Prop where
  chunks : batch.inlineTable = ({} : Staged InlineTableChunkKey InlineTableChunkRow).putAll
    ((operation.inlinePayloads kv.generatedOrderId).flatMap chunkEntries)
  storable : ∀ payload ∈ operation.inlinePayloads kv.generatedOrderId, Storable payload
  watermarks : batch.inlineFlushWatermark = ({} : Staged InlineFlushWatermarkKey Unit).putAll
    (operation.inlineFlushes.flatMap (watermarkEntries kv))
  flushed : ∀ flush ∈ operation.inlineFlushes, flush.flushInlineData = true →
    ∃ rows, flushInlineTablePayloadRows kv flush kv.generatedOrderId = .ok rows
  unmarked : batch.inlineTableEnd = {}

variable {rows : List InlineTableChunkRow}

section

variable {kv : CatalogKv} {operation : CatalogOperation} {batch next : KvBatch}

def KvBatch.inlineData (batch : KvBatch) :=
  (batch.inlineTable, batch.inlineFlushWatermark, batch.inlineTableEnd)

variable {before after : KvBatch} {now : Int} {order : CatalogOrderId} {table previousTable : TableRow}
  {rawSequence : RawSnapshotSequence}

theorem inlineData_congr (same : after.inlineMaps = before.inlineMaps) :
    after.inlineData = before.inlineData := by
  simp only [KvBatch.inlineMaps, Prod.mk.injEq] at same
  exact Prod.ext same.2.2.2.1 (Prod.ext same.2.2.2.2.1 same.2.2.2.2.2.1)

theorem inlineData_besideFiles (same : after.besideFiles = before.besideFiles) :
    after.inlineData = before.inlineData := by
  have sameData := congrArg KvBatch.inlineData same
  exact sameData

theorem StagesInlineData.untouched (noFlushes : operation.inlineFlushes = [])
    (noPayloads : operation.inlinePayloads kv.generatedOrderId = []) (same : batch.inlineData = ({} : KvBatch).inlineData) :
    StagesInlineData kv operation batch := by
  simp only [KvBatch.inlineData, Prod.mk.injEq] at same
  obtain ⟨chunks, watermarks, unmarked⟩ := same
  refine ⟨?_, ?_, ?_, ?_, unmarked⟩
  · simp [chunks, noPayloads]
  · simp [noPayloads]
  · simp [watermarks, noFlushes]
  · simp [noFlushes]

/-- A flush stages its watermark and leaves chunks and per-row markers alone. -/
theorem stageFlushInlineTablePayloads_watermark {flush : InlineTableFlush}
    (success : stageFlushInlineTablePayloads kv batch flush kv.generatedOrderId = .ok next) :
    next.inlineFlushWatermark = batch.inlineFlushWatermark.putAll (watermarkEntries kv flush) ∧
      (flush.flushInlineData = true → ∃ rows, flushInlineTablePayloadRows kv flush kv.generatedOrderId = .ok rows) := by
  unfold stageFlushInlineTablePayloads stageFlushInlineFileDeletions at success
  simp only [bind_eq_ok, pure, Except.pure, Except.ok.injEq] at success
  obtain ⟨_, ⟨rows, _, rfl⟩, success⟩ := success
  obtain ⟨_, ended⟩ := stageEndInlineFileDeletions_changes batch rows kv.generatedOrderId
  rw [ended] at success
  unfold watermarkEntries
  split at success
  · rename_i flushesData
    rw [bind_eq_ok] at success
    obtain ⟨flushed, taken, success⟩ := success
    rw [if_pos flushesData, taken]
    refine ⟨?_, fun _ => ⟨flushed, rfl⟩⟩
    simp only [Except.toOption, Option.getD_some]
    cases newest : (flushed.map fun row => row.validity.beginOrder).max? with
    | none =>
      simp only [newest, Option.elim, Except.ok.injEq] at success
      rw [← success]
      simp [stageMaxFileIdWatermark, stageSnapshotOperation]
    | some maxBeginOrder =>
      simp only [newest, Option.elim, Except.ok.injEq] at success
      rw [← success]
      rfl
  · rename_i deletionsOnly
    simp only [Except.ok.injEq] at success
    rw [if_neg deletionsOnly, ← success]
    exact ⟨by simp, fun flushesData => absurd flushesData deletionsOnly⟩

theorem foldlM_stageFlush_watermarks {flushes : List InlineTableFlush}
    (success : flushes.foldlM
      (fun batch flush => stageFlushInlineTablePayloads kv batch flush kv.generatedOrderId) batch = .ok next) :
    next.inlineFlushWatermark = batch.inlineFlushWatermark.putAll (flushes.flatMap (watermarkEntries kv)) ∧
      next.inlineTable = batch.inlineTable ∧ next.inlineTableEnd = batch.inlineTableEnd ∧
      ∀ flush ∈ flushes, flush.flushInlineData = true →
        ∃ rows, flushInlineTablePayloadRows kv flush kv.generatedOrderId = .ok rows := by
  obtain ⟨_, _, _, _, same⟩ := foldlM_stageFlushInlineTablePayloads_changes success
  refine ⟨?_, by rw [same], by rw [same], ?_⟩
  · refine Staged.foldlM_putAll KvBatch.inlineFlushWatermark (watermarkEntries kv) ?_ success
    intro state flush following taken
    exact (stageFlushInlineTablePayloads_watermark taken).1
  · intro flush member
    obtain ⟨_, _, taken⟩ := foldlM_accepts success member
    exact (stageFlushInlineTablePayloads_watermark taken).2

theorem stageInlineTableChunks_writes (batch : KvBatch) (tableId : TableId) (schemaId : SchemaId)
    (order : CatalogOrderId) (payload : List UInt8)
    (chunked : inlineTableChunks tableId schemaId order payload = .ok rows) :
    (stageInlineTableChunks batch tableId schemaId order rows).inlineTable =
      batch.inlineTable.putAll (chunkEntries ⟨tableId, schemaId, order, payload⟩) := by
  let entry (row : InlineTableChunkRow) : InlineTableChunkKey × InlineTableChunkRow :=
    (⟨tableId, schemaId, order, row.chunkIndex⟩, row)
  have entries : chunkEntries ⟨tableId, schemaId, order, payload⟩ = rows.map entry := by
    simp only [chunkEntries, chunked, Except.toOption, Option.getD_some]
    rfl
  rw [entries]
  exact Staged.foldl_put id entry (fun _ _ => rfl) rows batch.inlineTable

/-- A registration stages the chunks of its payload. -/
theorem stageInlineTablePayload_chunks {tableId : TableId} {schemaId : SchemaId} {payload : List UInt8}
    (staged : stageInlineTablePayload kv now tableId schemaId payload order = .ok (rows, batch)) :
    inlineTableChunks tableId schemaId order payload = .ok rows ∧ batch.inlineTable =
      ({} : Staged InlineTableChunkKey InlineTableChunkRow).putAll (chunkEntries ⟨tableId, schemaId, order, payload⟩) := by
  simp only [stageInlineTablePayload, bind_eq_ok, pure_eq_ok, Prod.mk.injEq] at staged
  obtain ⟨changed, changes, _, chunked, rfl, rfl⟩ := staged
  obtain ⟨_, _, _, rfl⟩ := stageInlineRowChangesForPayload_changes changes
  exact ⟨chunked, stageInlineTableChunks_writes _ tableId schemaId order payload chunked⟩

theorem stageInlineTablePayloadWithTable_chunks {schemaId : SchemaId} {payload : List UInt8}
    (staged : stageInlineTablePayloadWithTable kv now table previousTable schemaId payload rawSequence order =
      .ok (rows, batch)) :
    inlineTableChunks table.tableId schemaId order payload = .ok rows ∧ batch.inlineTable =
      ({} : Staged InlineTableChunkKey InlineTableChunkRow).putAll
        (chunkEntries ⟨table.tableId, schemaId, order, payload⟩) := by
  simp only [stageInlineTablePayloadWithTable, bind_eq_ok, pure_eq_ok,
    Prod.mk.injEq] at staged
  obtain ⟨changed, changes, _, chunked, rfl, rfl⟩ := staged
  obtain ⟨_, _, _, same⟩ := stageTableVersion_changes changed order (previousTable.withEndOrder (some order))
    { previousTable with
      schemaId := table.schemaId, inlinedDataTables := table.inlinedDataTables, validity := ⟨order, none⟩ }
  obtain ⟨_, _, _, rfl⟩ := stageInlineRowChangesForPayload_changes changes
  refine ⟨chunked, (stageInlineTableChunks_writes _ table.tableId schemaId order payload chunked).trans ?_⟩
  rw [same]
  rfl

theorem validateInlineTablePayload_fits {payload : List UInt8} (valid : validateInlineTablePayload payload = .ok ()) :
    validateInlineTableRowsFitFdb payload = .ok () := by
  unfold validateInlineTablePayload at valid
  rw [bind_eq_ok] at valid
  exact valid.choose_spec.1

theorem inlineTableVersionToReplace_fits {payload : List UInt8} {commitSnapshot : Option RawSnapshotSequence}
    (valid : inlineTableVersionToReplace kv table payload commitSnapshot = .ok (previousTable, rawSequence)) :
    validateInlineTableRowsFitFdb payload = .ok () := by
  unfold inlineTableVersionToReplace at valid
  rw [bind_eq_ok] at valid
  obtain ⟨_, valid, _⟩ := valid
  exact validateInlineTablePayload_fits valid

theorem CatalogOperation.Commits.inlineData (commits : operation.Commits kv batch) :
    StagesInlineData kv operation batch := by
  cases commits with
  | createTable _ staged =>
    obtain ⟨_, rfl⟩ := stageCreateTableRow_ok staged
    exact .untouched rfl rfl rfl
  | appendDataFiles staged =>
    obtain ⟨appended, opening, flushes⟩ := stageAppendDataFiles_besideFiles staged
    have opened := inlineData_besideFiles opening
    simp only [KvBatch.inlineData, Prod.mk.injEq] at opened
    obtain ⟨noChunks, noWatermarks, noEnds⟩ := opened
    obtain ⟨watermarks, chunks, ends, flushed⟩ := foldlM_stageFlush_watermarks flushes
    refine ⟨?_, by simp [inlinePayloads], ?_, flushed, by rw [ends, noEnds]; rfl⟩
    · simp [chunks, noChunks, inlinePayloads, stageSnapshot]
    · rw [watermarks, noWatermarks]
      rfl
  | @dataMutation input _ _ _ _ staged =>
    obtain ⟨registered, closed, flushed, dataFiles, deleteFiles, opening, closes, flushes, same⟩ :=
      stageDataMutation_besideFiles staged
    obtain ⟨_, sameClosed⟩ := stageCloseMaterializedInlineFileDeletions_changes closes
    obtain ⟨_, added⟩ := stageNewInlineFileDeletions_changes flushed input.inlineFileDeletions kv.generatedOrderId
    have opened := inlineData_besideFiles opening
    have final := inlineData_besideFiles same
    rw [added] at final
    simp only [KvBatch.inlineData, Prod.mk.injEq] at opened final
    obtain ⟨noChunks, noWatermarks, noEnds⟩ := opened
    obtain ⟨watermarks, chunks, ends, accepted⟩ := foldlM_stageFlush_watermarks flushes
    rw [sameClosed] at watermarks chunks ends
    refine ⟨?_, by simp [inlinePayloads], ?_, accepted, by rw [final.2.2, ends, noEnds]; rfl⟩
    · simp [final.1, chunks, noChunks, inlinePayloads, stageSnapshot]
    · rw [final.2.1, watermarks, noWatermarks]
      rfl
  | mergeAdjacent _ staged =>
    exact .untouched rfl rfl ((inlineData_besideFiles (stageMergeAdjacent_besideFiles staged)).trans rfl)
  | rewriteDelete _ staged =>
    exact .untouched rfl rfl ((inlineData_besideFiles (stageRewriteDelete_besideFiles staged)).trans rfl)
  | registerDeleteFiles staged =>
    exact .untouched rfl rfl ((inlineData_besideFiles (stageRegisterDeleteFiles_changes staged).besideFiles).trans rfl)
  | inlineFileDeletions staged =>
    obtain ⟨_, rfl⟩ := stageInlineFileDeletions_ok staged
    obtain ⟨_, added⟩ := stageNewInlineFileDeletions_changes _ _ kv.generatedOrderId
    rw [added]
    exact .untouched rfl rfl rfl
  | registerInlinePayload valid staged =>
    obtain ⟨chunked, chunks⟩ := stageInlineTablePayload_chunks staged
    obtain ⟨_, _, _, _, _, _, _, _, _, same⟩ := stageInlineTablePayload_changes staged
    refine ⟨?_, ?_, by rw [same]; rfl, by simp [CatalogOperation.inlineFlushes], by rw [same]; rfl⟩
    · simpa [inlinePayloads] using chunks
    · simpa [inlinePayloads, Storable] using ⟨validateInlineTablePayload_fits valid, _, chunked⟩
  | registerInlinePayloadWithTable valid staged =>
    obtain ⟨chunked, chunks⟩ := stageInlineTablePayloadWithTable_chunks staged
    obtain ⟨_, _, _, _, _, _, _, _, _, same⟩ := stageInlineTablePayloadWithTable_changes staged
    refine ⟨?_, ?_, by rw [same]; rfl, by simp [CatalogOperation.inlineFlushes], by rw [same]; rfl⟩
    · simpa [inlinePayloads] using chunks
    · simpa [inlinePayloads, Storable] using ⟨inlineTableVersionToReplace_fits valid, _, chunked⟩

end

/-! ## The chunks of one payload -/

section

variable {payload : InlineTablePayloadRow} {key : InlineTableChunkKey} {row : InlineTableChunkRow}

theorem chunkEntries_eq
    (chunked : inlineTableChunks payload.tableId payload.schemaId payload.beginOrder payload.payload = .ok rows) :
    chunkEntries payload = rows.map fun row =>
      (⟨payload.tableId, payload.schemaId, payload.beginOrder, row.chunkIndex⟩, row) := by
  simp [chunkEntries, chunked, Except.toOption]

section

variable (storable : Storable payload)

include storable

theorem chunkEntries_ne_nil : chunkEntries payload ≠ [] := by
  obtain ⟨_, rows, chunked⟩ := storable
  obtain ⟨count, positive, _, rfl⟩ := inlineTableChunks_ok chunked
  rw [chunkEntries_eq chunked]
  simp [positive.ne']

theorem mem_chunkEntries (member : (key, row) ∈ chunkEntries payload) :
    key = ⟨payload.tableId, payload.schemaId, payload.beginOrder, row.chunkIndex⟩ ∧
      row.validity = ⟨payload.beginOrder, none⟩ := by
  obtain ⟨_, rows, chunked⟩ := storable
  obtain ⟨count, _, _, rfl⟩ := inlineTableChunks_ok chunked
  rw [chunkEntries_eq chunked] at member
  obtain ⟨chunk, listed, same⟩ := List.mem_map.mp member
  obtain ⟨index, _, rfl⟩ := List.mem_map.mp listed
  obtain ⟨rfl, rfl⟩ := Prod.mk.inj same
  exact ⟨rfl, rfl⟩

theorem chunk_validity (member : row ∈ (chunkEntries payload).map Prod.snd) :
    row.validity = ⟨payload.beginOrder, none⟩ := by
  obtain ⟨⟨key, row⟩, entry, rfl⟩ := List.mem_map.mp member
  exact (mem_chunkEntries storable entry).2

theorem chunkEntries_sorted : KeySorted (chunkEntries payload) := by
  obtain ⟨_, rows, chunked⟩ := storable
  obtain ⟨count, _, _, rfl⟩ := inlineTableChunks_ok chunked
  rw [chunkEntries_eq chunked, KeySorted, List.pairwise_map, List.pairwise_map]
  exact List.pairwise_lt_range.imp fun below => InlineTableChunkKey.lt_of_chunkIndex_lt below

theorem assemble_chunkEntries :
    assembleInlinePayload ((chunkEntries payload).map Prod.snd) = .ok payload.payload := by
  obtain ⟨fits, rows, chunked⟩ := storable
  have same : (chunkEntries payload).map Prod.snd = rows := by
    rw [chunkEntries_eq chunked, List.map_map]
    exact List.map_id rows
  rw [same]
  exact assembleInlinePayload_chunks fits chunked

end

end

/-! ## The history of inline payloads -/

/-- A flush of inlined data, with the order its snapshot had when it was committed. -/
structure InlineFlushEvent where
  tableId : TableId
  schemaId : SchemaId
  snapshotOrder : CatalogOrderId
  commitOrder : CatalogOrderId
  deriving DecidableEq, Repr

def InlineFlushEvent.Covers (flush : InlineFlushEvent) (payload : InlineTablePayloadRow) : Prop :=
  flush.tableId = payload.tableId ∧ flush.schemaId = payload.schemaId ∧ payload.beginOrder ≤ flush.snapshotOrder

instance : Decidable (InlineFlushEvent.Covers flush payload) := inferInstanceAs (Decidable (_ ∧ _))

/-- What the accepted operations registered and flushed, in commit order. -/
structure InlineLog where
  payloads : List InlineTablePayloadRow := []
  flushes : List InlineFlushEvent := []

def InlineLog.append (earlier later : InlineLog) : InlineLog :=
  ⟨earlier.payloads ++ later.payloads, earlier.flushes ++ later.flushes⟩

/-- Payloads registered by the snapshot order and not covered by a flush committed by then. -/
def InlineLog.visibleAt (log : InlineLog) (tableId : TableId) (schemaId : SchemaId) (snapshotOrder : CatalogOrderId) :
    List InlineTablePayloadRow :=
  log.payloads.filter fun payload =>
    payload.tableId = tableId ∧ payload.schemaId = schemaId ∧ payload.beginOrder ≤ snapshotOrder ∧
      ¬∃ flush ∈ log.flushes, flush.Covers payload ∧ flush.commitOrder ≤ snapshotOrder

/-- A flush of file deletions only is no flush of inlined data. -/
def CatalogOperation.inlineFlushEvents (kv : CatalogKv) (operation : CatalogOperation) : List InlineFlushEvent :=
  (operation.inlineFlushes.filter InlineTableFlush.flushInlineData).filterMap fun flush =>
    (snapshotByRawSequence kv flush.flushSnapshotSequence).map fun snapshot =>
      ⟨flush.tableId, flush.schemaId, snapshot.order, kv.generatedOrderId⟩

namespace CatalogHistory

/-- What one operation adds to the log: nothing when it is rejected. -/
def logged (history : CatalogHistory) (operation : CatalogOperation) : InlineLog :=
  match (operation.apply history.kv).1 with
  | .error _ => {}
  | .ok _ => ⟨operation.inlinePayloads history.kv.generatedOrderId, operation.inlineFlushEvents history.kv⟩

def inlineLog (history : CatalogHistory) : List CatalogOperation → InlineLog
  | [] => {}
  | operation :: rest => (history.logged operation).append ((history.after operation).inlineLog rest)

end CatalogHistory

/-- The store holds exactly the logged payloads, and its watermarks end what the logged flushes cover. -/
structure Logged (kv : CatalogKv) (log : InlineLog) : Prop where
  chunks : ∀ key row, kv.inlineTable.get? key = some row ↔ ∃ payload ∈ log.payloads, (key, row) ∈ chunkEntries payload
  storable : ∀ payload ∈ log.payloads, Storable payload
  ordered : log.payloads.Pairwise fun earlier later => earlier.beginOrder < later.beginOrder
  past : ∀ payload ∈ log.payloads, payload.beginOrder ≤ kv.nextOrder
  unmarked : kv.inlineTableEnd = .empty
  snapshots : ∀ rawSequence snapshot, snapshotByRawSequence kv rawSequence = some snapshot →
    snapshot.order ≤ kv.nextOrder
  flushesPast : ∀ flush ∈ log.flushes, flush.snapshotOrder ≤ kv.nextOrder
  watermarked : ∀ key, kv.inlineFlushWatermark.get? key = some () → ∃ flush ∈ log.flushes,
    flush.tableId = key.tableId ∧ flush.schemaId = key.schemaId ∧ flush.commitOrder = key.endOrder ∧
      key.maxBeginOrder ≤ flush.snapshotOrder
  covered : ∀ flush ∈ log.flushes, ∀ payload ∈ log.payloads, flush.Covers payload →
    ∃ key, EndsBegin kv payload.tableId payload.schemaId payload.beginOrder key ∧ key.endOrder ≤ flush.commitOrder

section

variable {kv : CatalogKv} {log : InlineLog} {tableId : TableId} {schemaId : SchemaId} {snapshotOrder : CatalogOrderId}

/-! ## Reading a logged store -/

theorem Logged.visible_iff (logged : Logged kv log) {payload : InlineTablePayloadRow} (member : payload ∈ log.payloads) :
    (∀ key, EndsBegin kv payload.tableId payload.schemaId payload.beginOrder key → snapshotOrder < key.endOrder) ↔
      ¬∃ flush ∈ log.flushes, flush.Covers payload ∧ flush.commitOrder ≤ snapshotOrder := by
  constructor
  · rintro later ⟨flush, listed, covers, committed⟩
    obtain ⟨key, ends, early⟩ := logged.covered flush listed payload member covers
    exact absurd (later key ends) (not_lt.mpr (early.trans committed))
  · intro uncovered key ends
    by_contra early
    obtain ⟨flush, listed, sameTable, sameSchema, sameEnd, reaches⟩ := logged.watermarked key ends.stored
    refine uncovered ⟨flush, listed, ⟨sameTable.trans ends.sameTable, sameSchema.trans ends.sameSchema, ?_⟩, ?_⟩
    · exact ends.reaches.trans reaches
    · exact sameEnd.le.trans (not_lt.mp early)

/-- The scan of one table and schema yields the chunks of the logged payloads. -/
theorem Logged.inlineTableChunkRows_eq (logged : Logged kv log) :
    inlineTableChunkRows kv tableId schemaId =
      (kv.inlineTable.scan fun key => key.tableId = tableId && key.schemaId = schemaId).map Prod.snd := by
  refine List.map_congr_left ?_
  intro entry scanned
  obtain ⟨payload, listed, member⟩ := (logged.chunks _ _).mp (OrderedMap.mem_scan.mp scanned).1
  obtain ⟨named, window⟩ := mem_chunkEntries (logged.storable payload listed) member
  obtain ⟨key, row⟩ := entry
  unfold decodeInlineTableItem
  rw [named]
  cases row with
  | mk _ _ validity =>
    obtain rfl : validity = ⟨payload.beginOrder, none⟩ := window
    rfl

theorem Logged.mem_chunkRows (logged : Logged kv log) {row : InlineTableChunkRow} :
    row ∈ inlineTableChunkRows kv tableId schemaId ↔ ∃ payload ∈ log.payloads,
      payload.tableId = tableId ∧ payload.schemaId = schemaId ∧ row ∈ (chunkEntries payload).map Prod.snd := by
  rw [logged.inlineTableChunkRows_eq]
  simp only [List.mem_map, Prod.exists, exists_eq_right, OrderedMap.mem_scan, logged.chunks]
  constructor
  · rintro ⟨key, ⟨payload, listed, member⟩, inside⟩
    rw [(mem_chunkEntries (logged.storable payload listed) member).1] at inside
    simp only [Bool.and_eq_true, decide_eq_true_eq] at inside
    exact ⟨payload, listed, inside.1, inside.2, key, member⟩
  · rintro ⟨payload, listed, rfl, rfl, key, member⟩
    refine ⟨key, ⟨payload, listed, member⟩, ?_⟩
    rw [(mem_chunkEntries (logged.storable payload listed) member).1]
    simp

theorem Logged.payload_eq (logged : Logged kv log) {left right : InlineTablePayloadRow} (first : left ∈ log.payloads)
    (second : right ∈ log.payloads) (same : left.beginOrder = right.beginOrder) : left = right := by
  have distinct : (log.payloads.map InlineTablePayloadRow.beginOrder).Nodup := by
    rw [List.Nodup, List.pairwise_map]
    exact logged.ordered.imp fun below => below.ne
  exact List.inj_on_of_nodup_map distinct first second same

theorem mem_visibleAt {payload : InlineTablePayloadRow} : payload ∈ log.visibleAt tableId schemaId snapshotOrder ↔
    payload ∈ log.payloads ∧ payload.tableId = tableId ∧ payload.schemaId = schemaId ∧
      payload.beginOrder ≤ snapshotOrder ∧
      ¬∃ flush ∈ log.flushes, flush.Covers payload ∧ flush.commitOrder ≤ snapshotOrder := by
  rw [InlineLog.visibleAt, List.mem_filter, decide_eq_true_eq]

/-- A chunk is visible exactly when the log shows its payload. -/
theorem Logged.chunk_visible_iff (logged : Logged kv log) {payload : InlineTablePayloadRow} {row : InlineTableChunkRow}
    (listed : payload ∈ log.payloads) (sameTable : payload.tableId = tableId) (sameSchema : payload.schemaId = schemaId)
    (member : row ∈ (chunkEntries payload).map Prod.snd) :
    inlineChunkVisibleAt row (inlineTableEndOrdersAt kv tableId schemaId snapshotOrder) snapshotOrder = true ↔
      payload ∈ log.visibleAt tableId schemaId snapshotOrder := by
  have window := chunk_validity (logged.storable payload listed) member
  subst sameTable sameSchema
  rw [inlineChunkVisibleAt_iff logged.unmarked (congrArg ValidityWindow.endOrder window), mem_visibleAt,
    ← logged.visible_iff listed, window]
  simp [listed]

/-- Chunks selected payload by payload group into the chunks of the selected payloads, in begin order. -/
theorem Logged.groupChunksByBegin_filter (logged : Logged kv log) {keep : InlineTableChunkRow → Bool}
    {kept : InlineTablePayloadRow → Bool}
    (agrees : ∀ payload ∈ log.payloads, payload.tableId = tableId → payload.schemaId = schemaId →
      ∀ row ∈ (chunkEntries payload).map Prod.snd, (keep row = true ↔ kept payload = true)) :
    groupChunksByBegin ((inlineTableChunkRows kv tableId schemaId).filter keep) =
      (log.payloads.filter fun payload =>
        payload.tableId = tableId ∧ payload.schemaId = schemaId ∧ kept payload = true).map fun payload =>
          (payload.beginOrder, (chunkEntries payload).map Prod.snd) := by
  let selected := log.payloads.filter fun payload =>
    payload.tableId = tableId ∧ payload.schemaId = schemaId ∧ kept payload = true
  have mem_selected {payload : InlineTablePayloadRow} : payload ∈ selected ↔ payload ∈ log.payloads ∧
      payload.tableId = tableId ∧ payload.schemaId = schemaId ∧ kept payload = true := by
    rw [List.mem_filter, decide_eq_true_eq]
  have sorted : (selected.map InlineTablePayloadRow.beginOrder).Pairwise (· < ·) := by
    rw [List.pairwise_map]
    exact logged.ordered.filter _
  have begins : (((inlineTableChunkRows kv tableId schemaId).filter keep).map fun row =>
      row.validity.beginOrder).dedup.insertionSort (· ≤ ·) = selected.map InlineTablePayloadRow.beginOrder := by
    rw [← orderedSet_of_sorted sorted]
    refine orderedSet_congr ?_
    intro beginOrder
    simp only [List.mem_map, List.mem_filter, mem_selected]
    constructor
    · rintro ⟨row, ⟨scanned, keeps⟩, rfl⟩
      obtain ⟨payload, listed, sameTable, sameSchema, member⟩ := logged.mem_chunkRows.mp scanned
      refine ⟨payload, ⟨listed, sameTable, sameSchema, ?_⟩, ?_⟩
      · exact (agrees payload listed sameTable sameSchema row member).mp keeps
      · rw [chunk_validity (logged.storable payload listed) member]
    · rintro ⟨payload, ⟨listed, sameTable, sameSchema, keeps⟩, rfl⟩
      obtain ⟨⟨key, row⟩, member⟩ := List.exists_mem_of_ne_nil _ (chunkEntries_ne_nil (logged.storable payload listed))
      have mapped : row ∈ (chunkEntries payload).map Prod.snd := List.mem_map.mpr ⟨_, member, rfl⟩
      refine ⟨row, ⟨?_, (agrees payload listed sameTable sameSchema row mapped).mpr keeps⟩, ?_⟩
      · exact logged.mem_chunkRows.mpr ⟨payload, listed, sameTable, sameSchema, mapped⟩
      · rw [chunk_validity (logged.storable payload listed) mapped]
  unfold groupChunksByBegin
  rw [begins, List.map_map]
  refine List.map_congr_left ?_
  intro payload member
  obtain ⟨listed, sameTable, sameSchema, keeps⟩ := mem_selected.mp member
  refine Prod.ext rfl ?_
  -- The selected chunks that begin with the payload are all its chunks.
  dsimp only [Function.comp_apply]
  rw [logged.inlineTableChunkRows_eq, List.filter_map, List.filter_map]
  refine congrArg (List.map Prod.snd) (List.Pairwise.eq_of_mem_iff
    (((OrderedMap.scan_sorted _ _).filter _).filter _) (chunkEntries_sorted (logged.storable payload listed)) ?_)
  rintro ⟨key, row⟩
  simp only [List.mem_filter, OrderedMap.mem_scan, logged.chunks, Function.comp_apply, decide_eq_true_eq]
  constructor
  · rintro ⟨⟨⟨⟨other, otherListed, entry⟩, _⟩, _⟩, begins⟩
    have window := (mem_chunkEntries (logged.storable other otherListed) entry).2
    rw [window] at begins
    rwa [logged.payload_eq otherListed listed begins] at entry
  · intro entry
    obtain ⟨named, window⟩ := mem_chunkEntries (logged.storable payload listed) entry
    refine ⟨⟨⟨⟨payload, listed, entry⟩, ?_⟩, ?_⟩, by rw [window]⟩
    · simp [named, sameTable, sameSchema]
    · exact (agrees payload listed sameTable sameSchema row (List.mem_map.mpr ⟨_, entry, rfl⟩)).mpr keeps

theorem Logged.listInlineTablePayloadsAt_eq (logged : Logged kv log) :
    listInlineTablePayloadsAt kv tableId schemaId snapshotOrder =
      .ok (log.visibleAt tableId schemaId snapshotOrder) := by
  let kept (payload : InlineTablePayloadRow) : Bool := decide (payload.beginOrder ≤ snapshotOrder ∧
    ¬∃ flush ∈ log.flushes, flush.Covers payload ∧ flush.commitOrder ≤ snapshotOrder)
  have grouped := @groupChunksByBegin_filter kv log tableId schemaId logged
    (fun row => inlineChunkVisibleAt row (inlineTableEndOrdersAt kv tableId schemaId snapshotOrder) snapshotOrder) kept ?_
  · have selected : (log.payloads.filter fun payload =>
        payload.tableId = tableId ∧ payload.schemaId = schemaId ∧ kept payload = true) =
        log.visibleAt tableId schemaId snapshotOrder := by
      refine List.filter_congr ?_
      intro payload _
      simp [kept]
    rw [selected] at grouped
    unfold listInlineTablePayloadsAt
    dsimp only
    rw [grouped, mapM_eq_ok_iff]
    refine List.forall₂_map_left_iff.mpr (List.forall₂_same.mpr ?_)
    intro payload visible
    obtain ⟨listed, rfl, rfl, _⟩ := mem_visibleAt.mp visible
    simp only [assemble_chunkEntries (logged.storable payload listed)]
    rfl
  · intro payload listed sameTable sameSchema row member
    rw [logged.chunk_visible_iff listed sameTable sameSchema member, mem_visibleAt]
    simp [kept, listed, sameTable, sameSchema]

end

end DucklakeCatalog
