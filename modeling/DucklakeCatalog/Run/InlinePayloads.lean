import DucklakeCatalog.Run.InlineHistory

namespace DucklakeCatalog

open KeyedStore

section

variable {kv : CatalogKv} {log : InlineLog} {operation : CatalogOperation} {batch : KvBatch}

/-! ## One commit -/

theorem CatalogOperation.inlinePayloads_cases (operation : CatalogOperation) (order : CatalogOrderId) :
    operation.inlinePayloads order = [] ∨
      ∃ payload, operation.inlinePayloads order = [payload] ∧ payload.beginOrder = order := by
  cases operation with
  | registerInlinePayload
  | registerInlinePayloadWithTable => exact Or.inr ⟨_, rfl, rfl⟩
  | _ => exact Or.inl rfl

variable {order : CatalogOrderId} {payload : InlineTablePayloadRow} {event : InlineFlushEvent}
  {flush : InlineTableFlush} {rows : List InlineTableChunkRow} {key : InlineFlushWatermarkKey}

theorem mem_inlinePayloads (member : payload ∈ operation.inlinePayloads order) : payload.beginOrder = order := by
  rcases operation.inlinePayloads_cases order with none | ⟨only, same, begins⟩
  · simp [none] at member
  · rw [same, List.mem_singleton] at member
    rw [member, begins]

theorem mem_inlineFlushEvents :
    event ∈ operation.inlineFlushEvents kv ↔ ∃ flush ∈ operation.inlineFlushes, flush.flushInlineData = true ∧
      ∃ snapshot, snapshotByRawSequence kv flush.flushSnapshotSequence = some snapshot ∧
        ⟨flush.tableId, flush.schemaId, snapshot.order, kv.generatedOrderId⟩ = event := by
  simp only [CatalogOperation.inlineFlushEvents, List.mem_filterMap, List.mem_filter, Option.map_eq_some_iff, and_assoc]

/-- What an accepted flush of inlined data read. -/
theorem flushInlineTablePayloadRows_snapshot (flushed : flushInlineTablePayloadRows kv flush order = .ok rows) :
    ∃ snapshot, snapshotByRawSequence kv flush.flushSnapshotSequence = some snapshot ∧
      flushInlineTablePayloadRowsAtSnapshotOrder kv flush snapshot.order order = .ok rows := by
  unfold flushInlineTablePayloadRows at flushed
  split at flushed
  · simp at flushed
  · rename_i snapshot named
    exact ⟨snapshot, named, flushed⟩

theorem mem_watermarkEntries (flushesData : flush.flushInlineData = true)
    (flushed : flushInlineTablePayloadRows kv flush kv.generatedOrderId = .ok rows) :
    (key, ()) ∈ watermarkEntries kv flush ↔ ∃ maxBeginOrder,
      (rows.map fun row => row.validity.beginOrder).max? = some maxBeginOrder ∧
        key = ⟨flush.tableId, kv.generatedOrderId, flush.schemaId, maxBeginOrder⟩ := by
  unfold watermarkEntries
  rw [if_pos flushesData, flushed]
  simp [Except.toOption, eq_comm]

theorem StagesInlineData.get?_watermark (stages : StagesInlineData kv operation batch) (key : InlineFlushWatermarkKey) :
    (kv.withGeneratedOrder.commit batch).inlineFlushWatermark.get? key = some () ↔
      kv.inlineFlushWatermark.get? key = some () ∨ (key, ()) ∈ operation.inlineFlushes.flatMap (watermarkEntries kv) := by
  have committed : (kv.withGeneratedOrder.commit batch).inlineFlushWatermark =
      kv.inlineFlushWatermark.commit batch.inlineFlushWatermark := rfl
  rw [committed, stages.watermarks]
  rcases OrderedMap.get?_commit_putAll_cases kv.inlineFlushWatermark
    (operation.inlineFlushes.flatMap (watermarkEntries kv)) key with ⟨_, member, found⟩ | ⟨unwritten, found⟩
  · rw [found]
    exact iff_of_true rfl (Or.inr member)
  · rw [found, or_iff_left (unwritten ())]

/-- Every watermark a commit adds is that of a logged flush and reaches no further than its snapshot. -/
theorem StagesInlineData.watermark_logged (stages : StagesInlineData kv operation batch)
    (member : (key, ()) ∈ operation.inlineFlushes.flatMap (watermarkEntries kv)) :
    ∃ flush ∈ operation.inlineFlushEvents kv, flush.tableId = key.tableId ∧ flush.schemaId = key.schemaId ∧
      flush.commitOrder = key.endOrder ∧ key.maxBeginOrder ≤ flush.snapshotOrder := by
  obtain ⟨flush, carried, member⟩ := List.mem_flatMap.mp member
  have flushesData : flush.flushInlineData = true := by
    by_contra deletionsOnly
    simp [watermarkEntries, deletionsOnly] at member
  obtain ⟨rows, flushed⟩ := stages.flushed flush carried flushesData
  obtain ⟨snapshot, named, taken⟩ := flushInlineTablePayloadRows_snapshot flushed
  obtain ⟨maxBeginOrder, newest, rfl⟩ := (mem_watermarkEntries flushesData flushed).mp member
  refine ⟨_, mem_inlineFlushEvents.mpr ⟨flush, carried, flushesData, snapshot, named, rfl⟩, rfl, rfl, rfl, ?_⟩
  obtain ⟨row, listed, rfl⟩ := List.mem_map.mp (List.max?_eq_some_iff.mp newest).1
  exact (flushInlineTablePayloadRowsAtSnapshotOrder_ok taken).1 row listed

theorem EndsBegin.commit {tableId : TableId} {schemaId : SchemaId} {beginOrder : CatalogOrderId}
    (ends : EndsBegin kv tableId schemaId beginOrder key) (stages : StagesInlineData kv operation batch) :
    EndsBegin (kv.withGeneratedOrder.commit batch) tableId schemaId beginOrder key :=
  ⟨(stages.get?_watermark key).mpr (Or.inl ends.stored), ends.sameTable, ends.sameSchema, ends.reaches⟩

/-- A payload stored before a flush whose snapshot saw it ends at the flush or ended before. -/
theorem Logged.covered_by_new (logged : Logged kv log) (stages : StagesInlineData kv operation batch)
    (flushes : event ∈ operation.inlineFlushEvents kv)
    (listed : payload ∈ log.payloads) (covers : event.Covers payload) :
    ∃ key, EndsBegin (kv.withGeneratedOrder.commit batch) payload.tableId payload.schemaId payload.beginOrder key ∧
      key.endOrder ≤ event.commitOrder := by
  obtain ⟨flush, carried, flushesData, snapshot, named, rfl⟩ := mem_inlineFlushEvents.mp flushes
  obtain ⟨sameTable, sameSchema, seen⟩ := covers
  obtain ⟨rows, flushed⟩ := stages.flushed flush carried flushesData
  obtain ⟨other, sameName, taken⟩ := flushInlineTablePayloadRows_snapshot flushed
  obtain rfl : snapshot = other := Option.some.inj (named.symm.trans sameName)
  obtain ⟨⟨key, row⟩, entry⟩ := List.exists_mem_of_ne_nil _ (chunkEntries_ne_nil (logged.storable payload listed))
  have window := (mem_chunkEntries (logged.storable payload listed) entry).2
  have stored : row ∈ inlineTableChunkRows kv flush.tableId flush.schemaId :=
    logged.mem_chunkRows.mpr ⟨payload, listed, sameTable.symm, sameSchema.symm, List.mem_map.mpr ⟨_, entry, rfl⟩⟩
  have fate := (flushInlineTablePayloadRowsAtSnapshotOrder_ok taken).2 row stored
  rw [window] at fate
  rcases fate seen with flushedNow | ⟨existingEnd, _, ended⟩
  · cases newest : (rows.map fun row => row.validity.beginOrder).max? with
    | none => simp [List.max?_eq_none_iff.mp newest] at flushedNow
    | some maxBeginOrder =>
      have written : ((⟨flush.tableId, kv.generatedOrderId, flush.schemaId, maxBeginOrder⟩ : InlineFlushWatermarkKey),
          ()) ∈ operation.inlineFlushes.flatMap (watermarkEntries kv) :=
        List.mem_flatMap.mpr ⟨flush, carried, (mem_watermarkEntries flushesData flushed).mpr ⟨_, newest, rfl⟩⟩
      refine ⟨_, ⟨(stages.get?_watermark _).mpr (Or.inr written), sameTable, sameSchema, ?_⟩, le_rfl⟩
      exact (List.max?_eq_some_iff.mp newest).2 _ flushedNow
  · rw [inlineChunkEndOrder, window, Option.none_or] at ended
    rcases @endOrderFor_cases kv flush.tableId flush.schemaId kv.generatedOrderId payload.beginOrder logged.unmarked with
      ⟨none, _⟩ | ⟨key, ends, past, _⟩
    · simp [none] at ended
    · rw [← sameTable, ← sameSchema]
      exact ⟨key, ends.commit stages, past⟩

theorem Logged.commit_chunks (logged : Logged kv log) (stages : StagesInlineData kv operation batch)
    (key : InlineTableChunkKey) (row : InlineTableChunkRow) :
    (kv.withGeneratedOrder.commit batch).inlineTable.get? key = some row ↔
      ∃ payload ∈ log.payloads ++ operation.inlinePayloads kv.generatedOrderId, (key, row) ∈ chunkEntries payload := by
  have committed : (kv.withGeneratedOrder.commit batch).inlineTable = kv.inlineTable.commit batch.inlineTable := rfl
  rw [committed, stages.chunks]
  rcases operation.inlinePayloads_cases kv.generatedOrderId with none | ⟨payload, only, begins⟩
  · simp only [none, List.flatMap_nil, Staged.putAll_nil, OrderedMap.commit_empty, List.append_nil, logged.chunks]
  · have storable : Storable payload := stages.storable payload (by simp [only])
    have untouched {stored : InlineTableChunkRow} (found : kv.inlineTable.get? key = some stored)
        {value : InlineTableChunkRow} (written : (key, value) ∈ chunkEntries payload) : False := by
      obtain ⟨old, listed, entry⟩ := (logged.chunks key stored).mp found
      have sameKey := (mem_chunkEntries (logged.storable old listed) entry).1.symm.trans
        (mem_chunkEntries storable written).1
      have sameBegin : old.beginOrder = payload.beginOrder := congrArg InlineTableChunkKey.beginOrder sameKey
      have early := logged.past old listed
      rw [sameBegin, begins] at early
      exact Nat.not_succ_le_self kv.nextOrder early
    rw [only, List.flatMap_singleton]
    simp only [List.mem_append, List.mem_singleton, or_and_right, exists_or, exists_eq_left]
    rw [← logged.chunks]
    rcases OrderedMap.get?_commit_putAll_cases kv.inlineTable (chunkEntries payload) key with
      ⟨value, member, found⟩ | ⟨unwritten, found⟩
    · rw [found, Option.some.injEq]
      constructor
      · rintro rfl
        exact Or.inr member
      · rintro (stored | entry)
        · exact absurd member (untouched stored)
        · have sorted := chunkEntries_sorted storable
          exact Option.some.inj (((lookup_eq_some_iff sorted).mpr member).symm.trans
            ((lookup_eq_some_iff sorted).mpr entry))
    · rw [found, or_iff_left (unwritten row)]

theorem CatalogOperation.Commits.rawSnapshots (commits : operation.Commits kv batch)
    (past : ∀ rawSequence snapshot, snapshotByRawSequence kv rawSequence = some snapshot →
      snapshot.order ≤ kv.nextOrder) {rawSequence : RawSnapshotSequence} {snapshot : SnapshotRow}
    (found : snapshotByRawSequence (kv.withGeneratedOrder.commit batch) rawSequence = some snapshot) :
    snapshot.order ≤ kv.nextOrder + 1 := by
  obtain ⟨newest, order, rows⟩ := commits.snapshotRows
  have staged : batch.rawSnapshotRow = ({} : Staged RawSnapshotSequence SnapshotRow).put newest.sequence newest :=
    congrArg Prod.snd rows
  have committed : (kv.withGeneratedOrder.commit batch).rawSnapshotRow =
      kv.rawSnapshotRow.commit batch.rawSnapshotRow := rfl
  rw [snapshotByRawSequence, committed, staged, OrderedMap.commit_put, OrderedMap.get?_insert] at found
  split at found
  · rw [← Option.some.inj found]
    exact order.le
  · exact Nat.le_succ_of_le (past rawSequence snapshot found)

theorem Logged.commit (logged : Logged kv log) (commits : operation.Commits kv batch) :
    Logged (kv.withGeneratedOrder.commit batch)
      (log.append ⟨operation.inlinePayloads kv.generatedOrderId, operation.inlineFlushEvents kv⟩) := by
  have stages := commits.inlineData
  have newEvents : ∀ event ∈ operation.inlineFlushEvents kv, event.snapshotOrder ≤ kv.nextOrder := by
    intro event member
    obtain ⟨flush, _, _, snapshot, named, rfl⟩ := mem_inlineFlushEvents.mp member
    exact logged.snapshots _ snapshot named
  have events : ∀ event ∈ log.flushes ++ operation.inlineFlushEvents kv, event.snapshotOrder ≤ kv.nextOrder := by
    intro event member
    rcases List.mem_append.mp member with old | new
    · exact logged.flushesPast event old
    · exact newEvents event new
  constructor
  case chunks => exact logged.commit_chunks stages
  case storable =>
    intro payload member
    rcases List.mem_append.mp member with old | new
    · exact logged.storable payload old
    · exact stages.storable payload new
  case ordered =>
    refine List.pairwise_append.mpr ⟨logged.ordered, ?_, ?_⟩
    · rcases operation.inlinePayloads_cases kv.generatedOrderId with none | ⟨payload, only, _⟩
      · simp [none]
      · simp [only]
    · intro earlier old later new
      rw [mem_inlinePayloads new]
      exact Nat.lt_succ_of_le (logged.past earlier old)
  case past =>
    intro payload member
    rcases List.mem_append.mp member with old | new
    · exact Nat.le_succ_of_le (logged.past payload old)
    · exact (mem_inlinePayloads new).le
  case unmarked =>
    have committed : (kv.withGeneratedOrder.commit batch).inlineTableEnd =
        kv.inlineTableEnd.commit batch.inlineTableEnd := rfl
    rw [committed, stages.unmarked, OrderedMap.commit_empty, logged.unmarked]
  case snapshots => exact fun rawSequence snapshot found => commits.rawSnapshots logged.snapshots found
  case flushesPast => exact fun event member => Nat.le_succ_of_le (events event member)
  case watermarked =>
    intro key found
    rcases (stages.get?_watermark key).mp found with old | new
    · obtain ⟨flush, listed, rest⟩ := logged.watermarked key old
      exact ⟨flush, List.mem_append_left _ listed, rest⟩
    · obtain ⟨flush, listed, rest⟩ := stages.watermark_logged new
      exact ⟨flush, List.mem_append_right _ listed, rest⟩
  case covered =>
    intro event member payload listed covers
    rcases List.mem_append.mp listed with oldPayload | newPayload
    · rcases List.mem_append.mp member with oldEvent | newEvent
      · obtain ⟨key, ends, early⟩ := logged.covered event oldEvent payload oldPayload covers
        exact ⟨key, ends.commit stages, early⟩
      · exact logged.covered_by_new stages newEvent oldPayload covers
    · -- No flush snapshot is as new as the payload this commit registers.
      have seen := covers.2.2.trans (events event member)
      rw [mem_inlinePayloads newPayload] at seen
      exact absurd seen (Nat.not_succ_le_self kv.nextOrder)

theorem Logged.generated (logged : Logged kv log) : Logged kv.withGeneratedOrder log :=
  { logged with
    past := fun payload listed => Nat.le_succ_of_le (logged.past payload listed)
    snapshots := fun rawSequence snapshot found => Nat.le_succ_of_le (logged.snapshots rawSequence snapshot found)
    flushesPast := fun flush listed => Nat.le_succ_of_le (logged.flushesPast flush listed)
    covered := fun flush listed payload member covers => by
      obtain ⟨key, ends, early⟩ := logged.covered flush listed payload member covers
      exact ⟨key, ⟨ends.stored, ends.sameTable, ends.sameSchema, ends.reaches⟩, early⟩ }

theorem Logged.maintain (logged : Logged kv log) (maintains : operation.Maintains kv batch) :
    Logged (kv.commit batch) log := by
  have same := maintains.inlineMaps
  have data := inlineData_congr same
  simp only [KvBatch.inlineData, Prod.mk.injEq] at data
  obtain ⟨noChunks, noWatermarks, noEnds⟩ := data
  have chunks : (kv.commit batch).inlineTable = kv.inlineTable := by
    have committed : (kv.commit batch).inlineTable = kv.inlineTable.commit batch.inlineTable := rfl
    rw [committed, noChunks]
    rfl
  have watermarks : (kv.commit batch).inlineFlushWatermark = kv.inlineFlushWatermark := by
    have committed : (kv.commit batch).inlineFlushWatermark =
        kv.inlineFlushWatermark.commit batch.inlineFlushWatermark := rfl
    rw [committed, noWatermarks]
    rfl
  have ends : (kv.commit batch).inlineTableEnd = kv.inlineTableEnd := by
    have committed : (kv.commit batch).inlineTableEnd = kv.inlineTableEnd.commit batch.inlineTableEnd := rfl
    rw [committed, noEnds]
    rfl
  have snapshots : (kv.commit batch).rawSnapshotRow = kv.rawSnapshotRow := by
    have committed : (kv.commit batch).rawSnapshotRow = kv.rawSnapshotRow.commit batch.rawSnapshotRow := rfl
    have staged : batch.rawSnapshotRow = {} := congrArg Prod.snd (snapshotRows_congr same)
    rw [committed, staged]
    rfl
  constructor
  case chunks => rw [chunks]; exact logged.chunks
  case storable => exact logged.storable
  case ordered => exact logged.ordered
  case past => exact logged.past
  case unmarked => rw [ends]; exact logged.unmarked
  case snapshots => unfold snapshotByRawSequence; rw [snapshots]; exact logged.snapshots
  case flushesPast => exact logged.flushesPast
  case watermarked => rw [watermarks]; exact logged.watermarked
  case covered =>
    intro flush listed payload member covers
    obtain ⟨key, ending, early⟩ := logged.covered flush listed payload member covers
    exact ⟨key, ⟨watermarks ▸ ending.stored, ending.sameTable, ending.sameSchema, ending.reaches⟩, early⟩

theorem Logged.start (lastOrder : CatalogOrderId) (now : Int) : Logged (CatalogHistory.start lastOrder now).kv {} := by
  have noChunks : (CatalogHistory.start lastOrder now).kv.inlineTable = .empty := rfl
  have noWatermarks : (CatalogHistory.start lastOrder now).kv.inlineFlushWatermark = .empty := rfl
  constructor
  case chunks => simp [noChunks]
  case storable => simp
  case ordered => simp
  case past => simp
  case unmarked => rfl
  case snapshots =>
    intro rawSequence snapshot found
    have only : (CatalogHistory.start lastOrder now).kv.rawSnapshotRow =
        (OrderedMap.empty : OrderedMap RawSnapshotSequence SnapshotRow).insert 0 (SnapshotRow.new (lastOrder + 1) 0 now) :=
      rfl
    rw [snapshotByRawSequence, only, OrderedMap.get?_insert] at found
    split at found
    · rw [← Option.some.inj found]
      exact le_rfl
    · simp at found
  case flushesPast => simp
  case watermarked => simp [noWatermarks]
  case covered => simp

end

/-! ## Whole runs -/

theorem InlineLog.append_nil (log : InlineLog) : log.append {} = log := by
  simp [InlineLog.append]

theorem InlineLog.append_assoc (first second third : InlineLog) :
    (first.append second).append third = first.append (second.append third) := by
  simp [InlineLog.append]

/-- What commits and maintenance keep of a catalog and its log holds along every run. -/
theorem CatalogHistory.run_log (Kept : CatalogKv → InlineLog → Prop)
    (generated : ∀ {kv log}, Kept kv log → Kept kv.withGeneratedOrder log)
    (commit : ∀ {kv log batch} {operation : CatalogOperation}, Kept kv log → operation.Commits kv batch →
      Kept (kv.withGeneratedOrder.commit batch)
        (log.append ⟨operation.inlinePayloads kv.generatedOrderId, operation.inlineFlushEvents kv⟩))
    (maintain : ∀ {kv log batch} {operation : CatalogOperation}, Kept kv log → operation.Maintains kv batch →
      Kept (kv.commit batch) log)
    {history : CatalogHistory} {log : InlineLog} (kept : Kept history.kv log) (operations : List CatalogOperation) :
    Kept (history.run operations).kv (log.append (history.inlineLog operations)) := by
  induction operations generalizing history log with
  | nil => exact log.append_nil.symm ▸ kept
  | cons operation rest ih =>
    have step : Kept (history.after operation).kv (log.append (history.logged operation)) := by
      unfold CatalogHistory.after CatalogHistory.logged
      have outcome := operation.apply_outcome history.kv
      generalize operation.apply history.kv = result at outcome ⊢
      cases outcome with
      | rejected failure => exact log.append_nil.symm ▸ kept
      | rejectedWithOrder failure => exact log.append_nil.symm ▸ generated kept
      | nothingToDo _ _ noFlushes noPayloads =>
        simpa [CatalogOperation.inlineFlushEvents, noFlushes, noPayloads, InlineLog.append] using kept
      | committed commits => exact commit kept commits
      | maintained maintains =>
        have kept := maintain kept maintains
        cases maintains with
        | expireSnapshots
        | removeOldDataFiles
        | removeOldDeleteFiles => exact log.append_nil.symm ▸ kept
    have later := ih step
    rw [InlineLog.append_assoc] at later
    exact later

theorem Logged.run {history : CatalogHistory} {log : InlineLog} (logged : Logged history.kv log)
    (operations : List CatalogOperation) :
    Logged (history.run operations).kv (log.append (history.inlineLog operations)) :=
  CatalogHistory.run_log Logged Logged.generated Logged.commit Logged.maintain logged operations

/-- The payloads visible at a snapshot order are those the history of the catalog leaves visible there, with
their registered bytes and in begin order. -/
theorem listInlineTablePayloadsAt_history (lastOrder : CatalogOrderId) (now : Int) (operations : List CatalogOperation)
    (tableId : TableId) (schemaId : SchemaId) (snapshotOrder : CatalogOrderId) :
    listInlineTablePayloadsAt ((CatalogHistory.start lastOrder now).run operations).kv tableId schemaId snapshotOrder =
        .ok (((CatalogHistory.start lastOrder now).inlineLog operations).visibleAt tableId schemaId snapshotOrder) ∧
      (((CatalogHistory.start lastOrder now).inlineLog operations).visibleAt tableId schemaId snapshotOrder).Pairwise
        fun earlier later => earlier.beginOrder < later.beginOrder := by
  have logged := (Logged.start lastOrder now).run operations
  have opening (log : InlineLog) : ({} : InlineLog).append log = log := by simp [InlineLog.append]
  rw [opening] at logged
  exact ⟨logged.listInlineTablePayloadsAt_eq, logged.ordered.filter _⟩

end DucklakeCatalog
