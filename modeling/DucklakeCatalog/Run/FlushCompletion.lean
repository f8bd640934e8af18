import DucklakeCatalog.Inline.FlushCompletion
import DucklakeCatalog.Run.InlinePayloadCleanup

namespace DucklakeCatalog

open KeyedStore

/-! ## What a flush hides -/

/-- The flush ends inlined data and its snapshot saw the payload. -/
def InlineTableFlush.Names (kv : CatalogKv) (flush : InlineTableFlush) (id : InlineTableCleanupId) : Prop :=
  flush.flushInlineData = true ∧ flush.tableId = id.tableId ∧ flush.schemaId = id.schemaId ∧
    ∃ snapshot, snapshotByRawSequence kv flush.flushSnapshotSequence = some snapshot ∧ id.beginOrder ≤ snapshot.order

/-- Some chunk of the payload is visible at a snapshot order before and no longer after. -/
def BecameHidden (kv next : CatalogKv) (id : InlineTableCleanupId) : Prop :=
  ∃ row ∈ inlineTableChunkRows kv id.tableId id.schemaId, row.validity.beginOrder = id.beginOrder ∧
    ∃ snapshotOrder,
      inlineChunkVisibleAt row (inlineTableEndOrdersAt kv id.tableId id.schemaId snapshotOrder) snapshotOrder = true ∧
        ¬inlineChunkVisibleAt row (inlineTableEndOrdersAt next id.tableId id.schemaId snapshotOrder) snapshotOrder = true

/-- Some chunk of the payload is stored open and still visible at the order the next commit draws, or later. -/
def OpenPayload (kv : CatalogKv) (id : InlineTableCleanupId) : Prop :=
  ∃ row ∈ inlineTableChunkRows kv id.tableId id.schemaId, row.validity.beginOrder = id.beginOrder ∧
    row.validity.endOrder = none ∧ ∃ snapshotOrder, kv.generatedOrderId ≤ snapshotOrder ∧
      inlineChunkVisibleAt row (inlineTableEndOrdersAt kv id.tableId id.schemaId snapshotOrder) snapshotOrder = true

section

variable {kv : CatalogKv} {operation : CatalogOperation} {batch : KvBatch}

section

variable (stages : StagesInlineData kv operation batch)

include stages

/-- A commit ends what had ended before and what its flushes reach, at the order it draws. -/
theorem StagesInlineData.endsAt {tableId : TableId} {schemaId : SchemaId}
    {beginOrder endOrder : CatalogOrderId} :
    EndsAt (kv.withGeneratedOrder.commit batch) tableId schemaId beginOrder endOrder ↔
      EndsAt kv tableId schemaId beginOrder endOrder ∨ ∃ maxBeginOrder, beginOrder ≤ maxBeginOrder ∧
        ((⟨tableId, endOrder, schemaId, maxBeginOrder⟩ : InlineFlushWatermarkKey), ()) ∈
          operation.inlineFlushes.flatMap (watermarkEntries kv) := by
  have sameMarkers : (kv.withGeneratedOrder.commit batch).inlineTableEnd = kv.inlineTableEnd := by
    have committed : (kv.withGeneratedOrder.commit batch).inlineTableEnd = kv.inlineTableEnd.commit batch.inlineTableEnd :=
      rfl
    rw [committed, stages.unmarked, OrderedMap.commit_empty]
  constructor
  · intro ends
    cases ends with
    | marked stored =>
      rw [sameMarkers] at stored
      exact Or.inl (.marked stored)
    | @flushed key ends =>
      obtain ⟨stored, rfl, rfl, reaches⟩ := ends
      rcases (stages.get?_watermark key).mp stored with earlier | added
      · exact Or.inl (.flushed ⟨earlier, rfl, rfl, reaches⟩)
      · exact Or.inr ⟨key.maxBeginOrder, reaches, added⟩
  · rintro (ends | ⟨maxBeginOrder, reaches, added⟩)
    · cases ends with
      | marked stored =>
        rw [← sameMarkers] at stored
        exact .marked stored
      | flushed ends =>
        exact .flushed ⟨(stages.get?_watermark _).mpr (Or.inl ends.stored), ends.sameTable, ends.sameSchema, ends.reaches⟩
    · have ends : EndsBegin (kv.withGeneratedOrder.commit batch) tableId schemaId beginOrder
          ⟨tableId, endOrder, schemaId, maxBeginOrder⟩ :=
        ⟨(stages.get?_watermark _).mpr (Or.inr added), rfl, rfl, reaches⟩
      exact .flushed ends

/-- A flush adds a watermark for what its snapshot saw, at the order the commit draws. -/
theorem StagesInlineData.watermark_names {id : InlineTableCleanupId}
    {endOrder maxBeginOrder : CatalogOrderId} (reaches : id.beginOrder ≤ maxBeginOrder)
    (added : ((⟨id.tableId, endOrder, id.schemaId, maxBeginOrder⟩ : InlineFlushWatermarkKey), ()) ∈
      operation.inlineFlushes.flatMap (watermarkEntries kv)) :
    endOrder = kv.generatedOrderId ∧ ∃ flush ∈ operation.inlineFlushes, flush.Names kv id := by
  obtain ⟨flush, carried, member⟩ := List.mem_flatMap.mp added
  have flushesData : flush.flushInlineData = true := by
    by_contra deletionsOnly
    simp [watermarkEntries, deletionsOnly] at member
  obtain ⟨rows, flushed⟩ := stages.flushed flush carried flushesData
  obtain ⟨snapshot, named, taken⟩ := flushInlineTablePayloadRows_snapshot flushed
  obtain ⟨newestOrder, newest, same⟩ := (mem_watermarkEntries flushesData flushed).mp member
  simp only [InlineFlushWatermarkKey.mk.injEq] at same
  obtain ⟨sameTable, rfl, sameSchema, rfl⟩ := same
  obtain ⟨row, listed, begins⟩ := List.mem_map.mp (List.max?_eq_some_iff.mp newest).1
  have seen := (flushInlineTablePayloadRowsAtSnapshotOrder_ok taken).1 row listed
  refine ⟨rfl, flush, carried, flushesData, sameTable.symm, sameSchema.symm, snapshot, named, ?_⟩
  exact (reaches.trans_eq begins.symm).trans seen

/-- A payload becomes hidden exactly when it was open and a committed flush names it. -/
theorem StagesInlineData.becameHidden_iff {id : InlineTableCleanupId} :
    BecameHidden kv (kv.withGeneratedOrder.commit batch) id ↔
      OpenPayload kv id ∧ ∃ flush ∈ operation.inlineFlushes, flush.Names kv id := by
  constructor
  · rintro ⟨row, stored, begins, snapshotOrder, visible, hidden⟩
    cases own : row.validity.endOrder with
    | some endOrder =>
      refine absurd ?_ hidden
      simpa [inlineChunkVisibleAt, inlineChunkEndOrder, own] using visible
    | none =>
      have before := (inlineChunkVisibleAt_open own).mp visible
      rw [inlineChunkVisibleAt_open own] at hidden
      have ended : ∃ endOrder, EndsAt (kv.withGeneratedOrder.commit batch) id.tableId id.schemaId
          row.validity.beginOrder endOrder ∧ endOrder ≤ snapshotOrder := by
        by_contra none
        refine hidden ⟨before.1, ?_⟩
        intro endOrder ends
        by_contra early
        exact none ⟨endOrder, ends, not_lt.mp early⟩
      obtain ⟨endOrder, ends, early⟩ := ended
      rcases stages.endsAt.mp ends with earlier | ⟨maxBeginOrder, reaches, added⟩
      · exact absurd (before.2 endOrder earlier) (not_lt.mpr early)
      · obtain ⟨rfl, named⟩ := stages.watermark_names (begins ▸ reaches) added
        exact ⟨⟨row, stored, begins, own, snapshotOrder, early, visible⟩, named⟩
  · rintro ⟨⟨row, stored, begins, own, snapshotOrder, after, visible⟩, flush, carried, flushesData, sameTable, sameSchema,
      snapshot, named, seen⟩
    refine ⟨row, stored, begins, snapshotOrder, visible, ?_⟩
    have before := (inlineChunkVisibleAt_open own).mp visible
    obtain ⟨rows, flushed⟩ := stages.flushed flush carried flushesData
    obtain ⟨other, sameName, taken⟩ := flushInlineTablePayloadRows_snapshot flushed
    obtain rfl : snapshot = other := Option.some.inj (named.symm.trans sameName)
    have isFlushed : row.validity.beginOrder ∈ rows.map fun row => row.validity.beginOrder := by
      rw [← sameTable, ← sameSchema] at stored before
      rcases (flushInlineTablePayloadRowsAtSnapshotOrder_ok taken).2 row stored (begins ▸ seen) with
        member | ⟨existingEnd, _, found⟩
      · exact member
      · rw [inlineChunkEndOrder, own, Option.none_or] at found
        rcases @endOrderFor_ends kv flush.tableId flush.schemaId kv.generatedOrderId row.validity.beginOrder with
          ⟨noEnd, _⟩ | ⟨endOrder, ends, ended, _⟩
        · simp [noEnd] at found
        · exact absurd (before.2 endOrder ends) (not_lt.mpr (ended.trans after))
    cases newest : (rows.map fun row => row.validity.beginOrder).max? with
    | none =>
      rw [List.max?_eq_none_iff] at newest
      simp [newest] at isFlushed
    | some maxBeginOrder =>
      have added : ((⟨id.tableId, kv.generatedOrderId, id.schemaId, maxBeginOrder⟩ : InlineFlushWatermarkKey), ()) ∈
          operation.inlineFlushes.flatMap (watermarkEntries kv) := by
        refine List.mem_flatMap.mpr ⟨flush, carried, (mem_watermarkEntries flushesData flushed).mpr ?_⟩
        exact ⟨maxBeginOrder, newest, by rw [sameTable, sameSchema]⟩
      have reaches : row.validity.beginOrder ≤ maxBeginOrder := (List.max?_eq_some_iff.mp newest).2 _ isFlushed
      rw [inlineChunkVisibleAt_open own]
      intro stillVisible
      exact absurd (stillVisible.2 _ (stages.endsAt.mpr (Or.inr ⟨maxBeginOrder, reaches, added⟩))) (not_lt.mpr after)

end

end

/-! ## Flush completion -/

/-- The payload lies in the span of a data file of the mutation for its table. -/
def RuntimeDataMutation.Materializes (mutation : RuntimeDataMutation) (id : InlineTableCleanupId) : Prop :=
  ∃ file ∈ mutation.dataFiles, file.tableId = id.tableId ∧ dataFileCoversInlineBegin file id.beginOrder = true

section

variable {kv next : CatalogKv} {mutation completed : RuntimeDataMutation} {now : Int} {result : DataMutationCommit}

/-- What a committed mutation hides is what was open and named by a flush it carries. -/
theorem commitDataMutationWithDetails_becameHidden {input : DataMutationInput}
    (commits : commitDataMutationWithDetails kv now input = (.ok result, next)) {id : InlineTableCleanupId} :
    BecameHidden kv next id ↔ OpenPayload kv id ∧ ∃ flush ∈ input.inlineFlushes, flush.Names kv id := by
  unfold commitDataMutationWithDetails at commits
  by_cases empty : input = {}
  · rw [if_pos empty, Prod.mk.injEq] at commits
    rw [← commits.2, empty]
    constructor
    · rintro ⟨_, _, _, _, visible, hidden⟩
      exact absurd visible hidden
    · simp
  · rw [if_neg empty] at commits
    cases valid : validateDataMutation kv input with
    | error failure => simp [valid] at commits
    | ok valued =>
      simp only [valid, commitWith] at commits
      cases staged : stageDataMutation kv now input kv.generatedOrderId with
      | error failure => simp [staged] at commits
      | ok outcome =>
        simp only [staged, Prod.mk.injEq] at commits
        rw [← commits.2]
        exact (CatalogOperation.Commits.dataMutation valid staged).inlineData.becameHidden_iff

/-- Completion and commit hide only materialised or client-named payloads exactly when every open payload
that began by the snapshot of a stored payload is itself materialised or named by the client. -/
theorem flushCompletion_hides_only_materialized
    (completes : completeInlineFlushesFromMaterializedFiles kv mutation = .ok completed)
    (commits : commitDataMutationWithDetails kv now completed.input = (.ok result, next)) :
    (∀ id, BecameHidden kv next id → mutation.Materializes id ∨ ∃ flush ∈ mutation.inlineFlushes, flush.Names kv id) ↔
      ∀ file ∈ mutation.dataFiles, ∀ schemaId payload publicSequence snapshot,
        StoresPayload kv file schemaId payload publicSequence →
        snapshotByRawSequence kv publicSequence = some snapshot →
        ∀ beginOrder ≤ snapshot.order, OpenPayload kv ⟨file.tableId, schemaId, beginOrder⟩ →
          mutation.Materializes ⟨file.tableId, schemaId, beginOrder⟩ ∨
            ∃ flush ∈ mutation.inlineFlushes, flush.Names kv ⟨file.tableId, schemaId, beginOrder⟩ := by
  obtain ⟨_, carried⟩ := completeInlineFlushesFromMaterializedFiles_ok completes
  have hides (id : InlineTableCleanupId) : BecameHidden kv next id ↔
      OpenPayload kv id ∧ ∃ flush ∈ completed.inlineFlushes, flush.Names kv id :=
    commitDataMutationWithDetails_becameHidden commits
  constructor
  · intro only file member schemaId payload publicSequence snapshot stores named beginOrder seen isOpen
    apply only
    rw [hides]
    refine ⟨isOpen, .new file.tableId schemaId publicSequence, ?_, rfl, rfl, rfl, snapshot, named, seen⟩
    exact (carried _).mpr (Or.inr ⟨file, member, schemaId, payload, publicSequence, stores, rfl⟩)
  · intro covered id hidden
    obtain ⟨isOpen, flush, isCarried, names⟩ := (hides id).mp hidden
    rcases (carried flush).mp isCarried with fromClient | ⟨file, member, schemaId, payload, publicSequence, stores, rfl⟩
    · exact Or.inr ⟨flush, fromClient, names⟩
    · obtain ⟨tableId, idSchema, beginOrder⟩ := id
      obtain ⟨_, rfl, rfl, snapshot, named, seen⟩ := names
      exact covered file member schemaId payload publicSequence snapshot stores named beginOrder seen isOpen

end

/-- A table with an inlined schema and two of its payloads, begun at the orders 3 and 4. -/
def twoOpenPayloads : CatalogKv :=
  runSteps (CatalogHistory.start 0 0).kv
    [.call (.createTable 0 { tableId := 1, name := "orders", inlinedDataTables := [⟨"inlined", 0⟩], validity := ⟨0, none⟩ }),
      .call (.registerInlinePayload 0 1 0 (rowTag ++ [tab, 55, newline])),
      .call (.registerInlinePayload 0 1 0 (rowTag ++ [tab, 56, newline]))]

/-- A data file that stores the rows begun from the order on, up to the order 4. -/
def materializedFrom (beginOrder : CatalogOrderId) : RuntimeDataMutation where
  dataFiles := [{ dataFileId := 9, tableId := 1, path := "flushed", recordCount := 1, fileSizeBytes := 1, rowIdStart := 8,
                  maxPartialOrder := some 4, validity := ⟨beginOrder, none⟩ }]

/-- The file stores the later payload only; the flush that is added ends the earlier one as well. -/
theorem flushCompletion_hides_earlier_payload :
    let kv := twoOpenPayloads
    let completed := { materializedFrom 4 with inlineFlushes := [.new 1 0 3] }
    completeInlineFlushesFromMaterializedFiles kv (materializedFrom 4) = .ok completed ∧
      (commitDataMutationWithDetails kv 0 completed.input).1.isOk = true ∧
      ¬∀ id, BecameHidden kv (commitDataMutationWithDetails kv 0 completed.input).2 id →
        (materializedFrom 4).Materializes id ∨ ∃ flush ∈ (materializedFrom 4).inlineFlushes, flush.Names kv id := by
  refine ⟨by decide +kernel, by decide +kernel, ?_⟩
  intro only
  have hidden : BecameHidden twoOpenPayloads (commitDataMutationWithDetails twoOpenPayloads 0
      ({ materializedFrom 4 with inlineFlushes := [.new 1 0 3] } : RuntimeDataMutation).input).2 ⟨1, 0, 3⟩ := by
    refine ⟨⟨1, 0, ⟨3, none⟩, 0, 1, rowTag ++ [tab, 55, newline]⟩, ?_, rfl, 5, ?_, ?_⟩
    · decide +kernel
    · decide +kernel
    · decide +kernel
  rcases only ⟨1, 0, 3⟩ hidden with ⟨file, member, _, covered⟩ | ⟨flush, member, _⟩
  · rw [List.mem_singleton.mp member] at covered
    revert covered
    decide
  · simp [materializedFrom] at member

theorem flushCompletion_hides_both_materialized :
    let kv := twoOpenPayloads
    let completed := { materializedFrom 3 with inlineFlushes := [.new 1 0 2, .new 1 0 3] }
    ∀ id, BecameHidden kv (commitDataMutationWithDetails kv 0 completed.input).2 id →
      (materializedFrom 3).Materializes id ∨ ∃ flush ∈ (materializedFrom 3).inlineFlushes, flush.Names kv id := by
  have completes : completeInlineFlushesFromMaterializedFiles twoOpenPayloads (materializedFrom 3) =
      .ok { materializedFrom 3 with inlineFlushes := [.new 1 0 2, .new 1 0 3] } := by decide +kernel
  have accepted : ∃ result, (commitDataMutationWithDetails twoOpenPayloads 0
      ({ materializedFrom 3 with inlineFlushes := [.new 1 0 2, .new 1 0 3] } : RuntimeDataMutation).input).1 =
        .ok result := by
    have isOk : (commitDataMutationWithDetails twoOpenPayloads 0
      ({ materializedFrom 3 with inlineFlushes := [.new 1 0 2, .new 1 0 3] } : RuntimeDataMutation).input).1.isOk =
        true := by decide +kernel
    generalize (commitDataMutationWithDetails twoOpenPayloads 0 _).1 = outcome at isOk
    cases outcome with
    | error failure => simp [Except.isOk, Except.toBool] at isOk
    | ok result => exact ⟨result, rfl⟩
  obtain ⟨result, accepted⟩ := accepted
  refine (flushCompletion_hides_only_materialized completes (Prod.ext accepted rfl)).mpr ?_
  intro file member schemaId payload publicSequence snapshot _ named beginOrder _ isOpen
  left
  rw [List.mem_singleton.mp member] at isOpen ⊢
  obtain ⟨row, stored, begins, _⟩ := isOpen
  have orders : ∀ entry ∈ twoOpenPayloads.inlineTable.entries, entry.1.beginOrder = 3 ∨ entry.1.beginOrder = 4 := by
    decide +kernel
  obtain ⟨key, chunk, found, _, _, rfl⟩ := mem_inlineTableChunkRows.mp stored
  obtain rfl : key.beginOrder = beginOrder := begins
  refine ⟨_, List.mem_singleton.mpr rfl, rfl, ?_⟩
  rcases orders _ ((OrderedMap.get?_eq_some_iff _).mp found) with first | second
  · rw [first]
    dsimp only
    decide
  · rw [second]
    dsimp only
    decide

end DucklakeCatalog
