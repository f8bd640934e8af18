import DucklakeCatalog.Run.CatalogSteps
import DucklakeCatalog.Run.InlinePayloads

namespace DucklakeCatalog

open KeyedStore

variable {key : InlineTableChunkKey} {row : InlineTableChunkRow}

section

variable {kv : CatalogKv} {snapshots : List SnapshotRow}

/-! ## What the cleanup listing promises -/

/-- A watermark reaches the payload and every snapshot that saw the payload begin saw it end as well. -/
def EndedForAll (kv : CatalogKv) (snapshots : List SnapshotRow) (id : InlineTableCleanupId) : Prop :=
  ∃ key, EndsBegin kv id.tableId id.schemaId id.beginOrder key ∧
    ∀ snapshot ∈ snapshots, id.beginOrder ≤ snapshot.order → key.endOrder ≤ snapshot.order

theorem mem_chunkCountsUpTo {tableId : TableId} {schemaId : SchemaId} {maxBeginOrder : CatalogOrderId}
    {count : CatalogOrderId × Nat} (member : count ∈ chunkCountsUpTo kv tableId schemaId maxBeginOrder) :
    count.1 ≤ maxBeginOrder := by
  obtain ⟨group, listed, rfl⟩ := List.mem_map.mp member
  obtain ⟨beginOrder, begins, rfl⟩ := List.mem_map.mp listed
  obtain ⟨row, kept, rfl⟩ := List.mem_map.mp (mem_orderedSet.mp begins)
  simpa using (List.mem_filter.mp kept).2

/-- The first payload under a watermark is the oldest one. -/
theorem head_chunkCountsUpTo {tableId : TableId} {schemaId : SchemaId} {maxBeginOrder : CatalogOrderId}
    {first count : CatalogOrderId × Nat} (isFirst : (chunkCountsUpTo kv tableId schemaId maxBeginOrder).head? = some first)
    (member : count ∈ chunkCountsUpTo kv tableId schemaId maxBeginOrder) : first.1 ≤ count.1 := by
  have sorted : (chunkCountsUpTo kv tableId schemaId maxBeginOrder).Pairwise fun left right => left.1 ≤ right.1 := by
    unfold chunkCountsUpTo groupChunksByBegin
    rw [List.map_map, List.pairwise_map]
    exact List.pairwise_insertionSort _ _
  generalize chunkCountsUpTo kv tableId schemaId maxBeginOrder = counts at isFirst member sorted
  cases counts with
  | nil => exact absurd member List.not_mem_nil
  | cons head rest =>
    obtain rfl : head = first := by simpa using isFirst
    rcases List.mem_cons.mp member with rfl | later
    · exact le_rfl
    · exact (List.pairwise_cons.mp sorted).1 count later

/-- A watermark lists only payloads it ends for every retained snapshot. -/
theorem noteWatermark_ended {listing : InlineCleanupListing} {key : InlineFlushWatermarkKey}
    (stored : kv.inlineFlushWatermark.get? key = some ()) (ended : ∀ row ∈ listing.rows, EndedForAll kv snapshots row.id) :
    ∀ row ∈ (listing.noteWatermark kv snapshots key).rows, EndedForAll kv snapshots row.id := by
  unfold InlineCleanupListing.noteWatermark
  dsimp only
  cases isFirst : (chunkCountsUpTo kv key.tableId key.schemaId key.maxBeginOrder).head? with
  | none => exact ended
  | some first =>
    dsimp only
    split
    · rename_i unreachable
      have window : ∀ snapshot ∈ snapshots, first.1 ≤ snapshot.order → key.endOrder ≤ snapshot.order := by
        intro snapshot listed begun
        simp only [inlineChunksAreUnreachable, List.isEmpty_cons, Bool.not_false, Bool.true_and, List.all_cons,
          List.all_nil, Bool.and_true, Option.isSome_some, Bool.not_eq_true', List.any_eq_false] at unreachable
        have hidden := unreachable snapshot listed
        rw [ValidityWindow.isVisibleAt_iff] at hidden
        by_contra early
        refine hidden ⟨begun, ?_⟩
        intro endOrder same
        rw [← Option.some.inj same]
        exact not_le.mp early
      refine List.foldlRecOn (motive := fun listing : InlineCleanupListing =>
        ∀ row ∈ listing.rows, EndedForAll kv snapshots row.id) _ _ ended ?_
      intro soFar holds count member row listed
      unfold InlineCleanupListing.addUnseen at listed
      split at listed
      · exact holds row listed
      · rcases List.mem_append.mp listed with old | new
        · exact holds row old
        · rw [List.mem_singleton.mp new]
          refine ⟨key, ⟨stored, rfl, rfl, mem_chunkCountsUpTo member⟩, ?_⟩
          intro snapshot retained begun
          exact window snapshot retained ((head_chunkCountsUpTo isFirst member).trans begun)
    · exact ended

/-- Without per-row markers everything listed has ended for all retained snapshots. -/
theorem listOldInlineTablePayloadsForCleanup_ended (unmarked : kv.inlineTableEnd = .empty)
    {rows : List InlineTableCleanupRow} (retained : listSnapshots kv = .ok snapshots)
    (listed : listOldInlineTablePayloadsForCleanup kv = .ok rows) : ∀ row ∈ rows, EndedForAll kv snapshots row.id := by
  unfold listOldInlineTablePayloadsForCleanup at listed
  rw [bind_eq_ok] at listed
  obtain ⟨others, same, listed⟩ := listed
  obtain rfl : snapshots = others := Except.ok.inj (retained.symm.trans same)
  simp only [unmarked, OrderedMap.entries_empty, List.map_nil, List.foldl_nil, pure, Except.pure,
    Except.ok.injEq] at listed
  rw [← listed]
  refine List.foldlRecOn (motive := fun listing : InlineCleanupListing =>
    ∀ row ∈ listing.rows, EndedForAll kv snapshots row.id) _ _ (by simp) ?_
  intro listing holds key member
  obtain ⟨⟨stored, value⟩, entry, rfl⟩ := List.mem_map.mp member
  exact noteWatermark_ended ((OrderedMap.get?_eq_some_iff _).mpr entry) holds

/-! ## What a removal leaves -/

/-- The watermark goes with the removed payloads. -/
abbrev Retired (kv : CatalogKv) (removed : List InlineTableCleanupId) (key : InlineFlushWatermarkKey) : Prop :=
  watermarkCovered kv key ≠ [] ∧ ∀ id ∈ watermarkCovered kv key, id ∈ removed

structure RemovesPayloads (kv next : CatalogKv) (removed : List InlineTableCleanupId) : Prop where
  chunks : ∀ key row, next.inlineTable.get? key = some row ↔
    kv.inlineTable.get? key = some row ∧ ∀ id ∈ removed, id.names key = false
  watermarks : ∀ key, next.inlineFlushWatermark.get? key = some () ↔
    kv.inlineFlushWatermark.get? key = some () ∧ ¬Retired kv removed key
  marked : kv.inlineTableEnd = .empty → next.inlineTableEnd = .empty
  order : next.nextOrder = kv.nextOrder
  snapshots : next.snapshotTimestamp = kv.snapshotTimestamp

/-- The keys of the chunks of the payloads. -/
def payloadChunkKeys (kv : CatalogKv) (removed : List InlineTableCleanupId) : List InlineTableChunkKey :=
  removed.flatMap fun id => (kv.inlineTable.scan id.names).map Prod.fst

theorem stageRemoveInlineTablePayload_deletes (removed : List InlineTableCleanupId) (chunks : List InlineTableChunkKey)
    (ends : List InlineTableEndKey) : ∃ ended, removed.foldl (stageRemoveInlineTablePayload kv)
        { inlineTable := ({} : Staged InlineTableChunkKey InlineTableChunkRow).deleteAll chunks
          inlineTableEnd := ({} : Staged InlineTableEndKey Unit).deleteAll ends } =
      { inlineTable := ({} : Staged InlineTableChunkKey InlineTableChunkRow).deleteAll
          (chunks ++ payloadChunkKeys kv removed)
        inlineTableEnd := ({} : Staged InlineTableEndKey Unit).deleteAll ended } := by
  induction removed generalizing chunks ends with
  | nil => exact ⟨ends, by simp [payloadChunkKeys]⟩
  | cons id rest ih =>
    have step : ∃ ended, stageRemoveInlineTablePayload kv
          { inlineTable := ({} : Staged InlineTableChunkKey InlineTableChunkRow).deleteAll chunks
            inlineTableEnd := ({} : Staged InlineTableEndKey Unit).deleteAll ends } id =
        { inlineTable := ({} : Staged InlineTableChunkKey InlineTableChunkRow).deleteAll
            (chunks ++ (kv.inlineTable.scan id.names).map Prod.fst)
          inlineTableEnd := ({} : Staged InlineTableEndKey Unit).deleteAll ended } := by
      unfold stageRemoveInlineTablePayload
      rw [Staged.deleteAll_append]
      cases (inlineTablePayloadChunks kv id).getLast?.bind fun chunk => chunk.validity.endOrder with
      | none => exact ⟨ends, rfl⟩
      | some order =>
        refine ⟨ends ++ [⟨id.tableId, order, id.schemaId, id.beginOrder⟩], ?_⟩
        rw [Staged.deleteAll_append]
        rfl
    obtain ⟨ended, stepped⟩ := step
    rw [List.foldl_cons, stepped]
    obtain ⟨final, finished⟩ := ih (chunks ++ (kv.inlineTable.scan id.names).map Prod.fst) ended
    refine ⟨final, finished.trans ?_⟩
    simp [payloadChunkKeys]

theorem stageRemoveCoveredWatermark_deletes (removed : List InlineTableCleanupId) (keys : List InlineFlushWatermarkKey)
    (batch : KvBatch) : ∃ retired, (∀ key, key ∈ retired ↔ key ∈ keys ∧ Retired kv removed key) ∧
      keys.foldl (stageRemoveCoveredWatermark kv removed) batch =
        { batch with inlineFlushWatermark := batch.inlineFlushWatermark.deleteAll retired } := by
  induction keys generalizing batch with
  | nil => exact ⟨[], by simp, rfl⟩
  | cons key rest ih =>
    rw [List.foldl_cons]
    unfold stageRemoveCoveredWatermark
    dsimp only
    by_cases gone : Retired kv removed key
    · obtain ⟨retired, members, same⟩ := ih
        { batch with inlineFlushWatermark := batch.inlineFlushWatermark.delete key }
      refine ⟨key :: retired, ?_, ?_⟩
      · intro other
        rw [List.mem_cons, List.mem_cons, members]
        constructor
        · rintro (rfl | ⟨listed, goes⟩)
          · exact ⟨Or.inl rfl, gone⟩
          · exact ⟨Or.inr listed, goes⟩
        · rintro ⟨rfl | listed, goes⟩
          · exact Or.inl rfl
          · exact Or.inr ⟨listed, goes⟩
      · rw [if_pos gone]
        exact same
    · obtain ⟨retired, members, same⟩ := ih batch
      refine ⟨retired, ?_, ?_⟩
      · intro other
        rw [List.mem_cons, members]
        constructor
        · rintro ⟨listed, goes⟩
          exact ⟨Or.inr listed, goes⟩
        · rintro ⟨rfl | listed, goes⟩
          · exact absurd goes gone
          · exact ⟨listed, goes⟩
      · rw [if_neg gone]
        exact same

theorem mem_payloadChunkKeys {removed : List InlineTableCleanupId} (stored : kv.inlineTable.get? key = some row) :
    key ∈ payloadChunkKeys kv removed ↔ ∃ id ∈ removed, id.names key = true := by
  unfold payloadChunkKeys
  rw [List.mem_flatMap]
  constructor
  · rintro ⟨id, member, scanned⟩
    obtain ⟨entry, inside, rfl⟩ := List.mem_map.mp scanned
    exact ⟨id, member, (OrderedMap.mem_scan.mp inside).2⟩
  · rintro ⟨id, member, named⟩
    exact ⟨id, member, List.mem_map.mpr ⟨(key, row), OrderedMap.mem_scan.mpr ⟨stored, named⟩, rfl⟩⟩

theorem stageRemoveOldInlineTablePayloads_removes {inlineIds : List InlineTableCleanupId}
    {rows : List InlineTableCleanupRow} {batch : KvBatch}
    (staged : stageRemoveOldInlineTablePayloads kv inlineIds = .ok (rows, batch)) :
    RemovesPayloads kv (kv.commit batch) (rows.map InlineTableCleanupRow.id) ∧
      ∃ listed, listOldInlineTablePayloadsForCleanup kv = .ok listed ∧ ∀ row ∈ rows, row ∈ listed := by
  unfold stageRemoveOldInlineTablePayloads at staged
  simp only [bind_eq_ok, pure_eq_ok, Prod.mk.injEq] at staged
  obtain ⟨listed, isListed, rfl, staged⟩ := staged
  refine ⟨?_, listed, isListed, fun row member => (List.mem_filter.mp member).1⟩
  generalize (listed.filter fun row => row.id ∈ inlineIds).map InlineTableCleanupRow.id = removed at staged
  obtain ⟨ended, removes⟩ := @stageRemoveInlineTablePayload_deletes kv removed [] []
  obtain ⟨retired, members, retires⟩ := @stageRemoveCoveredWatermark_deletes kv removed
    (kv.inlineFlushWatermark.entries.map Prod.fst) (removed.foldl (stageRemoveInlineTablePayload kv) {})
  have opening : removed.foldl (stageRemoveInlineTablePayload kv) {} = _ := removes
  rw [retires, opening, List.nil_append] at staged
  subst staged
  constructor
  case chunks =>
    intro key row
    refine (OrderedMap.get?_commit_deleteAll kv.inlineTable (payloadChunkKeys kv removed)).trans ?_
    refine and_congr_right ?_
    intro stored
    rw [mem_payloadChunkKeys stored]
    simp
  case watermarks =>
    intro key
    refine (OrderedMap.get?_commit_deleteAll kv.inlineFlushWatermark retired).trans ?_
    refine and_congr_right ?_
    intro stored
    have listed : key ∈ kv.inlineFlushWatermark.entries.map Prod.fst :=
      List.mem_map.mpr ⟨(key, ()), (OrderedMap.get?_eq_some_iff _).mp stored, rfl⟩
    rw [members]
    simp [listed]
  case marked =>
    intro unmarked
    refine OrderedMap.ext_get? ?_
    intro key
    refine (OrderedMap.get?_commit_of_none kv.inlineTableEnd _ (by simp [unmarked]) ?_).trans
      (OrderedMap.get?_empty key).symm
    simp [Staged.Writes, Staged.deleteAll_writes]
  case order => rfl
  case snapshots => rfl

/-! ## Stored payloads -/

theorem InlineTableCleanupId.names_iff {id : InlineTableCleanupId} :
    id.names key = true ↔ id = ⟨key.tableId, key.schemaId, key.beginOrder⟩ := by
  cases id
  simp only [names, Bool.and_eq_true, decide_eq_true_eq, InlineTableCleanupId.mk.injEq, and_assoc]
  constructor
  · rintro ⟨rfl, rfl, rfl⟩
    exact ⟨rfl, rfl, rfl⟩
  · rintro ⟨rfl, rfl, rfl⟩
    exact ⟨rfl, rfl, rfl⟩

/-- Some chunk of the payload is stored. -/
def PayloadStored (kv : CatalogKv) (id : InlineTableCleanupId) : Prop :=
  ∃ key row, kv.inlineTable.get? key = some row ∧ id.names key = true

theorem mem_inlineTableChunkRows {tableId : TableId} {schemaId : SchemaId} :
    row ∈ inlineTableChunkRows kv tableId schemaId ↔ ∃ key stored, kv.inlineTable.get? key = some stored ∧
      key.tableId = tableId ∧ key.schemaId = schemaId ∧ decodeInlineTableItem (key, stored) = row := by
  unfold inlineTableChunkRows
  rw [List.mem_map]
  constructor
  · rintro ⟨⟨key, stored⟩, scanned, rfl⟩
    obtain ⟨found, inside⟩ := OrderedMap.mem_scan.mp scanned
    simp only [Bool.and_eq_true, decide_eq_true_eq] at inside
    exact ⟨key, stored, found, inside.1, inside.2, rfl⟩
  · rintro ⟨key, stored, found, sameTable, sameSchema, rfl⟩
    exact ⟨(key, stored), OrderedMap.mem_scan.mpr ⟨found, by simp [sameTable, sameSchema]⟩, rfl⟩

/-- A watermark covers the stored payloads it reaches. -/
theorem mem_watermarkCovered {id : InlineTableCleanupId} {key : InlineFlushWatermarkKey} :
    id ∈ watermarkCovered kv key ↔ PayloadStored kv id ∧ id.tableId = key.tableId ∧ id.schemaId = key.schemaId ∧
      id.beginOrder ≤ key.maxBeginOrder := by
  unfold watermarkCovered PayloadStored
  rw [List.mem_map]
  constructor
  · rintro ⟨row, kept, rfl⟩
    obtain ⟨scanned, reached⟩ := List.mem_filter.mp kept
    obtain ⟨chunk, stored, found, sameTable, sameSchema, rfl⟩ := mem_inlineTableChunkRows.mp scanned
    refine ⟨⟨chunk, stored, found, InlineTableCleanupId.names_iff.mpr ?_⟩, rfl, rfl, by simpa using reached⟩
    rw [sameTable, sameSchema]
    rfl
  · rintro ⟨⟨chunk, stored, found, named⟩, sameTable, sameSchema, reached⟩
    rw [InlineTableCleanupId.names_iff] at named
    subst named
    refine ⟨decodeInlineTableItem (chunk, stored), List.mem_filter.mpr ⟨?_, decide_eq_true reached⟩, ?_⟩
    · exact mem_inlineTableChunkRows.mpr ⟨chunk, stored, found, sameTable, sameSchema, rfl⟩
    · rw [← sameTable, ← sameSchema]
      rfl

/-- Stored chunks are open, begun by now, and end by watermarks only. -/
structure InlineChunksOpen (kv : CatalogKv) : Prop where
  unmarked : kv.inlineTableEnd = .empty
  isOpen : ∀ key row, kv.inlineTable.get? key = some row → row.validity.endOrder = none
  past : ∀ key row, kv.inlineTable.get? key = some row → key.beginOrder ≤ kv.nextOrder

theorem InlineChunksOpen.visible_iff (chunks : InlineChunksOpen kv)
    {snapshotOrder : CatalogOrderId} (stored : kv.inlineTable.get? key = some row) :
    inlineChunkVisibleAt (decodeInlineTableItem (key, row))
        (inlineTableEndOrdersAt kv key.tableId key.schemaId snapshotOrder) snapshotOrder = true ↔
      key.beginOrder ≤ snapshotOrder ∧
        ∀ watermark, EndsBegin kv key.tableId key.schemaId key.beginOrder watermark →
          snapshotOrder < watermark.endOrder := by
  have isOpen : (decodeInlineTableItem (key, row)).validity.endOrder = none := chunks.isOpen key row stored
  exact inlineChunkVisibleAt_iff chunks.unmarked isOpen

/-! ## Visibility across a removal -/

section

variable {next : CatalogKv} {removed : List InlineTableCleanupId} {tableId : TableId} {schemaId : SchemaId}

theorem InlineChunksOpen.remove (chunks : InlineChunksOpen kv) (removes : RemovesPayloads kv next removed) :
    InlineChunksOpen next where
  unmarked := removes.marked chunks.unmarked
  isOpen key row stored := chunks.isOpen key row ((removes.chunks key row).mp stored).1
  past key row stored := removes.order ▸ chunks.past key row ((removes.chunks key row).mp stored).1

/-- What ended a payload still ends it as long as the payload is stored. -/
theorem RemovesPayloads.endsBegin (removes : RemovesPayloads kv next removed) {beginOrder : CatalogOrderId}
    {watermark : InlineFlushWatermarkKey} (kept : PayloadStored next ⟨tableId, schemaId, beginOrder⟩) :
    EndsBegin next tableId schemaId beginOrder watermark ↔ EndsBegin kv tableId schemaId beginOrder watermark := by
  constructor
  · intro ends
    exact ⟨((removes.watermarks watermark).mp ends.stored).1, ends.sameTable, ends.sameSchema, ends.reaches⟩
  · intro ends
    refine ⟨(removes.watermarks watermark).mpr ⟨ends.stored, ?_⟩, ends.sameTable, ends.sameSchema, ends.reaches⟩
    rintro ⟨_, allRemoved⟩
    obtain ⟨key, row, stored, named⟩ := kept
    obtain ⟨before, notRemoved⟩ := (removes.chunks key row).mp stored
    have covered : (⟨tableId, schemaId, beginOrder⟩ : InlineTableCleanupId) ∈ watermarkCovered kv watermark :=
      mem_watermarkCovered.mpr ⟨⟨key, row, before, named⟩, ends.sameTable.symm, ends.sameSchema.symm, ends.reaches⟩
    rw [notRemoved _ (allRemoved _ covered)] at named
    exact Bool.false_ne_true named

theorem removes_listing (chunks : InlineChunksOpen kv) (removes : RemovesPayloads kv next removed)
    (ended : ∀ id ∈ removed, EndedForAll kv snapshots id) {snapshot : SnapshotRow} (retained : snapshot ∈ snapshots) :
    listInlineTablePayloadsAt next tableId schemaId snapshot.order =
      listInlineTablePayloadsAt kv tableId schemaId snapshot.order := by
  have visible : (inlineTableChunkRows next tableId schemaId).filter (fun row => inlineChunkVisibleAt row
        (inlineTableEndOrdersAt next tableId schemaId snapshot.order) snapshot.order) =
      (inlineTableChunkRows kv tableId schemaId).filter fun row => inlineChunkVisibleAt row
        (inlineTableEndOrdersAt kv tableId schemaId snapshot.order) snapshot.order := by
    unfold inlineTableChunkRows
    rw [List.filter_map, List.filter_map]
    refine congrArg (List.map decodeInlineTableItem) (OrderedMap.filter_scan_eq ?_)
    intro key row inside
    simp only [Bool.and_eq_true, decide_eq_true_eq] at inside
    obtain ⟨rfl, rfl⟩ := inside
    simp only [Function.comp_apply]
    constructor
    · rintro ⟨stored, seen⟩
      have kept : PayloadStored next ⟨key.tableId, key.schemaId, key.beginOrder⟩ :=
        ⟨key, row, stored, InlineTableCleanupId.names_iff.mpr rfl⟩
      have before := ((removes.chunks key row).mp stored).1
      rw [(chunks.remove removes).visible_iff stored] at seen
      refine ⟨before, (chunks.visible_iff before).mpr ⟨seen.1, ?_⟩⟩
      intro watermark ends
      exact seen.2 watermark ((removes.endsBegin kept).mpr ends)
    · rintro ⟨before, seen⟩
      rw [chunks.visible_iff before] at seen
      have stored : next.inlineTable.get? key = some row := by
        refine (removes.chunks key row).mpr ⟨before, ?_⟩
        intro id member
        by_contra named
        rw [Bool.not_eq_false, InlineTableCleanupId.names_iff] at named
        subst named
        obtain ⟨watermark, ends, early⟩ := ended _ member
        exact absurd (seen.2 watermark ends) (not_lt.mpr (early snapshot retained seen.1))
      have kept : PayloadStored next ⟨key.tableId, key.schemaId, key.beginOrder⟩ :=
        ⟨key, row, stored, InlineTableCleanupId.names_iff.mpr rfl⟩
      refine ⟨stored, ((chunks.remove removes).visible_iff stored).mpr ⟨seen.1, ?_⟩⟩
      intro watermark ends
      exact seen.2 watermark ((removes.endsBegin kept).mp ends)
  unfold listInlineTablePayloadsAt
  dsimp only
  rw [visible]

end

end

/-! ## Hidden payloads stay hidden -/

/-- The later store adds no chunk to a payload begun by now and ends what it still stores as early. -/
structure KeepsHidden (kv later : CatalogKv) : Prop where
  order : kv.nextOrder ≤ later.nextOrder
  stored : ∀ id : InlineTableCleanupId, id.beginOrder ≤ kv.nextOrder → PayloadStored later id → PayloadStored kv id
  ends : ∀ id : InlineTableCleanupId, id.beginOrder ≤ kv.nextOrder → PayloadStored later id →
    ∀ key, EndsBegin kv id.tableId id.schemaId id.beginOrder key →
      EndsBegin later id.tableId id.schemaId id.beginOrder key

namespace KeepsHidden

variable {kv later next : CatalogKv}

theorem of_same (order : kv.nextOrder ≤ later.nextOrder) (chunks : later.inlineTable = kv.inlineTable)
    (watermarks : later.inlineFlushWatermark = kv.inlineFlushWatermark) : KeepsHidden kv later where
  order := order
  stored id _ kept := by
    unfold PayloadStored at kept ⊢
    rwa [chunks] at kept
  ends id _ _ key ends := ⟨watermarks ▸ ends.stored, ends.sameTable, ends.sameSchema, ends.reaches⟩

theorem refl (kv : CatalogKv) : KeepsHidden kv kv := of_same le_rfl rfl rfl

theorem trans (first : KeepsHidden kv later) (second : KeepsHidden later next) : KeepsHidden kv next where
  order := first.order.trans second.order
  stored id begun kept := first.stored id begun (second.stored id (begun.trans first.order) kept)
  ends id begun kept key ends := by
    have between := second.stored id (begun.trans first.order) kept
    exact second.ends id (begun.trans first.order) kept key (first.ends id begun between key ends)

end KeepsHidden

section

variable {kv next : CatalogKv} {operation : CatalogOperation} {batch : KvBatch} {step : CatalogStep}

/-- A chunk a commit adds begins at the order it drew. -/
theorem StagesInlineData.chunk_cases (stages : StagesInlineData kv operation batch)
    (stored : (kv.withGeneratedOrder.commit batch).inlineTable.get? key = some row) :
    kv.inlineTable.get? key = some row ∨ (key.beginOrder = kv.nextOrder + 1 ∧ row.validity.endOrder = none) := by
  have committed : (kv.withGeneratedOrder.commit batch).inlineTable = kv.inlineTable.commit batch.inlineTable := rfl
  rw [committed, stages.chunks] at stored
  rcases OrderedMap.get?_commit_putAll_cases kv.inlineTable
      ((operation.inlinePayloads kv.generatedOrderId).flatMap chunkEntries) key with
    ⟨value, member, found⟩ | ⟨_, found⟩
  · right
    obtain rfl : value = row := Option.some.inj (found.symm.trans stored)
    obtain ⟨payload, registered, entry⟩ := List.mem_flatMap.mp member
    obtain ⟨named, window⟩ := mem_chunkEntries (stages.storable payload registered) entry
    refine ⟨?_, by rw [window]⟩
    rw [named]
    exact mem_inlinePayloads registered
  · exact Or.inl (found ▸ stored)

theorem InlineChunksOpen.of_same (chunks : InlineChunksOpen kv) (order : kv.nextOrder ≤ next.nextOrder)
    (sameChunks : next.inlineTable = kv.inlineTable) (sameEnds : next.inlineTableEnd = kv.inlineTableEnd) :
    InlineChunksOpen next where
  unmarked := sameEnds.trans chunks.unmarked
  isOpen key row stored := chunks.isOpen key row (sameChunks ▸ stored)
  past key row stored := (chunks.past key row (sameChunks ▸ stored)).trans order

theorem InlineChunksOpen.start (lastOrder : CatalogOrderId) (now : Int) :
    InlineChunksOpen (CatalogHistory.start lastOrder now).kv := by
  have noChunks : (CatalogHistory.start lastOrder now).kv.inlineTable = .empty := rfl
  constructor
  · rfl
  · intro key row stored
    simp [noChunks] at stored
  · intro key row stored
    simp [noChunks] at stored

/-- Every step keeps the chunks open and what was hidden hidden. -/
theorem InlineChunksOpen.leaves (chunks : InlineChunksOpen kv) (leaves : CatalogStep.Leaves kv step next) :
    InlineChunksOpen next ∧ KeepsHidden kv next := by
  cases leaves with
  | unchanged => exact ⟨chunks, .refl kv⟩
  | drawn =>
    have order : kv.nextOrder ≤ kv.withGeneratedOrder.nextOrder := Nat.le_succ _
    exact ⟨chunks.of_same order rfl rfl, .of_same order rfl rfl⟩
  | @committed operation batch commits =>
    have stages := commits.inlineData
    have order : kv.nextOrder ≤ (kv.withGeneratedOrder.commit batch).nextOrder := Nat.le_succ _
    refine ⟨⟨?_, ?_, ?_⟩, order, ?_, ?_⟩
    · have committed : (kv.withGeneratedOrder.commit batch).inlineTableEnd =
          kv.inlineTableEnd.commit batch.inlineTableEnd := rfl
      rw [committed, stages.unmarked, OrderedMap.commit_empty, chunks.unmarked]
    · intro key row stored
      rcases stages.chunk_cases stored with old | ⟨_, isOpen⟩
      · exact chunks.isOpen key row old
      · exact isOpen
    · intro key row stored
      rcases stages.chunk_cases stored with old | ⟨begins, _⟩
      · exact (chunks.past key row old).trans order
      · exact begins.le
    · rintro id begun ⟨key, row, stored, named⟩
      rcases stages.chunk_cases stored with old | ⟨begins, _⟩
      · exact ⟨key, row, old, named⟩
      · rw [InlineTableCleanupId.names_iff.mp named] at begun
        have tooLate : kv.nextOrder + 1 ≤ kv.nextOrder := begins ▸ begun
        omega
    · intro id _ _ key ends
      exact ends.commit stages
  | @maintained operation batch maintains =>
    have data := inlineData_congr maintains.inlineMaps
    simp only [KvBatch.inlineData, Prod.mk.injEq] at data
    obtain ⟨noChunks, noWatermarks, noEnds⟩ := data
    have sameChunks : (kv.commit batch).inlineTable = kv.inlineTable :=
      (congrArg kv.inlineTable.commit noChunks).trans rfl
    have sameWatermarks : (kv.commit batch).inlineFlushWatermark = kv.inlineFlushWatermark :=
      (congrArg kv.inlineFlushWatermark.commit noWatermarks).trans rfl
    have sameEnds : (kv.commit batch).inlineTableEnd = kv.inlineTableEnd :=
      (congrArg kv.inlineTableEnd.commit noEnds).trans rfl
    exact ⟨chunks.of_same le_rfl sameChunks sameEnds, .of_same le_rfl sameChunks sameWatermarks⟩
  | deletedAtNewSnapshot deletes =>
    obtain ⟨_, _, _, same⟩ := stageInlineDeletes_changes deletes.stages
    rw [same]
    exact ⟨chunks.of_same (Nat.le_succ _) rfl rfl, .of_same (Nat.le_succ _) rfl rfl⟩
  | deletedAtSnapshot deletes =>
    obtain ⟨_, _, _, same⟩ := stageInlineDeletes_changes deletes.stages
    rw [same]
    exact ⟨chunks.of_same le_rfl rfl rfl, .of_same le_rfl rfl rfl⟩
  | removedPayloads staged =>
    obtain ⟨removes, _⟩ := stageRemoveOldInlineTablePayloads_removes staged
    refine ⟨chunks.remove removes, removes.order.ge, ?_, ?_⟩
    · rintro id _ ⟨key, row, stored, named⟩
      exact ⟨key, row, ((removes.chunks key row).mp stored).1, named⟩
    · intro id _ kept key ends
      exact (removes.endsBegin kept).mpr ends

theorem CatalogKv.Reachable.chunksOpen (reachable : kv.Reachable) : InlineChunksOpen kv :=
  reachable.invariant InlineChunksOpen InlineChunksOpen.start fun _ _ _ chunks leaves => (chunks.leaves leaves).1

theorem InlineChunksOpen.keepsHidden (chunks : InlineChunksOpen kv) (reaches : kv.Reaches next) :
    InlineChunksOpen next ∧ KeepsHidden kv next := by
  refine reaches.invariant (fun store => InlineChunksOpen store ∧ KeepsHidden kv store) ?_ ⟨chunks, .refl kv⟩
  intro store step after holds leaves
  obtain ⟨isOpen, keeps⟩ := holds.1.leaves leaves
  exact ⟨isOpen, holds.2.trans keeps⟩

end

/-! ## Cleanup and visibility -/

/-- Some chunk of the payload is visible at the order. -/
def InlinePayloadVisibleAt (kv : CatalogKv) (id : InlineTableCleanupId) (snapshotOrder : CatalogOrderId) : Prop :=
  ∃ row ∈ inlineTableChunkRows kv id.tableId id.schemaId, row.validity.beginOrder = id.beginOrder ∧
    inlineChunkVisibleAt row (inlineTableEndOrdersAt kv id.tableId id.schemaId snapshotOrder) snapshotOrder = true

/-- The payload is stored and begun by the order, but ended by then. -/
def InlinePayloadHiddenAt (kv : CatalogKv) (id : InlineTableCleanupId) (snapshotOrder : CatalogOrderId) : Prop :=
  PayloadStored kv id ∧ id.beginOrder ≤ snapshotOrder ∧ ¬InlinePayloadVisibleAt kv id snapshotOrder

section

variable {kv later : CatalogKv} {id : InlineTableCleanupId} {snapshotOrder laterOrder : CatalogOrderId}

theorem InlineChunksOpen.visibleAt_iff (chunks : InlineChunksOpen kv) :
    InlinePayloadVisibleAt kv id snapshotOrder ↔ PayloadStored kv id ∧ id.beginOrder ≤ snapshotOrder ∧
      ∀ key, EndsBegin kv id.tableId id.schemaId id.beginOrder key → snapshotOrder < key.endOrder := by
  constructor
  · rintro ⟨row, scanned, begins, seen⟩
    obtain ⟨key, stored, found, sameTable, sameSchema, rfl⟩ := mem_inlineTableChunkRows.mp scanned
    have sameBegin : key.beginOrder = id.beginOrder := begins
    rw [← sameTable, ← sameSchema, chunks.visible_iff found, sameTable, sameSchema, sameBegin] at seen
    refine ⟨⟨key, stored, found, InlineTableCleanupId.names_iff.mpr ?_⟩, seen⟩
    rw [sameTable, sameSchema, sameBegin]
  · rintro ⟨⟨key, row, stored, named⟩, seen⟩
    rw [InlineTableCleanupId.names_iff] at named
    subst named
    exact ⟨decodeInlineTableItem (key, row), mem_inlineTableChunkRows.mpr ⟨key, row, stored, rfl, rfl, rfl⟩, rfl,
      (chunks.visible_iff stored).mpr seen⟩

/-- A hidden payload stays hidden at every later order of every later store. -/
theorem InlineChunksOpen.stays_hidden (chunks : InlineChunksOpen kv) (reaches : kv.Reaches later)
    (hidden : InlinePayloadHiddenAt kv id snapshotOrder) (order : snapshotOrder ≤ laterOrder) :
    ¬InlinePayloadVisibleAt later id laterOrder := by
  obtain ⟨⟨key, row, stored, named⟩, begun, invisible⟩ := hidden
  obtain ⟨laterChunks, keeps⟩ := chunks.keepsHidden reaches
  have old : id.beginOrder ≤ kv.nextOrder := by
    rw [InlineTableCleanupId.names_iff.mp named]
    exact chunks.past key row stored
  have ended : ∃ watermark, EndsBegin kv id.tableId id.schemaId id.beginOrder watermark ∧
      watermark.endOrder ≤ snapshotOrder := by
    by_contra none
    refine invisible (chunks.visibleAt_iff.mpr ⟨⟨key, row, stored, named⟩, begun, ?_⟩)
    intro watermark ends
    by_contra early
    exact none ⟨watermark, ends, not_lt.mp early⟩
  obtain ⟨watermark, ends, early⟩ := ended
  intro seen
  obtain ⟨kept, _, notEnded⟩ := laterChunks.visibleAt_iff.mp seen
  have stillEnds := keeps.ends id old kept watermark ends
  exact absurd (notEnded watermark stillEnds) (not_lt.mpr (early.trans order))

theorem listSnapshots_congr {kv other : CatalogKv} (same : other.snapshotTimestamp = kv.snapshotTimestamp) :
    listSnapshots other = listSnapshots kv := by
  unfold listSnapshots
  rw [same]

/-- Removing old inline payloads changes no listing at a retained snapshot, and what was hidden stays hidden
whatever the catalog does next. -/
theorem removeOldInlinePayloads_preserves_visibility (reachable : kv.Reachable)
    (inlineIds : List InlineTableCleanupId) :
    (∀ snapshots, listSnapshots ((CatalogStep.removeOldInlinePayloads inlineIds).apply kv).2 = .ok snapshots →
      ∀ snapshot ∈ snapshots, ∀ tableId schemaId,
        listInlineTablePayloadsAt ((CatalogStep.removeOldInlinePayloads inlineIds).apply kv).2 tableId schemaId
            snapshot.order = listInlineTablePayloadsAt kv tableId schemaId snapshot.order) ∧
      ∀ later, ((CatalogStep.removeOldInlinePayloads inlineIds).apply kv).2.Reaches later →
        ∀ id snapshotOrder laterOrder, InlinePayloadHiddenAt kv id snapshotOrder → snapshotOrder ≤ laterOrder →
          ¬InlinePayloadVisibleAt later id laterOrder := by
  have chunks := reachable.chunksOpen
  constructor
  · have leaves := (CatalogStep.removeOldInlinePayloads inlineIds).apply_leaves kv
    generalize ((CatalogStep.removeOldInlinePayloads inlineIds).apply kv).2 = next at leaves
    intro snapshots retained snapshot member tableId schemaId
    cases leaves with
    | unchanged => rfl
    | drawn => rfl
    | removedPayloads staged =>
      obtain ⟨removes, listed, isListed, requested⟩ := stageRemoveOldInlineTablePayloads_removes staged
      rw [listSnapshots_congr removes.snapshots] at retained
      refine removes_listing chunks removes ?_ member
      intro id removed
      obtain ⟨row, isRemoved, rfl⟩ := List.mem_map.mp removed
      exact listOldInlineTablePayloadsForCleanup_ended chunks.unmarked retained isListed row (requested row isRemoved)
  · intro later reaches id snapshotOrder laterOrder hidden order
    exact chunks.stays_hidden (.head ⟨_, rfl⟩ reaches) hidden order

end

/-- A flushed payload whose snapshot is expired, and a newer payload of the same table and schema. -/
def flushedThenExpired : List CatalogStep :=
  [.call (.registerInlinePayload 0 1 0 (rowTag ++ [tab, 55, newline])), .call (.appendDataFiles 0 [] [.new 1 0 1]),
    .call (.registerInlinePayload 0 1 0 (rowTag ++ [tab, 56, newline])), .call (.expireSnapshots [1])]

theorem removeOldInlinePayloads_removes_flushed :
    let kv := runSteps (CatalogHistory.start 0 0).kv flushedThenExpired
    let cleaned := ((CatalogStep.removeOldInlinePayloads [⟨1, 0, 2⟩]).apply kv).2
    (kv.inlineTable.entries.length = 2 ∧ cleaned.inlineTable.entries.length = 1 ∧
        cleaned.inlineFlushWatermark.entries = []) ∧
      listInlineTablePayloadsAt cleaned 1 0 4 = listInlineTablePayloadsAt kv 1 0 4 ∧
      ¬InlinePayloadVisibleAt cleaned ⟨1, 0, 2⟩ 4 := by
  have preserves := removeOldInlinePayloads_preserves_visibility (reachable_runSteps 0 0 flushedThenExpired) [⟨1, 0, 2⟩]
  refine ⟨by decide +kernel, ?_, ?_⟩
  · cases retained : listSnapshots ((CatalogStep.removeOldInlinePayloads [⟨1, 0, 2⟩]).apply
        (runSteps (CatalogHistory.start 0 0).kv flushedThenExpired)).2 with
    | error failure =>
      have noError : (listSnapshots ((CatalogStep.removeOldInlinePayloads [⟨1, 0, 2⟩]).apply
        (runSteps (CatalogHistory.start 0 0).kv flushedThenExpired)).2).isOk = true := by decide +kernel
      simp [retained, Except.isOk, Except.toBool] at noError
    | ok snapshots =>
      have listed : (SnapshotRow.new 4 3 0) ∈ ((listSnapshots ((CatalogStep.removeOldInlinePayloads [⟨1, 0, 2⟩]).apply
        (runSteps (CatalogHistory.start 0 0).kv flushedThenExpired)).2).toOption.getD []) := by decide +kernel
      rw [retained] at listed
      exact preserves.1 snapshots retained _ listed 1 0
  · have hidden : InlinePayloadHiddenAt (runSteps (CatalogHistory.start 0 0).kv flushedThenExpired) ⟨1, 0, 2⟩ 3 := by
      refine ⟨⟨⟨1, 0, 2, 0⟩, ⟨1, 0, ⟨2, none⟩, 0, 1, rowTag ++ [tab, 55, newline]⟩, by decide +kernel, by decide⟩,
        by decide, ?_⟩
      unfold InlinePayloadVisibleAt
      decide +kernel
    exact preserves.2 _ .refl _ 3 4 hidden (by decide)

end DucklakeCatalog
