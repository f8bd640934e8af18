import DucklakeCatalog.Inline.Assembly
import DucklakeCatalog.Inline.Tables
import DucklakeCatalog.KeyedStore.OrderedSet

namespace DucklakeCatalog

open KeyedStore

/-! ## End orders -/

/-- A stored watermark of the table and schema that ends everything begun up to `beginOrder`. -/
structure EndsBegin (kv : CatalogKv) (tableId : TableId) (schemaId : SchemaId) (beginOrder : CatalogOrderId)
    (key : InlineFlushWatermarkKey) : Prop where
  stored : kv.inlineFlushWatermark.get? key = some ()
  sameTable : key.tableId = tableId
  sameSchema : key.schemaId = schemaId
  reaches : beginOrder ≤ key.maxBeginOrder

section

variable {kv : CatalogKv} {tableId : TableId} {schemaId : SchemaId} {snapshotOrder beginOrder : CatalogOrderId}

theorem mem_watermarks {watermark : InlineFlushWatermark} :
    watermark ∈ (inlineTableEndOrdersAt kv tableId schemaId snapshotOrder).watermarks ↔
      kv.inlineFlushWatermark.get? ⟨tableId, watermark.endOrder, schemaId, watermark.maxBeginOrder⟩ = some () ∧
        watermark.endOrder ≤ snapshotOrder := by
  simp only [inlineTableEndOrdersAt, inlineTableEndOrders, List.mem_map, OrderedMap.mem_scan]
  constructor
  · rintro ⟨⟨key, value⟩, ⟨found, counts⟩, rfl⟩
    simp only [Bool.not_true, Bool.false_or, Bool.and_eq_true, decide_eq_true_eq] at counts
    obtain ⟨rfl, rfl, ended⟩ := counts
    exact ⟨found, ended⟩
  · rintro ⟨found, ended⟩
    exact ⟨(⟨tableId, watermark.endOrder, schemaId, watermark.maxBeginOrder⟩, ()), ⟨found, by simp [ended]⟩, rfl⟩

/-- A marker of its own or a watermark ends what began at the order. -/
inductive EndsAt (kv : CatalogKv) (tableId : TableId) (schemaId : SchemaId) (beginOrder : CatalogOrderId) :
    CatalogOrderId → Prop
  | marked (stored : kv.inlineTableEnd.get? ⟨tableId, endOrder, schemaId, beginOrder⟩ = some ()) :
      EndsAt kv tableId schemaId beginOrder endOrder
  | flushed (ends : EndsBegin kv tableId schemaId beginOrder key) : EndsAt kv tableId schemaId beginOrder key.endOrder

/-- A snapshot finds a marker exactly for the begin orders marked by then. -/
theorem get?_rows_cases :
    ((inlineTableEndOrdersAt kv tableId schemaId snapshotOrder).rows.get? beginOrder = none ∧
        ∀ endOrder, kv.inlineTableEnd.get? ⟨tableId, endOrder, schemaId, beginOrder⟩ = some () →
          snapshotOrder < endOrder) ∨
      ∃ endOrder, kv.inlineTableEnd.get? ⟨tableId, endOrder, schemaId, beginOrder⟩ = some () ∧
        endOrder ≤ snapshotOrder ∧
        (inlineTableEndOrdersAt kv tableId schemaId snapshotOrder).rows.get? beginOrder = some endOrder := by
  simp only [inlineTableEndOrdersAt, inlineTableEndOrders, Bool.not_true, Bool.false_or]
  rcases OrderedMap.get?_foldl_insert_cases (OrderedMap.empty : OrderedMap CatalogOrderId CatalogOrderId)
      (kv.inlineTableEnd.scan fun key =>
        key.tableId = tableId && (decide (key.schemaId = schemaId) && decide (key.endOrder ≤ snapshotOrder)))
      (fun entry => entry.1.beginOrder) (fun entry => entry.1.endOrder) beginOrder with
    ⟨⟨key, value⟩, scanned, rfl, found⟩ | ⟨missed, found⟩
  · obtain ⟨stored, counts⟩ := OrderedMap.mem_scan.mp scanned
    simp only [Bool.and_eq_true, decide_eq_true_eq] at counts
    obtain ⟨rfl, rfl, ended⟩ := counts
    exact Or.inr ⟨key.endOrder, stored, ended, found⟩
  · rw [OrderedMap.get?_empty] at found
    refine Or.inl ⟨found, ?_⟩
    intro endOrder stored
    by_contra early
    refine missed (⟨tableId, endOrder, schemaId, beginOrder⟩, ()) (OrderedMap.mem_scan.mpr ⟨stored, ?_⟩) rfl
    simpa using not_lt.mp early

/-- The earliest listed watermark that reaches the begin order, if any does. -/
theorem earliest_watermark_cases :
    ((((inlineTableEndOrdersAt kv tableId schemaId snapshotOrder).watermarks.filter fun watermark =>
          beginOrder ≤ watermark.maxBeginOrder).map InlineFlushWatermark.endOrder).min? = none ∧
        ∀ key, EndsBegin kv tableId schemaId beginOrder key → snapshotOrder < key.endOrder) ∨
      ∃ key, EndsBegin kv tableId schemaId beginOrder key ∧ key.endOrder ≤ snapshotOrder ∧
        (((inlineTableEndOrdersAt kv tableId schemaId snapshotOrder).watermarks.filter fun watermark =>
          beginOrder ≤ watermark.maxBeginOrder).map InlineFlushWatermark.endOrder).min? = some key.endOrder := by
  cases earliest : (((inlineTableEndOrdersAt kv tableId schemaId snapshotOrder).watermarks.filter fun watermark =>
      beginOrder ≤ watermark.maxBeginOrder).map InlineFlushWatermark.endOrder).min? with
  | none =>
    refine Or.inl ⟨rfl, ?_⟩
    intro key ends
    by_contra early
    rw [List.min?_eq_none_iff, List.map_eq_nil_iff, List.filter_eq_nil_iff] at earliest
    have listed : (⟨key.maxBeginOrder, key.endOrder⟩ : InlineFlushWatermark) ∈
        (inlineTableEndOrdersAt kv tableId schemaId snapshotOrder).watermarks := by
      rw [mem_watermarks, ← ends.sameTable, ← ends.sameSchema]
      exact ⟨ends.stored, not_lt.mp early⟩
    exact earliest _ listed (by simpa using ends.reaches)
  | some endOrder =>
    obtain ⟨member, _⟩ := List.min?_eq_some_iff.mp earliest
    obtain ⟨watermark, listed, rfl⟩ := List.mem_map.mp member
    obtain ⟨listed, reaches⟩ := List.mem_filter.mp listed
    obtain ⟨stored, ended⟩ := mem_watermarks.mp listed
    exact Or.inr ⟨⟨tableId, watermark.endOrder, schemaId, watermark.maxBeginOrder⟩,
      ⟨stored, rfl, rfl, by simpa using reaches⟩, ended, rfl⟩

/-- A begin order has an end at a snapshot exactly when something ended it by then. -/
theorem endOrderFor_ends :
    ((inlineTableEndOrdersAt kv tableId schemaId snapshotOrder).endOrderFor beginOrder = none ∧
        ∀ endOrder, EndsAt kv tableId schemaId beginOrder endOrder → snapshotOrder < endOrder) ∨
      ∃ endOrder, EndsAt kv tableId schemaId beginOrder endOrder ∧ endOrder ≤ snapshotOrder ∧
        (inlineTableEndOrdersAt kv tableId schemaId snapshotOrder).endOrderFor beginOrder = some endOrder := by
  unfold InlineTableEndOrders.endOrderFor
  dsimp only
  rcases @get?_rows_cases kv tableId schemaId snapshotOrder beginOrder with
    ⟨noRow, laterRows⟩ | ⟨markedEnd, marked, markedBy, isMarked⟩
  · rcases @earliest_watermark_cases kv tableId schemaId snapshotOrder beginOrder with
      ⟨noWatermark, laterWatermarks⟩ | ⟨key, ends, reachedBy, isReached⟩
    · rw [noRow, noWatermark]
      refine Or.inl ⟨rfl, ?_⟩
      intro endOrder ended
      cases ended with
      | marked stored => exact laterRows endOrder stored
      | flushed ends => exact laterWatermarks _ ends
    · rw [noRow, isReached]
      exact Or.inr ⟨key.endOrder, .flushed ends, reachedBy, rfl⟩
  · rcases @earliest_watermark_cases kv tableId schemaId snapshotOrder beginOrder with
      ⟨noWatermark, _⟩ | ⟨key, ends, reachedBy, isReached⟩
    · rw [isMarked, noWatermark]
      exact Or.inr ⟨markedEnd, .marked marked, markedBy, rfl⟩
    · rw [isMarked, isReached]
      rcases min_choice markedEnd key.endOrder with first | first
      · exact Or.inr ⟨markedEnd, .marked marked, markedBy, congrArg some first⟩
      · exact Or.inr ⟨key.endOrder, .flushed ends, reachedBy, congrArg some first⟩

/-- Without per-row markers a begin order ends at the first watermark that reaches it. -/
theorem endOrderFor_cases (unmarked : kv.inlineTableEnd = .empty) :
    ((inlineTableEndOrdersAt kv tableId schemaId snapshotOrder).endOrderFor beginOrder = none ∧
        ∀ key, EndsBegin kv tableId schemaId beginOrder key → snapshotOrder < key.endOrder) ∨
      ∃ key, EndsBegin kv tableId schemaId beginOrder key ∧ key.endOrder ≤ snapshotOrder ∧
        (inlineTableEndOrdersAt kv tableId schemaId snapshotOrder).endOrderFor beginOrder = some key.endOrder := by
  rcases @endOrderFor_ends kv tableId schemaId snapshotOrder beginOrder with
    ⟨noEnd, later⟩ | ⟨endOrder, ends, ended, found⟩
  · exact Or.inl ⟨noEnd, fun key ends => later key.endOrder (.flushed ends)⟩
  · cases ends with
    | marked stored => simp [unmarked] at stored
    | flushed ends => exact Or.inr ⟨_, ends, ended, found⟩

/-- A chunk with no end of its own is visible from its begin order on, until something ends it. -/
theorem inlineChunkVisibleAt_open {row : InlineTableChunkRow} (isOpen : row.validity.endOrder = none) :
    inlineChunkVisibleAt row (inlineTableEndOrdersAt kv tableId schemaId snapshotOrder) snapshotOrder = true ↔
      row.validity.beginOrder ≤ snapshotOrder ∧
        ∀ endOrder, EndsAt kv tableId schemaId row.validity.beginOrder endOrder → snapshotOrder < endOrder := by
  unfold inlineChunkVisibleAt inlineChunkEndOrder
  rw [isOpen, Option.none_or, Bool.and_eq_true, decide_eq_true_eq]
  rcases @endOrderFor_ends kv tableId schemaId snapshotOrder row.validity.beginOrder with
    ⟨none, later⟩ | ⟨endOrder, ends, ended, found⟩
  · rw [none]
    simpa using fun _ => later
  · rw [found]
    simp only [Option.all_some, decide_eq_true_eq]
    constructor
    · exact fun visible => absurd visible.2 (not_lt.mpr ended)
    · exact fun visible => absurd (visible.2 endOrder ends) (not_lt.mpr ended)

/-- A chunk stored open is visible from its begin order on, until a watermark ends it. -/
theorem inlineChunkVisibleAt_iff (unmarked : kv.inlineTableEnd = .empty) {row : InlineTableChunkRow}
    (isOpen : row.validity.endOrder = none) :
    inlineChunkVisibleAt row (inlineTableEndOrdersAt kv tableId schemaId snapshotOrder) snapshotOrder = true ↔
      row.validity.beginOrder ≤ snapshotOrder ∧
        ∀ key, EndsBegin kv tableId schemaId row.validity.beginOrder key → snapshotOrder < key.endOrder := by
  rw [inlineChunkVisibleAt_open isOpen]
  refine and_congr_right fun _ => ⟨fun later key ends => later _ (.flushed ends), ?_⟩
  intro later endOrder ends
  cases ends with
  | marked stored => simp [unmarked] at stored
  | flushed ends => exact later _ ends

end

/-! ## Flushed chunks -/

/-- A flush takes only chunks its snapshot saw; every other chunk it saw had ended by then. -/
theorem flushInlineTablePayloadRowsAtSnapshotOrder_ok {kv : CatalogKv} {flush : InlineTableFlush}
    {flushSnapshotOrder endOrder : CatalogOrderId} {flushed : List InlineTableChunkRow}
    (success : flushInlineTablePayloadRowsAtSnapshotOrder kv flush flushSnapshotOrder endOrder = .ok flushed) :
    (∀ row ∈ flushed, row.validity.beginOrder ≤ flushSnapshotOrder) ∧
      ∀ row ∈ inlineTableChunkRows kv flush.tableId flush.schemaId, row.validity.beginOrder ≤ flushSnapshotOrder →
        row.validity.beginOrder ∈ flushed.map (fun row => row.validity.beginOrder) ∨
          ∃ existingEnd, existingEnd ≤ flushSnapshotOrder ∧
            inlineChunkEndOrder row (inlineTableEndOrdersAt kv flush.tableId flush.schemaId endOrder) =
              some existingEnd := by
  unfold flushInlineTablePayloadRowsAtSnapshotOrder at success
  dsimp only at success
  constructor
  · refine foldlM_invariant (fun rows : List InlineTableChunkRow =>
      ∀ row ∈ rows, row.validity.beginOrder ≤ flushSnapshotOrder) success (by simp) ?_
    intro rows row next _ seen taken
    split at taken
    · rw [← Except.ok.inj taken]
      exact seen
    · rename_i notLater
      split at taken
      · split at taken
        · simp at taken
        · rw [← Except.ok.inj taken]
          exact seen
      · rw [← Except.ok.inj taken]
        intro other member
        rcases List.mem_append.mp member with old | new
        · exact seen other old
        · rw [List.mem_singleton.mp new]
          exact not_lt.mp notLater
  · refine foldlM_establishes (fun (rows : List InlineTableChunkRow) (row : InlineTableChunkRow) =>
      row.validity.beginOrder ≤ flushSnapshotOrder →
        row.validity.beginOrder ∈ rows.map (fun row => row.validity.beginOrder) ∨
          ∃ existingEnd, existingEnd ≤ flushSnapshotOrder ∧
            inlineChunkEndOrder row (inlineTableEndOrdersAt kv flush.tableId flush.schemaId endOrder) =
              some existingEnd) success ?_ ?_
    · intro rows row next taken seen
      rw [if_neg (not_lt.mpr seen)] at taken
      split at taken
      · rename_i existingEnd found
        split at taken
        · simp at taken
        · rename_i early
          exact Or.inr ⟨existingEnd, not_lt.mp early, found⟩
      · rw [← Except.ok.inj taken]
        exact Or.inl (by simp)
    · intro rows row next earlier taken established seen
      refine (established seen).imp_left ?_
      intro member
      split at taken
      · rwa [← Except.ok.inj taken]
      · split at taken
        · split at taken
          · simp at taken
          · rwa [← Except.ok.inj taken]
        · rw [← Except.ok.inj taken, List.map_append]
          exact List.mem_append_left _ member

end DucklakeCatalog
