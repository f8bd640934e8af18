import DucklakeCatalog.Inline.ChangeFeed
import DucklakeCatalog.Run.InlinePayloads

namespace DucklakeCatalog

open KeyedStore

/-! ## Row changes of a registered payload -/

def rowChangeEntries (payload : InlineTablePayloadRow) : List (TableInlineRowChangeKey × Unit) :=
  (insertedRows payload.payload).map fun row =>
    (⟨payload.tableId, payload.beginOrder, .inserted, payload.schemaId, row.1⟩, ())

structure StagesRowChanges (kv : CatalogKv) (operation : CatalogOperation) (batch : KvBatch) : Prop where
  changes : batch.tableInlineRowChange = ({} : Staged TableInlineRowChangeKey Unit).putAll
    ((operation.inlinePayloads kv.generatedOrderId).flatMap rowChangeEntries)
  text : ∀ payload ∈ operation.inlinePayloads kv.generatedOrderId, RowText payload.payload

section

variable {kv : CatalogKv} {operation : CatalogOperation} {batch : KvBatch}

theorem rowChange_congr {before after : KvBatch} (same : after.inlineMaps = before.inlineMaps) :
    after.tableInlineRowChange = before.tableInlineRowChange := by
  simp only [KvBatch.inlineMaps, Prod.mk.injEq] at same
  exact same.2.2.2.2.2.2

theorem rowChange_besideFiles {before after : KvBatch} (same : after.besideFiles = before.besideFiles) :
    after.tableInlineRowChange = before.tableInlineRowChange := by
  have sameChanges := congrArg KvBatch.tableInlineRowChange same
  exact sameChanges

theorem StagesRowChanges.untouched (noPayloads : operation.inlinePayloads kv.generatedOrderId = [])
    (same : batch.tableInlineRowChange = {}) : StagesRowChanges kv operation batch := by
  constructor
  · simp [same, noPayloads]
  · simp [noPayloads]

theorem stageInlineRowChangesForPayload_writes {next : KvBatch} (payload : InlineTablePayloadRow)
    (text : RowText payload.payload)
    (success : stageInlineRowChangesForPayload batch payload.tableId payload.schemaId payload.beginOrder .inserted
      payload.payload = .ok next) :
    next.tableInlineRowChange = batch.tableInlineRowChange.putAll (rowChangeEntries payload) := by
  unfold stageInlineRowChangesForPayload at success
  rw [bind_eq_ok] at success
  obtain ⟨rows, read, success⟩ := success
  have same : rows = insertedRows payload.payload := by
    rw [optionalInlinePayloadRows, (insertedRows_lines text).2] at read
    exact (Except.ok.inj read).symm
  simp only [pure_eq_ok] at success
  have opened : (if rows = [] then batch else stageInlineTableChange batch payload.tableId payload.beginOrder
      .inserted).tableInlineRowChange = batch.tableInlineRowChange := by
    split
    · rfl
    · rfl
  let entry (row : Nat × List UInt8) : TableInlineRowChangeKey × Unit :=
    (⟨payload.tableId, payload.beginOrder, .inserted, payload.schemaId, row.1⟩, ())
  rw [← success, Staged.foldl_put KvBatch.tableInlineRowChange entry (fun _ _ => rfl), opened, same]
  rfl

theorem CatalogOperation.Commits.rowChanges (commits : operation.Commits kv batch) :
    StagesRowChanges kv operation batch := by
  cases commits with
  | createTable _ staged =>
    obtain ⟨_, rfl⟩ := stageCreateTableRow_ok staged
    exact .untouched rfl rfl
  | appendDataFiles staged =>
    obtain ⟨appended, opening, flushes⟩ := stageAppendDataFiles_besideFiles staged
    obtain ⟨_, _, _, _, same⟩ := foldlM_stageFlushInlineTablePayloads_changes flushes
    refine .untouched rfl ?_
    rw [same]
    exact rowChange_besideFiles opening
  | @dataMutation input _ _ _ _ staged =>
    obtain ⟨registered, closed, flushed, _, _, opening, closes, flushes, same⟩ := stageDataMutation_besideFiles staged
    obtain ⟨_, _, _, _, sameFlushed⟩ := foldlM_stageFlushInlineTablePayloads_changes flushes
    obtain ⟨_, sameClosed⟩ := stageCloseMaterializedInlineFileDeletions_changes closes
    obtain ⟨_, added⟩ := stageNewInlineFileDeletions_changes flushed input.inlineFileDeletions kv.generatedOrderId
    refine .untouched rfl ?_
    rw [rowChange_besideFiles same, added, sameFlushed, sameClosed]
    exact rowChange_besideFiles opening
  | mergeAdjacent _ staged => exact .untouched rfl (rowChange_besideFiles (stageMergeAdjacent_besideFiles staged))
  | rewriteDelete _ staged => exact .untouched rfl (rowChange_besideFiles (stageRewriteDelete_besideFiles staged))
  | registerDeleteFiles staged =>
    exact .untouched rfl (rowChange_besideFiles (stageRegisterDeleteFiles_changes staged).besideFiles)
  | inlineFileDeletions staged =>
    obtain ⟨_, _, _, _, rfl⟩ := stageInlineFileDeletions_changes staged
    exact .untouched rfl rfl
  | @registerInlinePayload payload now tableId schemaId _ _ valid staged =>
    have text := rowText_of_validated valid
    simp only [stageInlineTablePayload, bind_eq_ok, pure_eq_ok, Prod.mk.injEq] at staged
    obtain ⟨changed, changes, _, _, _, rfl⟩ := staged
    have written := stageInlineRowChangesForPayload_writes
      ⟨tableId, schemaId, kv.generatedOrderId, payload⟩ text changes
    refine ⟨?_, by simpa [inlinePayloads] using text⟩
    rw [inlinePayloads, List.flatMap_singleton]
    exact written
  | @registerInlinePayloadWithTable table payload commitSnapshot previousTable rawSequence now schemaId _ _ valid staged =>
    unfold inlineTableVersionToReplace at valid
    rw [bind_eq_ok] at valid
    obtain ⟨_, valid, _⟩ := valid
    have text := rowText_of_validated valid
    simp only [stageInlineTablePayloadWithTable, bind_eq_ok, pure_eq_ok,
      Prod.mk.injEq] at staged
    obtain ⟨changed, changes, _, _, _, rfl⟩ := staged
    have written := stageInlineRowChangesForPayload_writes
      ⟨table.tableId, schemaId, kv.generatedOrderId, payload⟩ text changes
    obtain ⟨_, _, _, same⟩ := stageTableVersion_changes changed kv.generatedOrderId
      (previousTable.withEndOrder (some kv.generatedOrderId))
      { previousTable with
        schemaId := table.schemaId, inlinedDataTables := table.inlinedDataTables,
        validity := ⟨kv.generatedOrderId, none⟩ }
    refine ⟨?_, by simpa [inlinePayloads] using text⟩
    rw [inlinePayloads, List.flatMap_singleton, same]
    exact written

end

/-! ## Logged rows -/

/-- The change keys are those of the logged payloads, all of them row text. -/
structure RowsLogged (kv : CatalogKv) (log : InlineLog) : Prop where
  keys : ∀ key, kv.tableInlineRowChange.get? key = some () ↔ ∃ payload ∈ log.payloads, (key, ()) ∈ rowChangeEntries payload
  text : ∀ payload ∈ log.payloads, RowText payload.payload

theorem RowsLogged.commit {kv : CatalogKv} {log : InlineLog} {operation : CatalogOperation} {batch : KvBatch}
    (rows : RowsLogged kv log) (commits : operation.Commits kv batch) :
    RowsLogged (kv.withGeneratedOrder.commit batch)
      (log.append ⟨operation.inlinePayloads kv.generatedOrderId, operation.inlineFlushEvents kv⟩) := by
  have stages := commits.rowChanges
  constructor
  · intro key
    have committed : (kv.withGeneratedOrder.commit batch).tableInlineRowChange =
        kv.tableInlineRowChange.commit batch.tableInlineRowChange := rfl
    have split : (∃ payload ∈ log.payloads ++ operation.inlinePayloads kv.generatedOrderId,
        (key, ()) ∈ rowChangeEntries payload) ↔ kv.tableInlineRowChange.get? key = some () ∨
          (key, ()) ∈ (operation.inlinePayloads kv.generatedOrderId).flatMap rowChangeEntries := by
      rw [rows.keys key, List.mem_flatMap]
      simp only [List.mem_append, or_and_right, exists_or]
    rw [committed, stages.changes]
    refine Iff.trans ?_ split.symm
    rcases OrderedMap.get?_commit_putAll_cases kv.tableInlineRowChange
      ((operation.inlinePayloads kv.generatedOrderId).flatMap rowChangeEntries) key with
      ⟨_, member, found⟩ | ⟨unwritten, found⟩
    · rw [found]
      exact iff_of_true rfl (Or.inr member)
    · rw [found, or_iff_left (unwritten ())]
  · intro payload member
    rcases List.mem_append.mp member with old | new
    · exact rows.text payload old
    · exact stages.text payload new

theorem RowsLogged.run {history : CatalogHistory} {log : InlineLog} (rows : RowsLogged history.kv log)
    (operations : List CatalogOperation) :
    RowsLogged (history.run operations).kv (log.append (history.inlineLog operations)) := by
  refine CatalogHistory.run_log RowsLogged (fun rows => ⟨rows.keys, rows.text⟩) RowsLogged.commit ?_ rows operations
  intro kv log batch operation rows maintains
  have committed : (kv.commit batch).tableInlineRowChange = kv.tableInlineRowChange.commit batch.tableInlineRowChange :=
    rfl
  rw [rowChange_congr maintains.inlineMaps] at committed
  exact ⟨by rw [committed]; exact rows.keys, rows.text⟩

/-! ## Answers of the feed -/

/-- The first row of the payload with the id, newline included. -/
def registeredRow (rowId : Nat) (payload : InlineTablePayloadRow) : Option (List UInt8) :=
  ((insertedRows payload.payload).find? fun row => row.1 = rowId).map fun row => row.2 ++ [newline]

/-- The feed's view of a stored payload. -/
def payloadChunks (kv : CatalogKv) (feedEndOrder : CatalogOrderId) (payload : InlineTablePayloadRow) :
    InlinePayloadChunks where
  beginOrder := payload.beginOrder
  endOrder := (inlineTableEndOrdersAt kv payload.tableId payload.schemaId feedEndOrder).endOrderFor payload.beginOrder
  chunks := (chunkEntries payload).map Prod.snd

section

variable {kv : CatalogKv} {log : InlineLog} {tableId : TableId} {schemaId : SchemaId}
variable {startOrder endOrder : CatalogOrderId}

/-- Payloads of the table and schema registered by the order. -/
def InlineLog.registeredBy (log : InlineLog) (tableId : TableId) (schemaId : SchemaId) (order : CatalogOrderId) :
    List InlineTablePayloadRow :=
  log.payloads.filter fun payload =>
    payload.tableId = tableId ∧ payload.schemaId = schemaId ∧ decide (payload.beginOrder ≤ order) = true

theorem mem_registeredBy {payload : InlineTablePayloadRow} : payload ∈ log.registeredBy tableId schemaId endOrder ↔
    payload ∈ log.payloads ∧ payload.tableId = tableId ∧ payload.schemaId = schemaId ∧ payload.beginOrder ≤ endOrder := by
  rw [InlineLog.registeredBy, List.mem_filter, decide_eq_true_eq, decide_eq_true_eq]

theorem Logged.loadInlinePayloadChunks_eq (logged : Logged kv log) :
    loadInlinePayloadChunks kv tableId schemaId endOrder (inlineTableEndOrdersAt kv tableId schemaId endOrder) =
      (log.registeredBy tableId schemaId endOrder).map (payloadChunks kv endOrder) := by
  have grouped := @Logged.groupChunksByBegin_filter kv log tableId schemaId logged
    (fun row => row.validity.beginOrder ≤ endOrder) (fun payload => decide (payload.beginOrder ≤ endOrder)) ?_
  · unfold loadInlinePayloadChunks
    rw [grouped, List.map_map]
    refine List.map_congr_left ?_
    intro payload member
    obtain ⟨listed, rfl, rfl, _⟩ := mem_registeredBy.mp member
    have storable := logged.storable payload listed
    cases last : ((chunkEntries payload).map Prod.snd).getLast? with
    | none =>
      rw [List.getLast?_eq_none_iff, List.map_eq_nil_iff] at last
      exact absurd last (chunkEntries_ne_nil storable)
    | some row =>
      have window := chunk_validity storable (List.mem_of_getLast? last)
      simp [payloadChunks, last, inlineChunkEndOrder, window]
  · intro payload listed _ _ row member
    rw [chunk_validity (logged.storable payload listed) member]

theorem findInlinePayloadRow_eq (logged : Logged kv log) (rows : RowsLogged kv log) (rowId : Nat)
    {payloads : List InlineTablePayloadRow} (listed : ∀ payload ∈ payloads, payload ∈ log.payloads) :
    findInlinePayloadRow rowId (payloads.map (payloadChunks kv endOrder)) =
      .ok (payloads.findSome? (registeredRow rowId)) := by
  induction payloads with
  | nil => rfl
  | cons payload rest ih =>
    have member := listed payload List.mem_cons_self
    have assembled : assembleInlinePayload (payloadChunks kv endOrder payload).chunks = .ok payload.payload :=
      assemble_chunkEntries (logged.storable payload member)
    rw [List.map_cons, findInlinePayloadRow, assembled, List.findSome?_cons]
    simp only [bind, Except.bind, inlinePayloadRow_eq (rows.text payload member)]
    rw [← registeredRow]
    cases registeredRow rowId payload with
    | none => exact ih fun other later => listed other (List.mem_cons_of_mem _ later)
    | some row => rfl

/-- Some data file the feed reads carries the commits around the order. -/
def spannedByDataFile (kv : CatalogKv) (tableId : TableId) (endOrder order : CatalogOrderId) : Bool :=
  (insertionDataFilesThrough kv tableId endOrder).any fun file => dataFileCoversInlineBegin file order

/-- What the insertion feed answers for a row id at an order. -/
def insertionAnswer (kv : CatalogKv) (log : InlineLog) (tableId : TableId) (schemaId : SchemaId)
    (endOrder : CatalogOrderId) (rowId : Nat) (order : CatalogOrderId) : Option (List UInt8) :=
  if spannedByDataFile kv tableId endOrder order then none
  else
    ((log.registeredBy tableId schemaId endOrder).reverse.filter fun payload =>
      (payloadChunks kv endOrder payload).visibleAtChange .inserted order).findSome? (registeredRow rowId)

theorem payloadAtChange_eq (logged : Logged kv log) (rows : RowsLogged kv log) (rowId : Nat) (order : CatalogOrderId) :
    (InlinePayloadChangeContext.load kv tableId schemaId endOrder .inserted).payloadAtChange rowId order =
      .ok (insertionAnswer kv log tableId schemaId endOrder rowId order) := by
  unfold InlinePayloadChangeContext.payloadAtChange insertionAnswer
  have context : (InlinePayloadChangeContext.load kv tableId schemaId endOrder .inserted).payloads =
      (log.registeredBy tableId schemaId endOrder).map (payloadChunks kv endOrder) := logged.loadInlinePayloadChunks_eq
  by_cases spanned : spannedByDataFile kv tableId endOrder order = true
  · rw [if_pos ⟨rfl, spanned⟩, if_pos spanned]
  · rw [if_neg fun both => spanned both.2, if_neg spanned, context, ← List.map_reverse, List.filter_map]
    refine findInlinePayloadRow_eq logged rows rowId ?_
    intro payload member
    exact (mem_registeredBy.mp (List.mem_reverse.mp (List.mem_filter.mp member).1)).1

/-- The insertion feed of a non-empty window never fails and keeps the changes it has an answer for. -/
theorem listInlineRowPayloadChanges_inserted (logged : Logged kv log) (rows : RowsLogged kv log)
    (window : startOrder ≤ endOrder) :
    ∃ changes, listInlineRowPayloadChanges kv tableId schemaId startOrder endOrder .inserted = .ok changes ∧
      ∀ order rowId payload, ⟨⟨tableId, schemaId, order, .inserted, rowId⟩, payload⟩ ∈ changes ↔
        (kv.tableInlineRowChange.get? ⟨tableId, order, .inserted, schemaId, rowId⟩ = some () ∧
          startOrder ≤ order ∧ order ≤ endOrder) ∧
        insertionAnswer kv log tableId schemaId endOrder rowId order = some payload := by
  have folds (step : List InlineRowPayloadChange → InlineRowChange → CatalogResult (List InlineRowPayloadChange))
      (steps : ∀ seen change, step seen change = .ok (seen ++
        ((insertionAnswer kv log tableId schemaId endOrder change.rowId change.order).map (⟨change, ·⟩)).toList))
      (changes : List InlineRowChange) (earlier : List InlineRowPayloadChange) :
      changes.foldlM step earlier = .ok (earlier ++ changes.filterMap fun change =>
        (insertionAnswer kv log tableId schemaId endOrder change.rowId change.order).map (⟨change, ·⟩)) := by
    induction changes generalizing earlier with
    | nil => simp [pure, Except.pure]
    | cons change rest ih =>
      rw [List.foldlM_cons, steps, ok_bind, ih, List.filterMap_cons]
      cases insertionAnswer kv log tableId schemaId endOrder change.rowId change.order with
      | none => simp
      | some payload => simp
  unfold listInlineRowPayloadChanges listInlineRowChanges
  rw [if_neg (not_lt.mpr window)]
  refine ⟨_, folds _ ?_ _ [], ?_⟩
  · intro seen change
    rw [payloadAtChange_eq logged rows]
    cases insertionAnswer kv log tableId schemaId endOrder change.rowId change.order with
    | none => simp [bind, Except.bind]
    | some payload => rfl
  intro order rowId payload
  simp only [List.nil_append, List.mem_filterMap, List.mem_filter, List.mem_map, OrderedMap.mem_scan,
    Option.map_eq_some_iff]
  constructor
  · rintro ⟨change, ⟨⟨entry, ⟨found, inside⟩, rfl⟩, wanted⟩, answer, answered, same⟩
    obtain ⟨⟨entryTable, entryOrder, entryKind, entrySchema, entryRow⟩, value⟩ := entry
    simp only [InlineRowPayloadChange.mk.injEq, InlineRowChange.mk.injEq] at same
    obtain ⟨⟨_, rfl, rfl, rfl, rfl⟩, rfl⟩ := same
    rw [Bool.and_eq_true, Bool.and_eq_true, decide_eq_true_eq, decide_eq_true_eq, decide_eq_true_eq] at inside
    obtain ⟨⟨sameTable, starts⟩, ends⟩ := inside
    dsimp only at sameTable
    rw [sameTable] at found
    exact ⟨⟨found, starts, ends⟩, answered⟩
  · rintro ⟨⟨found, starts, ends⟩, answered⟩
    refine ⟨⟨tableId, schemaId, order, .inserted, rowId⟩, ⟨⟨(⟨tableId, order, .inserted, schemaId, rowId⟩, ()),
      ⟨found, ?_⟩, rfl⟩, by simp⟩, payload, answered, rfl⟩
    simp [starts, ends]

/-- For a payload that no flush covers yet the feed answers with the payload's own row. -/
theorem insertionAnswer_visible (logged : Logged kv log) {payload : InlineTablePayloadRow}
    (visible : payload ∈ log.visibleAt tableId schemaId endOrder)
    (unspanned : spannedByDataFile kv tableId endOrder payload.beginOrder = false) {row : Nat × List UInt8}
    (member : row ∈ insertedRows payload.payload) :
    insertionAnswer kv log tableId schemaId endOrder row.1 payload.beginOrder = registeredRow row.1 payload := by
  obtain ⟨listed, rfl, rfl, begun, uncovered⟩ := mem_visibleAt.mp visible
  obtain ⟨front, back, split⟩ := List.append_of_mem (mem_registeredBy.mpr ⟨listed, rfl, rfl, begun⟩)
  have isOpen : (payloadChunks kv endOrder payload).endOrder = none := by
    rcases @endOrderFor_cases kv payload.tableId payload.schemaId endOrder payload.beginOrder logged.unmarked with
      ⟨none, _⟩ | ⟨key, ends, past, _⟩
    · exact none
    · exact absurd ((logged.visible_iff listed).mpr uncovered key ends) (not_lt.mpr past)
  have own : (payloadChunks kv endOrder payload).visibleAtChange .inserted payload.beginOrder = true := by
    unfold InlinePayloadChunks.visibleAtChange
    rw [isOpen]
    simp [payloadChunks]
  have later : back.reverse.filter (fun other =>
      (payloadChunks kv endOrder other).visibleAtChange .inserted payload.beginOrder) = [] := by
    refine List.filter_eq_nil_iff.mpr ?_
    intro other inBack
    have sorted : (front ++ payload :: back).Pairwise fun earlier later => earlier.beginOrder < later.beginOrder :=
      split ▸ logged.ordered.filter _
    have newer := (List.pairwise_cons.mp (List.pairwise_append.mp sorted).2.1).1 other (List.mem_reverse.mp inBack)
    intro seen
    rw [InlinePayloadChunks.visibleAtChange, Bool.and_eq_true] at seen
    exact absurd (of_decide_eq_true seen.1) (not_le.mpr newer)
  have found : (registeredRow row.1 payload).isSome = true := by
    rw [registeredRow, Option.isSome_map, List.find?_isSome]
    exact ⟨row, member, by simp⟩
  obtain ⟨bytes, answer⟩ := Option.isSome_iff_exists.mp found
  unfold insertionAnswer
  rw [unspanned, split, List.reverse_append, List.reverse_cons, List.append_assoc, List.filter_append, later,
    List.nil_append, List.filter_append, List.filter_singleton, own]
  simp [answer]

/-- Every row registered in the window and not flushed by its end is returned with its bytes. -/
def InlineInsertionsReturned (kv : CatalogKv) (log : InlineLog) (tableId : TableId) (schemaId : SchemaId)
    (startOrder endOrder : CatalogOrderId) : Prop :=
  ∀ payload ∈ log.visibleAt tableId schemaId endOrder, startOrder ≤ payload.beginOrder →
    ∀ row ∈ insertedRows payload.payload, ∃ changes,
      listInlineRowPayloadChanges kv tableId schemaId startOrder endOrder .inserted = .ok changes ∧
        ⟨⟨tableId, schemaId, payload.beginOrder, .inserted, row.1⟩, row.2 ++ [newline]⟩ ∈ changes

/-- No data file spans the order of such a payload, and no two of its rows share an id. -/
def InlineInsertionsInSight (kv : CatalogKv) (log : InlineLog) (tableId : TableId) (schemaId : SchemaId)
    (startOrder endOrder : CatalogOrderId) : Prop :=
  ∀ payload ∈ log.visibleAt tableId schemaId endOrder, startOrder ≤ payload.beginOrder →
    insertedRows payload.payload ≠ [] →
      spannedByDataFile kv tableId endOrder payload.beginOrder = false ∧
        ∀ left ∈ insertedRows payload.payload, ∀ right ∈ insertedRows payload.payload, left.1 = right.1 → left.2 = right.2

theorem inlineInsertions_iff (logged : Logged kv log) (rows : RowsLogged kv log) :
    InlineInsertionsReturned kv log tableId schemaId startOrder endOrder ↔
      InlineInsertionsInSight kv log tableId schemaId startOrder endOrder := by
  constructor
  · intro returned payload visible starts nonempty
    obtain ⟨_, _, _, begun, _⟩ := mem_visibleAt.mp visible
    obtain ⟨changes, listed, answers⟩ := @listInlineRowPayloadChanges_inserted kv log tableId schemaId startOrder endOrder
      logged rows (starts.trans begun)
    have answered {row : Nat × List UInt8} (member : row ∈ insertedRows payload.payload) :
        insertionAnswer kv log tableId schemaId endOrder row.1 payload.beginOrder = some (row.2 ++ [newline]) := by
      obtain ⟨found, same, inFeed⟩ := returned payload visible starts row member
      rw [listed, Except.ok.injEq] at same
      exact ((answers _ _ _).mp (same ▸ inFeed)).2
    constructor
    · obtain ⟨row, member⟩ := List.exists_mem_of_ne_nil _ nonempty
      by_contra spanned
      have answer := answered member
      rw [insertionAnswer, if_pos (by simpa using spanned)] at answer
      simp at answer
    · intro left inLeft right inRight same
      have first := answered inLeft
      rw [same, answered inRight, Option.some.injEq, List.append_cancel_right_eq] at first
      exact first.symm
  · intro inSight payload visible starts row member
    obtain ⟨listed, sameTable, sameSchema, begun, _⟩ := mem_visibleAt.mp visible
    obtain ⟨unspanned, distinct⟩ := inSight payload visible starts (List.ne_nil_of_mem member)
    obtain ⟨changes, feed, answers⟩ := @listInlineRowPayloadChanges_inserted kv log tableId schemaId startOrder endOrder
      logged rows (starts.trans begun)
    refine ⟨changes, feed, (answers _ _ _).mpr ⟨⟨?_, starts, begun⟩, ?_⟩⟩
    · rw [rows.keys, ← sameTable, ← sameSchema]
      exact ⟨payload, listed, List.mem_map.mpr ⟨row, member, rfl⟩⟩
    · rw [insertionAnswer_visible logged visible unspanned member, registeredRow, Option.map_eq_some_iff]
      have found : ((insertedRows payload.payload).find? fun other => other.1 = row.1).isSome = true := by
        rw [List.find?_isSome]
        exact ⟨row, member, by simp⟩
      obtain ⟨first, isFirst⟩ := Option.isSome_iff_exists.mp found
      have sameId : first.1 = row.1 := by simpa using List.find?_some isFirst
      exact ⟨first, isFirst, by rw [distinct first (List.mem_of_find?_eq_some isFirst) row member sameId]⟩

end

/-- In every run the insertion feed returns the unflushed rows of a window exactly when no data file spans their
orders and no payload repeats a row id. -/
theorem listInlineRowPayloadChanges_complete_iff (lastOrder : CatalogOrderId) (now : Int)
    (operations : List CatalogOperation) (tableId : TableId) (schemaId : SchemaId) (startOrder endOrder : CatalogOrderId) :
    InlineInsertionsReturned ((CatalogHistory.start lastOrder now).run operations).kv
        ((CatalogHistory.start lastOrder now).inlineLog operations) tableId schemaId startOrder endOrder ↔
      InlineInsertionsInSight ((CatalogHistory.start lastOrder now).run operations).kv
        ((CatalogHistory.start lastOrder now).inlineLog operations) tableId schemaId startOrder endOrder := by
  have noChanges : (CatalogHistory.start lastOrder now).kv.tableInlineRowChange = .empty := rfl
  have noRows : RowsLogged (CatalogHistory.start lastOrder now).kv {} := ⟨by simp [noChanges], by simp⟩
  have opening (log : InlineLog) : ({} : InlineLog).append log = log := by simp [InlineLog.append]
  have logged := (Logged.start lastOrder now).run operations
  have rows := noRows.run operations
  rw [opening] at logged rows
  exact inlineInsertions_iff logged rows

/-- A row inlined between the commits of two data files, which are merged afterwards. -/
def inlinedBetweenMerged : List CatalogOperation :=
  let dataFile (dataFileId rowIdStart recordCount : Nat) : DataFileRow :=
    { dataFileId, tableId := 1, path := "", recordCount, fileSizeBytes := 1, rowIdStart, rowIdStartKnown := true,
      validity := ⟨autoOrder, none⟩ }
  [.appendDataFiles 0 [dataFile 1 0 10] [], .registerInlinePayload 0 1 0 (rowTag ++ [tab, 55, newline]),
    .appendDataFiles 0 [dataFile 2 10 10] [], .mergeAdjacent 0 { sourceFileIds := [1, 2], newFiles := [dataFile 3 0 20] }]

/-- The merged file spans the order of the inlined row, and the feed drops the row. -/
theorem listInlineRowPayloadChanges_dropsRow :
    (listInlineRowPayloadChanges ((CatalogHistory.start 0 0).run inlinedBetweenMerged).kv 1 0 2 5
        .inserted).toOption = some [] ∧
      ¬InlineInsertionsReturned ((CatalogHistory.start 0 0).run inlinedBetweenMerged).kv
        ((CatalogHistory.start 0 0).inlineLog inlinedBetweenMerged) 1 0 2 5 := by
  have empty : (listInlineRowPayloadChanges ((CatalogHistory.start 0 0).run inlinedBetweenMerged).kv 1 0 2 5
      .inserted).toOption = some [] := by decide +kernel
  refine ⟨empty, ?_⟩
  intro returned
  obtain ⟨changes, listed, found⟩ := returned ⟨1, 0, 3, rowTag ++ [tab, 55, newline]⟩ (by decide +kernel)
    (by decide) (7, rowTag ++ [tab, 55]) (by decide +kernel)
  rw [listed] at empty
  simp [Option.some.inj empty] at found

end DucklakeCatalog
