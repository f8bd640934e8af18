import DucklakeCatalog.KeyedStore.OrderedSet
import DucklakeCatalog.Run.InlineMaps

namespace DucklakeCatalog

open KeyedStore

/-! ## What a commit stages -/

/-- The deletions visible at the snapshot of the flush, closed or not. -/
def flushedDeletions (kv : CatalogKv) (flush : InlineTableFlush) : List InlineFileDeletionRow :=
  (inlineFileDeletionRowsForFlush kv flush).toOption.getD []

def endedDeletion (order : CatalogOrderId) (row : InlineFileDeletionRow) :
    InlineFileDeletionKey × InlineFileDeletionRow :=
  (inlineFileDeletionKey row, row.withEndOrder (some order))

theorem stageEndInlineFileDeletions_writes (batch : KvBatch) (rows : List InlineFileDeletionRow)
    (order : CatalogOrderId) :
    (stageEndInlineFileDeletions batch rows order).inlineFileDeletion =
      batch.inlineFileDeletion.putAll (rows.map (endedDeletion order)) :=
  Staged.foldl_put KvBatch.inlineFileDeletion (endedDeletion order) (fun _ _ => rfl) rows batch

theorem stageNewInlineFileDeletions_writes (batch : KvBatch) (rows : List InlineFileDeletionRow)
    (order : CatalogOrderId) :
    (stageNewInlineFileDeletions batch rows order).inlineFileDeletion =
      batch.inlineFileDeletion.putAll ((rows.map fun row => { row with validity := ⟨order, none⟩ }).map fun row =>
        (inlineFileDeletionKey row, row)) := by
  rw [List.map_map]
  exact Staged.foldl_put KvBatch.inlineFileDeletion _ (fun _ _ => rfl) rows batch

variable {next : KvBatch} {order : CatalogOrderId} {row : InlineFileDeletionRow}
variable {flush : InlineTableFlush} {tableId : TableId} {snapshotOrder : CatalogOrderId}

theorem stageFlushInlineTablePayloads_deletions {kv : CatalogKv} {batch : KvBatch}
    (success : stageFlushInlineTablePayloads kv batch flush order = .ok next) :
    next.inlineFileDeletion =
      batch.inlineFileDeletion.putAll ((flushedDeletions kv flush).map (endedDeletion order)) := by
  unfold stageFlushInlineTablePayloads stageFlushInlineFileDeletions at success
  simp only [bind_eq_ok, pure, Except.pure, Except.ok.injEq] at success
  obtain ⟨_, ⟨rows, visible, rfl⟩, success⟩ := success
  have listed : flushedDeletions kv flush = rows := by
    simp [flushedDeletions, visible, Except.toOption]
  rw [listed, ← stageEndInlineFileDeletions_writes]
  split at success
  · rw [bind_eq_ok] at success
    obtain ⟨flushed, _, success⟩ := success
    cases newest : (flushed.map fun row => row.validity.beginOrder).max? with
    | none
    | some maxBeginOrder =>
      simp only [newest, Option.elim, Except.ok.injEq] at success
      rw [← success]
      rfl
  · simp only [Except.ok.injEq] at success
    rw [success]

theorem foldlM_stageFlush_deletions {kv : CatalogKv} {batch : KvBatch} {flushes : List InlineTableFlush}
    (success : flushes.foldlM (fun batch flush => stageFlushInlineTablePayloads kv batch flush order) batch =
      .ok next) :
    next.inlineFileDeletion = batch.inlineFileDeletion.putAll
      ((flushes.flatMap (flushedDeletions kv)).map (endedDeletion order)) := by
  rw [List.map_flatMap]
  exact Staged.foldlM_putAll KvBatch.inlineFileDeletion _
    (fun _ _ _ taken => stageFlushInlineTablePayloads_deletions taken) success

/-- What a commit writes about inline deletions: it ends deletions a delete file takes over, ends what its
flushes see, and begins new ones. -/
structure StagesDeletions (kv : CatalogKv) (operation : CatalogOperation) (batch : KvBatch)
    (materialized begun : List InlineFileDeletionRow) : Prop where
  written : batch.inlineFileDeletion = ({} : Staged InlineFileDeletionKey InlineFileDeletionRow).putAll
    ((materialized ++ operation.inlineFlushes.flatMap (flushedDeletions kv)).map (endedDeletion kv.generatedOrderId) ++
      begun.map fun row => (inlineFileDeletionKey row, row))
  latest : ∀ row ∈ materialized, ∃ snapshot tableId, latestSnapshot kv = some snapshot ∧
    row ∈ listInlineFileDeletionRowsForTableAt kv tableId snapshot.order
  new : ∀ row ∈ begun, row.validity = ⟨kv.generatedOrderId, none⟩

section

variable {kv : CatalogKv} {operation : CatalogOperation} {batch : KvBatch}
variable {before after : KvBatch}

/-- Inline maps agree on the deletions they stage. -/
theorem inlineFileDeletion_congr (same : after.inlineMaps = before.inlineMaps) :
    after.inlineFileDeletion = before.inlineFileDeletion := by
  simp only [KvBatch.inlineMaps, Prod.mk.injEq] at same
  exact same.2.2.1

theorem inlineFileDeletion_besideFiles (same : after.besideFiles = before.besideFiles) :
    after.inlineFileDeletion = before.inlineFileDeletion := by
  have sameDeletions := congrArg KvBatch.inlineFileDeletion same
  exact sameDeletions

theorem StagesDeletions.untouched (noFlushes : operation.inlineFlushes = [])
    (same : batch.inlineFileDeletion = {}) : StagesDeletions kv operation batch [] [] := by
  refine ⟨?_, by simp, by simp⟩
  simp [same, noFlushes]

theorem stageCloseMaterialized_deletions {dataFiles : List DataFileRow} {deleteFiles : List DeleteFileRow}
    (success : stageCloseMaterializedInlineFileDeletions kv batch dataFiles deleteFiles order = .ok next) :
    ∃ materialized : List InlineFileDeletionRow, next.inlineFileDeletion =
        batch.inlineFileDeletion.putAll (materialized.map (endedDeletion order)) ∧
      ∀ row ∈ materialized, ∃ snapshot tableId, latestSnapshot kv = some snapshot ∧
        row ∈ listInlineFileDeletionRowsForTableAt kv tableId snapshot.order := by
  unfold stageCloseMaterializedInlineFileDeletions at success
  split at success
  · simp only [Except.ok.injEq] at success
    exact ⟨[], by simp [success], by simp⟩
  · rename_i snapshot isLatest
    simp only [bind_eq_ok, pure_eq_ok] at success
    obtain ⟨files, _, rfl⟩ := success
    let taken (tableId : TableId) : List InlineFileDeletionRow :=
      (listInlineFileDeletionRowsForTableAt kv tableId snapshot.order).filter fun row =>
        (tableId, row.dataFileId) ∈ files
    refine ⟨((files.map Prod.fst).dedup.insertionSort (· ≤ ·)).flatMap taken, ?_, ?_⟩
    · rw [List.map_flatMap]
      exact Staged.foldl_putAll KvBatch.inlineFileDeletion _
        (fun state tableId => stageEndInlineFileDeletions_writes state (taken tableId) order) _ _
    intro row member
    obtain ⟨tableId, _, listed⟩ := List.mem_flatMap.mp member
    exact ⟨snapshot, tableId, isLatest, (List.mem_filter.mp listed).1⟩

theorem CatalogOperation.Commits.deletions (commits : operation.Commits kv batch) :
    ∃ materialized begun, StagesDeletions kv operation batch materialized begun := by
  cases commits with
  | createTable _ staged =>
    obtain ⟨_, rfl⟩ := stageCreateTableRow_ok staged
    exact ⟨[], [], .untouched rfl rfl⟩
  | appendDataFiles staged =>
    obtain ⟨appended, opening, flushes⟩ := stageAppendDataFiles_besideFiles staged
    refine ⟨[], [], ?_, by simp, by simp⟩
    rw [foldlM_stageFlush_deletions flushes, inlineFileDeletion_besideFiles opening]
    simp [CatalogOperation.inlineFlushes, stageSnapshot]
  | @dataMutation input _ _ _ _ staged =>
    obtain ⟨registered, closed, flushed, dataFiles, deleteFiles, opening, closes, flushes, same⟩ :=
      stageDataMutation_besideFiles staged
    obtain ⟨materialized, ended, fromLatest⟩ := stageCloseMaterialized_deletions closes
    refine ⟨materialized, input.inlineFileDeletions.map fun row => { row with validity := ⟨kv.generatedOrderId, none⟩ },
      ?_, fromLatest, ?_⟩
    · rw [inlineFileDeletion_besideFiles same, stageNewInlineFileDeletions_writes,
        foldlM_stageFlush_deletions flushes, ended, inlineFileDeletion_besideFiles opening,
        ← Staged.putAll_append, ← Staged.putAll_append, ← List.append_assoc, ← List.map_append]
      rfl
    · intro row member
      obtain ⟨_, _, rfl⟩ := List.mem_map.mp member
      rfl
  | mergeAdjacent _ staged =>
    exact ⟨[], [], .untouched rfl (inlineFileDeletion_besideFiles (stageMergeAdjacent_besideFiles staged))⟩
  | rewriteDelete _ staged =>
    exact ⟨[], [], .untouched rfl (inlineFileDeletion_besideFiles (stageRewriteDelete_besideFiles staged))⟩
  | registerDeleteFiles staged =>
    exact ⟨[], [], .untouched rfl (inlineFileDeletion_besideFiles (stageRegisterDeleteFiles_changes staged).besideFiles)⟩
  | @inlineFileDeletions _ _ result _ staged =>
    obtain ⟨begun, rfl⟩ := stageInlineFileDeletions_ok staged
    refine ⟨[], result, ?_, by simp, ?_⟩
    · refine (stageNewInlineFileDeletions_writes _ _ _).trans ?_
      rw [begun]
      simp [CatalogOperation.inlineFlushes, stageSnapshot]
    · intro row member
      rw [← begun] at member
      obtain ⟨_, _, rfl⟩ := List.mem_map.mp member
      rfl
  | registerInlinePayload _ staged =>
    obtain ⟨_, _, _, _, _, _, _, _, _, same⟩ := stageInlineTablePayload_changes staged
    exact ⟨[], [], .untouched rfl (by rw [same]; rfl)⟩
  | registerInlinePayloadWithTable _ staged =>
    obtain ⟨_, _, _, _, _, _, _, _, _, same⟩ := stageInlineTablePayloadWithTable_changes staged
    exact ⟨[], [], .untouched rfl (by rw [same]; rfl)⟩

end

/-! ## Stored deletions -/

/-- Deletions stand under their own keys, and the latest snapshot is no older than any of their orders. -/
structure InlineDeletionsSound (kv : CatalogKv) : Prop where
  filed : ∀ key row, kv.inlineFileDeletion.get? key = some row → inlineFileDeletionKey row = key
  latest : ∃ snapshot, latestSnapshot kv = some snapshot ∧ snapshot.order ≤ kv.nextOrder ∧
    ∀ key row, kv.inlineFileDeletion.get? key = some row → row.validity.beginOrder ≤ snapshot.order ∧
      ∀ endOrder, row.validity.endOrder = some endOrder → endOrder ≤ snapshot.order

def StoredDeletion (kv : CatalogKv) (row : InlineFileDeletionRow) : Prop :=
  kv.inlineFileDeletion.get? (inlineFileDeletionKey row) = some row

theorem mem_listInlineFileDeletionRowsForTableAt {kv : CatalogKv}
    (filed : ∀ key row, kv.inlineFileDeletion.get? key = some row → inlineFileDeletionKey row = key)
    :
    row ∈ listInlineFileDeletionRowsForTableAt kv tableId snapshotOrder ↔
      StoredDeletion kv row ∧ row.tableId = tableId ∧ row.validity.isVisibleAt snapshotOrder = true := by
  -- The begin order a stored row is decoded with is the one it already has.
  have decoded (entry : InlineFileDeletionKey × InlineFileDeletionRow)
      (found : kv.inlineFileDeletion.get? entry.1 = some entry.2) : decodeInlineFileDeletion entry = entry.2 := by
    unfold decodeInlineFileDeletion
    rw [← filed entry.1 entry.2 found]
    rfl
  have scanned : row ∈ listAllInlineFileDeletionRowsForTable kv tableId ↔
      StoredDeletion kv row ∧ row.tableId = tableId := by
    rw [listAllInlineFileDeletionRowsForTable, List.mem_insertionSort, inlineFileDeletionRows, List.mem_map]
    constructor
    · rintro ⟨entry, scanned, rfl⟩
      obtain ⟨found, inTable⟩ := OrderedMap.mem_scan.mp scanned
      have key := filed entry.1 entry.2 found
      rw [← key] at inTable
      rw [decoded entry found, StoredDeletion, key]
      exact ⟨found, of_decide_eq_true inTable⟩
    · rintro ⟨found, rfl⟩
      exact ⟨(inlineFileDeletionKey row, row), OrderedMap.mem_scan.mpr ⟨found, by simp [inlineFileDeletionKey]⟩,
        decoded _ found⟩
  rw [listInlineFileDeletionRowsForTableAt, List.mem_filter, scanned, and_assoc]

/-- The listing depends only on which rows of which files are deleted. -/
theorem listInlineFileDeletionsAt_congr {before after : CatalogKv} (same : ∀ dataFileId rowId,
      (∃ row ∈ listInlineFileDeletionRowsForTableAt after tableId snapshotOrder,
          row.dataFileId = dataFileId ∧ row.rowId = rowId) ↔
        ∃ row ∈ listInlineFileDeletionRowsForTableAt before tableId snapshotOrder,
          row.dataFileId = dataFileId ∧ row.rowId = rowId) :
    listInlineFileDeletionsAt after tableId snapshotOrder = listInlineFileDeletionsAt before tableId snapshotOrder := by
  unfold listInlineFileDeletionsAt
  dsimp only
  have files : ((listInlineFileDeletionRowsForTableAt after tableId snapshotOrder).map
      InlineFileDeletionRow.dataFileId).dedup.insertionSort (· ≤ ·) =
      ((listInlineFileDeletionRowsForTableAt before tableId snapshotOrder).map
        InlineFileDeletionRow.dataFileId).dedup.insertionSort (· ≤ ·) := by
    refine orderedSet_congr ?_
    intro dataFileId
    simp only [List.mem_map]
    constructor
    · rintro ⟨row, listed, rfl⟩
      obtain ⟨other, listedBefore, sameFile, _⟩ := (same row.dataFileId row.rowId).mp ⟨row, listed, rfl, rfl⟩
      exact ⟨other, listedBefore, sameFile⟩
    · rintro ⟨row, listed, rfl⟩
      obtain ⟨other, listedAfter, sameFile, _⟩ := (same row.dataFileId row.rowId).mpr ⟨row, listed, rfl, rfl⟩
      exact ⟨other, listedAfter, sameFile⟩
  rw [files]
  refine List.map_congr_left ?_
  intro dataFileId _
  refine Prod.ext rfl (orderedSet_congr ?_)
  intro rowId
  simpa [and_assoc] using same dataFileId rowId

/-! ## One commit -/

section

variable {kv : CatalogKv} {operation : CatalogOperation} {batch : KvBatch}

theorem mem_flushedDeletions :
    row ∈ flushedDeletions kv flush ↔ ∃ snapshot, snapshotByRawSequence kv flush.flushSnapshotSequence = some snapshot ∧
      row ∈ listInlineFileDeletionRowsForTableAt kv flush.tableId snapshot.order := by
  unfold flushedDeletions inlineFileDeletionRowsForFlush
  cases snapshotByRawSequence kv flush.flushSnapshotSequence with
  | none
  | some snapshot => simp [Except.toOption]

/-- Every row a commit ends is a stored one. -/
theorem StagesDeletions.endedStored {materialized begun : List InlineFileDeletionRow}
    (stages : StagesDeletions kv operation batch materialized begun)
    (filed : ∀ key row, kv.inlineFileDeletion.get? key = some row → inlineFileDeletionKey row = key) :
    ∀ row ∈ materialized ++ operation.inlineFlushes.flatMap (flushedDeletions kv), StoredDeletion kv row := by
  intro row member
  rcases List.mem_append.mp member with taken | flushed
  · obtain ⟨snapshot, tableId, _, listed⟩ := stages.latest row taken
    exact ((mem_listInlineFileDeletionRowsForTableAt filed).mp listed).1
  · obtain ⟨flush, _, listed⟩ := List.mem_flatMap.mp flushed
    obtain ⟨snapshot, _, listed⟩ := mem_flushedDeletions.mp listed
    exact ((mem_listInlineFileDeletionRowsForTableAt filed).mp listed).1

/-- A row a commit ends for a delete file was still open. -/
theorem StagesDeletions.ended {materialized begun : List InlineFileDeletionRow}
    (stages : StagesDeletions kv operation batch materialized begun) (sound : InlineDeletionsSound kv) :
    (∀ row ∈ materialized ++ operation.inlineFlushes.flatMap (flushedDeletions kv), StoredDeletion kv row) ∧
      ∀ row ∈ materialized, row.validity.endOrder = none := by
  refine ⟨stages.endedStored sound.filed, ?_⟩
  intro row member
  obtain ⟨snapshot, tableId, isLatest, listed⟩ := stages.latest row member
  obtain ⟨stored, _, visible⟩ := (mem_listInlineFileDeletionRowsForTableAt sound.filed).mp listed
  obtain ⟨newest, isNewest, _, bounded⟩ := sound.latest
  rw [isLatest, Option.some.injEq] at isNewest
  subst isNewest
  cases ends : row.validity.endOrder with
  | none => rfl
  | some endOrder =>
    have later := (ValidityWindow.isVisibleAt_iff.mp visible).2 endOrder ends
    exact absurd ((bounded _ row stored).2 endOrder ends) (not_le.mpr later)

/-- After a commit a deletion key holds a row the commit ended, a row it began, or what it held before. -/
theorem StagesDeletions.get?_cases {materialized begun : List InlineFileDeletionRow}
    (stages : StagesDeletions kv operation batch materialized begun) (key : InlineFileDeletionKey) :
    (∃ row ∈ materialized ++ operation.inlineFlushes.flatMap (flushedDeletions kv), inlineFileDeletionKey row = key ∧
        (kv.withGeneratedOrder.commit batch).inlineFileDeletion.get? key =
          some (row.withEndOrder (some kv.generatedOrderId))) ∨
      (∃ row, row.validity = ⟨kv.generatedOrderId, none⟩ ∧ inlineFileDeletionKey row = key ∧
        (kv.withGeneratedOrder.commit batch).inlineFileDeletion.get? key = some row) ∨
      (∀ row ∈ materialized ++ operation.inlineFlushes.flatMap (flushedDeletions kv), inlineFileDeletionKey row ≠ key) ∧
        (kv.withGeneratedOrder.commit batch).inlineFileDeletion.get? key = kv.inlineFileDeletion.get? key := by
  have committed : (kv.withGeneratedOrder.commit batch).inlineFileDeletion =
      kv.inlineFileDeletion.commit batch.inlineFileDeletion := rfl
  rw [committed, stages.written]
  rcases OrderedMap.get?_commit_putAll_cases kv.inlineFileDeletion
    ((materialized ++ operation.inlineFlushes.flatMap (flushedDeletions kv)).map (endedDeletion kv.generatedOrderId) ++
      begun.map fun row => (inlineFileDeletionKey row, row)) key with ⟨value, member, found⟩ | ⟨unwritten, found⟩
  · rw [found]
    rcases List.mem_append.mp member with ended | new
    · obtain ⟨row, listed, same⟩ := List.mem_map.mp ended
      simp only [endedDeletion, Prod.mk.injEq] at same
      exact Or.inl ⟨row, listed, same.1, by rw [same.2]⟩
    · obtain ⟨row, listed, same⟩ := List.mem_map.mp new
      simp only [Prod.mk.injEq] at same
      exact Or.inr (Or.inl ⟨row, stages.new row listed, same.1, by rw [same.2]⟩)
  · refine Or.inr (Or.inr ⟨?_, found⟩)
    rintro row listed rfl
    exact unwritten (row.withEndOrder (some kv.generatedOrderId))
      (List.mem_append_left _ (List.mem_map.mpr ⟨row, listed, rfl⟩))

theorem CatalogOperation.Commits.latestSnapshot (commits : operation.Commits kv batch) :
    ∃ snapshot, DucklakeCatalog.latestSnapshot (kv.withGeneratedOrder.commit batch) = some snapshot ∧
      snapshot.order = kv.generatedOrderId := by
  obtain ⟨snapshot, order, rows⟩ := commits.snapshotRows
  refine ⟨snapshot, ?_, order⟩
  have staged : batch.latestSnapshotRow = ({} : Staged Unit SnapshotRow).put () snapshot := congrArg Prod.fst rows
  have committed : (kv.withGeneratedOrder.commit batch).latestSnapshotRow =
      kv.latestSnapshotRow.commit batch.latestSnapshotRow := rfl
  rw [DucklakeCatalog.latestSnapshot, committed, staged, OrderedMap.commit_put, OrderedMap.get?_insert_self]

theorem InlineDeletionsSound.generated (sound : InlineDeletionsSound kv) :
    InlineDeletionsSound kv.withGeneratedOrder := by
  obtain ⟨snapshot, isLatest, past, bounded⟩ := sound.latest
  exact ⟨sound.filed, snapshot, isLatest, Nat.le_succ_of_le past, bounded⟩

theorem InlineDeletionsSound.commit (sound : InlineDeletionsSound kv) (commits : operation.Commits kv batch) :
    InlineDeletionsSound (kv.withGeneratedOrder.commit batch) := by
  obtain ⟨materialized, begun, stages⟩ := commits.deletions
  obtain ⟨snapshot, isLatest, order⟩ := commits.latestSnapshot
  obtain ⟨newest, _, past, bounded⟩ := sound.latest
  have stored := (stages.ended sound).1
  have older : newest.order ≤ kv.generatedOrderId := Nat.le_succ_of_le past
  constructor
  · intro key row found
    rcases stages.get?_cases key with ⟨ended, _, rfl, now⟩ | ⟨new, _, rfl, now⟩ | ⟨_, now⟩
    · rw [now, Option.some.injEq] at found
      rw [← found]
      rfl
    · rw [now, Option.some.injEq] at found
      rw [found]
    · exact sound.filed key row (now ▸ found)
  · refine ⟨snapshot, isLatest, order.le, ?_⟩
    rw [order]
    intro key row found
    rcases stages.get?_cases key with ⟨ended, listed, rfl, now⟩ | ⟨new, window, rfl, now⟩ | ⟨_, now⟩
    · rw [now, Option.some.injEq] at found
      subst found
      refine ⟨((bounded _ ended (stored ended listed)).1).trans older, ?_⟩
      intro endOrder ends
      rw [← Option.some.inj ends]
    · rw [now, Option.some.injEq] at found
      subst found
      simp [window]
    · obtain ⟨begins, ends⟩ := bounded key row (now ▸ found)
      exact ⟨begins.trans older, fun endOrder ended => (ends endOrder ended).trans older⟩

theorem CatalogOperation.Maintains.inlineDeletions (maintains : operation.Maintains kv batch) :
    (kv.commit batch).inlineFileDeletion = kv.inlineFileDeletion ∧
      latestSnapshot (kv.commit batch) = latestSnapshot kv := by
  have same := maintains.inlineMaps
  have deletions : (kv.commit batch).inlineFileDeletion = kv.inlineFileDeletion.commit batch.inlineFileDeletion := rfl
  have latest : (kv.commit batch).latestSnapshotRow = kv.latestSnapshotRow.commit batch.latestSnapshotRow := rfl
  have staged : batch.latestSnapshotRow = {} := congrArg Prod.fst (snapshotRows_congr same)
  unfold latestSnapshot
  rw [deletions, latest, inlineFileDeletion_congr same, staged]
  exact ⟨rfl, rfl⟩

theorem InlineDeletionsSound.maintain (sound : InlineDeletionsSound kv) (maintains : operation.Maintains kv batch) :
    InlineDeletionsSound (kv.commit batch) := by
  obtain ⟨deletions, latest⟩ := maintains.inlineDeletions
  constructor
  · rw [deletions]
    exact sound.filed
  · rw [deletions, latest]
    exact sound.latest

end

theorem CatalogHistory.Reachable.inlineDeletionsSound {Allowed : CatalogHistory → CatalogOperation → Prop}
    (reachable : CatalogHistory.Reachable Allowed history) : InlineDeletionsSound history.kv := by
  refine reachable.invariant (fun history => InlineDeletionsSound history.kv) ?_ ?_ ?_ ?_
  · intro lastOrder now
    have empty : (CatalogHistory.start lastOrder now).kv.inlineFileDeletion = .empty := rfl
    constructor
    · simp [empty]
    · exact ⟨SnapshotRow.new (lastOrder + 1) 0 now, rfl, le_rfl, by simp [empty]⟩
  · exact fun history sound => sound.generated
  · exact fun history operation batch sound _ commits => sound.commit commits
  · exact fun history operation batch sound _ maintains => sound.maintain maintains

/-! ## Closed deletions -/

/-- Every closed deletion keeps its end order. -/
def ClosedDeletionsKept (before after : CatalogKv) : Prop :=
  ∀ key row endOrder, before.inlineFileDeletion.get? key = some row → row.validity.endOrder = some endOrder →
    ∃ kept, after.inlineFileDeletion.get? key = some kept ∧ kept.validity.endOrder = some endOrder

/-- Snapshots older than the next commit list the same deleted rows. -/
def DeletionListingsKept (before after : CatalogKv) : Prop :=
  ∀ tableId snapshotOrder, snapshotOrder < before.generatedOrderId →
    listInlineFileDeletionsAt after tableId snapshotOrder = listInlineFileDeletionsAt before tableId snapshotOrder

/-- No flush names a snapshot at which a deletion of its table is visible that is closed by now. -/
def FlushesSeeOpenDeletions (kv : CatalogKv) (operation : CatalogOperation) : Prop :=
  ∀ flush ∈ operation.inlineFlushes, ∀ snapshot ∈ snapshotByRawSequence kv flush.flushSnapshotSequence,
    ∀ entry ∈ kv.inlineFileDeletion.entries, entry.2.tableId = flush.tableId →
      entry.2.validity.isVisibleAt snapshot.order = true → entry.2.validity.endOrder = none

instance : Decidable (FlushesSeeOpenDeletions kv operation) := inferInstanceAs (Decidable (∀ _ ∈ _, _))

section

variable {kv : CatalogKv} {operation : CatalogOperation} {batch : KvBatch}
variable {materialized begun : List InlineFileDeletionRow}

theorem flushesSeeOpenDeletions_iff (sound : InlineDeletionsSound kv) : FlushesSeeOpenDeletions kv operation ↔
    ∀ row ∈ operation.inlineFlushes.flatMap (flushedDeletions kv), row.validity.endOrder = none := by
  constructor
  · intro allOpen row member
    obtain ⟨flush, carried, listed⟩ := List.mem_flatMap.mp member
    obtain ⟨snapshot, named, listed⟩ := mem_flushedDeletions.mp listed
    obtain ⟨stored, inTable, visible⟩ := (mem_listInlineFileDeletionRowsForTableAt sound.filed).mp listed
    exact allOpen flush carried snapshot named (inlineFileDeletionKey row, row)
      ((OrderedMap.get?_eq_some_iff _).mp stored) inTable visible
  · intro allOpen flush carried snapshot named entry member inTable visible
    have found := (OrderedMap.get?_eq_some_iff _).mpr member
    have stored : StoredDeletion kv entry.2 := by
      rw [StoredDeletion, sound.filed entry.1 entry.2 found]
      exact found
    refine allOpen entry.2 (List.mem_flatMap.mpr ⟨flush, carried, mem_flushedDeletions.mpr ⟨snapshot, named, ?_⟩⟩)
    exact (mem_listInlineFileDeletionRowsForTableAt sound.filed).mpr ⟨stored, inTable, visible⟩

/-- A deletion stored before the commit is not one the commit begins. -/
theorem InlineDeletionsSound.not_begun (sound : InlineDeletionsSound kv) {new : InlineFileDeletionRow}
    (stored : StoredDeletion kv row) (window : new.validity = ⟨kv.generatedOrderId, none⟩) :
    inlineFileDeletionKey new ≠ inlineFileDeletionKey row := by
  intro same
  obtain ⟨newest, _, past, bounded⟩ := sound.latest
  have begins : new.validity.beginOrder = row.validity.beginOrder := congrArg InlineFileDeletionKey.beginOrder same
  rw [window] at begins
  have early := (bounded _ row stored).1
  rw [← begins] at early
  exact absurd (early.trans past) (Nat.not_succ_le_self kv.nextOrder)

section

variable (stages : StagesDeletions kv operation batch materialized begun)

include stages

theorem StagesDeletions.get?_stored
    (sound : InlineDeletionsSound kv) (stored : StoredDeletion kv row) :
    (row ∈ materialized ++ operation.inlineFlushes.flatMap (flushedDeletions kv) ∧
        (kv.withGeneratedOrder.commit batch).inlineFileDeletion.get? (inlineFileDeletionKey row) =
          some (row.withEndOrder (some kv.generatedOrderId))) ∨
      row ∉ materialized ++ operation.inlineFlushes.flatMap (flushedDeletions kv) ∧
        StoredDeletion (kv.withGeneratedOrder.commit batch) row := by
  rcases stages.get?_cases (inlineFileDeletionKey row) with
    ⟨ended, listed, same, now⟩ | ⟨new, window, same, _⟩ | ⟨others, now⟩
  · have found := (stages.ended sound).1 ended listed
    rw [StoredDeletion, same, stored, Option.some.injEq] at found
    rw [← found] at listed now
    exact Or.inl ⟨listed, now⟩
  · exact absurd same (sound.not_begun stored window)
  · exact Or.inr ⟨fun listed => others row listed rfl, now.trans stored⟩

/-- A commit that only ends open rows changes no older listing. -/
theorem StagesDeletions.listingsKept
    (sound : InlineDeletionsSound kv) (after : InlineDeletionsSound (kv.withGeneratedOrder.commit batch))
    (allOpen : ∀ row ∈ materialized ++ operation.inlineFlushes.flatMap (flushedDeletions kv),
      row.validity.endOrder = none) : DeletionListingsKept kv (kv.withGeneratedOrder.commit batch) := by
  intro tableId snapshotOrder older
  refine listInlineFileDeletionsAt_congr ?_
  intro dataFileId rowId
  simp only [mem_listInlineFileDeletionRowsForTableAt sound.filed, mem_listInlineFileDeletionRowsForTableAt after.filed]
  constructor
  · rintro ⟨row, ⟨stored, inTable, visible⟩, sameFile, sameRow⟩
    obtain ⟨begins, _⟩ := ValidityWindow.isVisibleAt_iff.mp visible
    rcases stages.get?_cases (inlineFileDeletionKey row) with
      ⟨ended, listed, _, now⟩ | ⟨new, window, _, now⟩ | ⟨_, now⟩
    · rw [stored, Option.some.injEq] at now
      subst now
      have visibleBefore : ended.validity.isVisibleAt snapshotOrder = true :=
        ValidityWindow.isVisibleAt_iff.mpr ⟨begins, by simp [allOpen ended listed]⟩
      exact ⟨ended, ⟨(stages.ended sound).1 ended listed, inTable, visibleBefore⟩, sameFile, sameRow⟩
    · rw [stored, Option.some.injEq] at now
      rw [now, window] at begins
      exact absurd begins (not_le.mpr older)
    · exact ⟨row, ⟨now.symm.trans stored, inTable, visible⟩, sameFile, sameRow⟩
  · rintro ⟨row, ⟨stored, inTable, visible⟩, sameFile, sameRow⟩
    rcases stages.get?_stored sound stored with ⟨_, now⟩ | ⟨_, now⟩
    · refine ⟨row.withEndOrder (some kv.generatedOrderId), ⟨now, inTable, ?_⟩, sameFile, sameRow⟩
      refine ValidityWindow.isVisibleAt_iff.mpr ⟨(ValidityWindow.isVisibleAt_iff.mp visible).1, ?_⟩
      intro endOrder ends
      rwa [← Option.some.inj ends]
    · exact ⟨row, ⟨now, inTable, visible⟩, sameFile, sameRow⟩

theorem StagesDeletions.closedKept_iff
    (sound : InlineDeletionsSound kv) : ClosedDeletionsKept kv (kv.withGeneratedOrder.commit batch) ↔
      ∀ row ∈ materialized ++ operation.inlineFlushes.flatMap (flushedDeletions kv),
        row.validity.endOrder = none := by
  constructor
  · intro kept row listed
    have stored := (stages.ended sound).1 row listed
    cases ends : row.validity.endOrder with
    | none => rfl
    | some endOrder =>
      obtain ⟨newest, _, past, bounded⟩ := sound.latest
      obtain ⟨found, stays, same⟩ := kept _ row endOrder stored ends
      rcases stages.get?_stored sound stored with ⟨_, now⟩ | ⟨missed, _⟩
      · rw [stays, Option.some.injEq] at now
        have moved : endOrder = kv.generatedOrderId := by
          rw [now] at same
          exact (Option.some.inj same).symm
        have early := ((bounded _ row stored).2 endOrder ends).trans past
        rw [moved] at early
        exact absurd early (Nat.not_succ_le_self kv.nextOrder)
      · exact absurd listed missed
  · intro allOpen key row endOrder found ends
    have stored : StoredDeletion kv row := by
      rw [StoredDeletion, sound.filed key row found]
      exact found
    rcases stages.get?_stored sound stored with ⟨listed, _⟩ | ⟨_, now⟩
    · simp [allOpen row listed] at ends
    · rw [StoredDeletion, sound.filed key row found] at now
      exact ⟨row, now, ends⟩

end

end

/-- A commit leaves closed deletions and older listings alone exactly when its flushes see open deletions only. -/
theorem inlineDeletions_writeOnce_iff {Allowed : CatalogHistory → CatalogOperation → Prop}
    (reachable : CatalogHistory.Reachable Allowed history) (operation : CatalogOperation) :
    (ClosedDeletionsKept history.kv (history.after operation).kv ∧
        DeletionListingsKept history.kv (history.after operation).kv) ↔
      ((operation.apply history.kv).1 = .ok () → FlushesSeeOpenDeletions history.kv operation) := by
  have sound := reachable.inlineDeletionsSound
  have unchanged {after : CatalogKv} (same : after.inlineFileDeletion = history.kv.inlineFileDeletion) :
      ClosedDeletionsKept history.kv after ∧ DeletionListingsKept history.kv after := by
    constructor
    · intro key row endOrder found ends
      exact ⟨row, same ▸ found, ends⟩
    · intro tableId snapshotOrder _
      unfold listInlineFileDeletionsAt listInlineFileDeletionRowsForTableAt listAllInlineFileDeletionRowsForTable
        inlineFileDeletionRows
      rw [same]
  have noFlush (none : operation.inlineFlushes = []) : FlushesSeeOpenDeletions history.kv operation := by
    simp [FlushesSeeOpenDeletions, none]
  have outcome := operation.apply_outcome history.kv
  unfold CatalogHistory.after
  generalize operation.apply history.kv = result at outcome ⊢
  cases outcome with
  | rejected failure => exact iff_of_true (unchanged rfl) (by simp)
  | rejectedWithOrder failure => exact iff_of_true (unchanged rfl) (by simp)
  | nothingToDo _ _ noFlushes _ => exact iff_of_true (unchanged rfl) fun _ => noFlush noFlushes
  | committed commits =>
    obtain ⟨materialized, begun, stages⟩ := commits.deletions
    have materializedOpen := (stages.ended sound).2
    have flushedOpen : FlushesSeeOpenDeletions history.kv operation ↔
        ∀ row ∈ materialized ++ operation.inlineFlushes.flatMap (flushedDeletions history.kv),
          row.validity.endOrder = none := by
      rw [flushesSeeOpenDeletions_iff sound, List.forall_mem_append]
      exact ⟨fun flushed => ⟨materializedOpen, flushed⟩, fun both => both.2⟩
    simp only [forall_const]
    rw [flushedOpen, stages.closedKept_iff sound]
    constructor
    · exact fun kept => kept.1
    · exact fun allOpen => ⟨allOpen, stages.listingsKept sound (sound.commit commits) allOpen⟩
  | maintained maintains =>
    refine iff_of_true (unchanged maintains.inlineDeletions.1) fun _ => noFlush ?_
    cases maintains with
    | expireSnapshots => rfl
    | removeOldDataFiles => rfl
    | removeOldDeleteFiles => rfl

/-- A row deleted inline at order 3 and flushed at order 4. -/
def deletionFlushed : List CatalogOperation :=
  let dataFile : DataFileRow :=
    { dataFileId := 1, tableId := 1, path := "", recordCount := 10, fileSizeBytes := 1, validity := ⟨autoOrder, none⟩ }
  [.appendDataFiles 0 [dataFile] [],
    .inlineFileDeletions 0 [{ tableId := 1, dataFileId := 1, rowId := 7, validity := ⟨autoOrder, none⟩ }],
    .dataMutation 0 { inlineFlushes := [.fileDeletionsOnly 1 2] }]

/-- The same flush again moves the end of the deletion from order 4 to order 5. -/
theorem inlineDeletions_closedTwice :
    CatalogHistory.Reachable (fun _ _ => True) ((CatalogHistory.start 0 0).run deletionFlushed) ∧
      ¬ClosedDeletionsKept ((CatalogHistory.start 0 0).run deletionFlushed).kv
        (((CatalogHistory.start 0 0).run deletionFlushed).after
          (.dataMutation 0 { inlineFlushes := [.fileDeletionsOnly 1 2] })).kv ∧
      ¬DeletionListingsKept ((CatalogHistory.start 0 0).run deletionFlushed).kv
        (((CatalogHistory.start 0 0).run deletionFlushed).after
          (.dataMutation 0 { inlineFlushes := [.fileDeletionsOnly 1 2] })).kv := by
  refine ⟨.run (.start 0 0) (by decide), ?_, ?_⟩
  · intro kept
    obtain ⟨row, found, ends⟩ := kept ⟨1, 1, 3, 7⟩ ⟨1, 1, 7, ⟨3, some 4⟩⟩ 4 (by decide +kernel) rfl
    have moved : (((CatalogHistory.start 0 0).run deletionFlushed).after
        (.dataMutation 0 { inlineFlushes := [.fileDeletionsOnly 1 2] })).kv.inlineFileDeletion.get? ⟨1, 1, 3, 7⟩ =
        some ⟨1, 1, 7, ⟨3, some 5⟩⟩ := by decide +kernel
    rw [found, Option.some.injEq] at moved
    simp [moved] at ends
  · intro kept
    exact absurd (kept 1 4 (by decide +kernel)) (by decide +kernel)

/-- A flush at the snapshot that closed the deletion sees nothing and keeps it closed. -/
theorem inlineDeletions_writeOnce_laterFlush :
    ((CatalogOperation.dataMutation 0 { inlineFlushes := [.fileDeletionsOnly 1 3] }).apply
        ((CatalogHistory.start 0 0).run deletionFlushed).kv).1.isOk = true ∧
      ClosedDeletionsKept ((CatalogHistory.start 0 0).run deletionFlushed).kv
        (((CatalogHistory.start 0 0).run deletionFlushed).after
          (.dataMutation 0 { inlineFlushes := [.fileDeletionsOnly 1 3] })).kv := by
  have reachable : CatalogHistory.Reachable (fun _ _ => True) ((CatalogHistory.start 0 0).run deletionFlushed) :=
    .run (.start 0 0) (by decide)
  exact ⟨by decide +kernel, ((inlineDeletions_writeOnce_iff reachable _).mpr fun _ => by decide +kernel).1⟩

end DucklakeCatalog
