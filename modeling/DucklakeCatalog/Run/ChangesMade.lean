import DucklakeCatalog.Run.ChangeIndexes
import DucklakeCatalog.Run.SnapshotIndexes

namespace DucklakeCatalog

open KeyedStore

/-! ## Changes of one order -/

/-- An inline file deletion begins at the order. -/
def CatalogKv.BeginsDeletion (kv : CatalogKv) (order : CatalogOrderId) (key : InlineFileDeletionKey) : Prop :=
  key.beginOrder = order ∧ (kv.inlineFileDeletion.get? key).isSome

/-- Both stores tell the same about the order. -/
structure SameChangesAt (order : CatalogOrderId) (kv next : CatalogKv) : Prop where
  filed : ∀ key : ChangeKey, key.order = order → (next.HasChange key ↔ kv.HasChange key)
  begun : ∀ key, next.BeginsDeletion order key ↔ kv.BeginsDeletion order key

theorem SameChangesAt.refl (order : CatalogOrderId) (kv : CatalogKv) : SameChangesAt order kv kv :=
  ⟨fun _ _ => Iff.rfl, fun _ => Iff.rfl⟩

theorem SameChangesAt.trans {order : CatalogOrderId} {first second third : CatalogKv}
    (left : SameChangesAt order first second) (right : SameChangesAt order second third) :
    SameChangesAt order first third where
  filed key named := (right.filed key named).trans (left.filed key named)
  begun key := (right.begun key).trans (left.begun key)

/-- What is filed about changes stands under its own keys, and no order has been drawn before its turn. -/
structure ChangesSound (kv : CatalogKv) : Prop where
  drawn : ∀ key : ChangeKey, kv.HasChange key → key.order ≤ kv.nextOrder
  filed : ∀ key row, kv.inlineFileDeletion.get? key = some row → inlineFileDeletionKey row = key
  begun : ∀ key, (kv.inlineFileDeletion.get? key).isSome → key.beginOrder ≤ kv.nextOrder

/-! ## One step -/

section

variable {kv next : CatalogKv} {step : CatalogStep} {operation : CatalogOperation} {batch : KvBatch}

theorem AddsFile.order {order : CatalogOrderId} {rows : List DataFileRow} {key : ChangeKey}
    (adds : AddsFile order rows key) : key.order = order := by
  obtain ⟨row, _, rfl⟩ := adds
  rfl

theorem CatalogOperation.FilesChange.order {key : ChangeKey} (files : operation.FilesChange kv key) :
    key.order = kv.generatedOrderId := by
  rcases files with adds | ⟨_, _, _, _, rfl⟩ | ⟨_, _, _, _, rfl⟩ | ⟨_, _, _, rfl⟩ | ⟨_, _, rfl⟩
  · exact adds.order
  · rfl
  · rfl
  · rfl
  · rfl

/-- The step takes no delete file away that begins at the order. -/
def CatalogStep.KeepsDeleteFilesOf (kv : CatalogKv) (order : CatalogOrderId) (step : CatalogStep) : Prop :=
  ∀ deleteFileIds, step = .call (.removeOldDeleteFiles deleteFileIds) → ∀ rows, listOldDeleteFilesForCleanup kv = .ok rows →
    ∀ row ∈ rows, row.deleteFile.deleteFileId ∈ deleteFileIds → row.deleteFile.validity.beginOrder ≠ order

/-- What a step that draws no order does: it adds nothing, and takes away at most entries of removed delete files. -/
structure LeavesChanges (kv next : CatalogKv) (step : CatalogStep) : Prop where
  filed : ∀ key, next.HasChange key → kv.HasChange key
  kept : ∀ key : ChangeKey, step.KeepsDeleteFilesOf kv key.order → kv.HasChange key → next.HasChange key
  deletions : next.inlineFileDeletion = kv.inlineFileDeletion
  order : kv.nextOrder ≤ next.nextOrder

theorem LeavesChanges.untouched (step : CatalogStep) (same : batch.changeMaps = ({} : KvBatch).changeMaps)
    (noDeletions : batch.inlineFileDeletion = {}) : LeavesChanges kv (kv.commit batch) step where
  filed _ has := (hasChange_untouched same).mp has
  kept _ _ has := (hasChange_untouched same).mpr has
  deletions := by
    have committed : (kv.commit batch).inlineFileDeletion = kv.inlineFileDeletion.commit batch.inlineFileDeletion := rfl
    rw [committed, noDeletions]
    rfl
  order := le_rfl

theorem CatalogOperation.Maintains.leavesChanges (maintains : operation.Maintains kv batch) :
    LeavesChanges kv (kv.commit batch) (.call operation) := by
  have noDeletions := inlineFileDeletion_congr maintains.inlineMaps
  cases maintains with
  | expireSnapshots staged =>
    obtain ⟨_, rfl⟩ := stageExpiredSnapshots_changes staged
    exact .untouched _ rfl rfl
  | removeOldDataFiles staged =>
    refine .untouched _ ?_ noDeletions
    obtain ⟨_, ⟨_, _, _, _, _, _, _, _, _, _, _, rfl⟩, _, _, _, rfl⟩ := stageRemoveOldDataFiles_changes staged
    rfl
  | @removeOldDeleteFiles deleteFileIds _ _ staged =>
    obtain ⟨rows, listed, snapshots, _, rfl, rfl⟩ := stageRemoveOldDeleteFiles_ok staged
    have taken : ∀ gone ∈ rows.filter fun row => decide (row.deleteFile.deleteFileId ∈ deleteFileIds) &&
        deleteFileCleanupIsAllowed kv row.deleteFile snapshots, gone ∈ rows ∧ gone.deleteFile.deleteFileId ∈ deleteFileIds := by
      intro gone member
      obtain ⟨inRows, named⟩ := List.mem_filter.mp member
      rw [Bool.and_eq_true] at named
      exact ⟨inRows, of_decide_eq_true named.1⟩
    generalize rows.filter _ = removed at taken noDeletions ⊢
    have changed := (stageRemoveUnreachableTables_changes kv (removed.foldl (stageRemoveOldDeleteFile kv) {})
      (removed.map DeleteFileCleanupRow.tableId) snapshots).changeMaps
    have others : ((removed.foldl (stageRemoveOldDeleteFile kv) {}).snapshotDataFileChange,
        (removed.foldl (stageRemoveOldDeleteFile kv) {}).snapshotOperation) = ({}, {}) :=
      foldl_view (fun batch : KvBatch => (batch.snapshotDataFileChange, batch.snapshotOperation))
        (fun batch row => by rw [stageRemoveOldDeleteFile_eq]) removed {}
    have removes (key : OrderTableKey) :=
      @DeleteFileIndexes.Removes.orderChange _ _ _ (@foldl_stageRemoveOldDeleteFile_removes kv removed) key
    -- Only entries of delete files can go, and only those of the removed rows.
    have cases (key : ChangeKey) : (kv.commit (stageRemoveUnreachableTables kv
        (removed.foldl (stageRemoveOldDeleteFile kv) {}) (removed.map DeleteFileCleanupRow.tableId) snapshots)).HasChange key ↔
        kv.HasChange key ∧ ∀ gone ∈ removed, .delete gone.orderChangeKey ≠ key := by
      rw [hasChange_congr changed]
      simp only [Prod.mk.injEq] at others
      cases key with
      | file key => simp [CatalogKv.HasChange, CatalogKv.commit, others.1]
      | operation key => simp [CatalogKv.HasChange, CatalogKv.commit, others.2]
      | delete key =>
        simp only [ne_eq, ChangeKey.delete.injEq]
        exact removes key
    refine ⟨fun key has => ((cases key).mp has).1, ?_, ?_, le_rfl⟩
    · intro key keeps has
      refine (cases key).mpr ⟨has, ?_⟩
      rintro gone member rfl
      obtain ⟨inRows, named⟩ := taken gone member
      exact keeps deleteFileIds rfl rows listed gone inRows named rfl
    · exact (congrArg kv.inlineFileDeletion.commit noDeletions).trans rfl

/-- A step commits an operation at the order it draws, or it adds nothing to what is known about changes. -/
theorem CatalogStep.Leaves.changes_cases (leaves : CatalogStep.Leaves kv step next) :
    (∃ operation batch, step = .call operation ∧ operation.Commits kv batch ∧
        next = kv.withGeneratedOrder.commit batch) ∨
      LeavesChanges kv next step := by
  have nothing : LeavesChanges kv kv step := ⟨fun _ has => has, fun _ _ has => has, rfl, le_rfl⟩
  cases leaves with
  | unchanged => exact Or.inr nothing
  | drawn => exact Or.inr ⟨nothing.filed, nothing.kept, rfl, Nat.le_succ _⟩
  | committed commits => exact Or.inl ⟨_, _, rfl, commits, rfl⟩
  | maintained maintains => exact Or.inr maintains.leavesChanges
  | @deletedAtNewSnapshot _ _ _ _ _ _ _ target _ deletes =>
    obtain ⟨_, _, _, same⟩ := stageInlineDeletes_changes deletes.stages
    rw [same]
    exact Or.inr ⟨fun _ has => (hasChange_untouched rfl).mp has, fun _ _ has => (hasChange_untouched rfl).mpr has, rfl,
      Nat.le_succ _⟩
  | deletedAtSnapshot deletes =>
    obtain ⟨_, _, _, same⟩ := stageInlineDeletes_changes deletes.stages
    rw [same]
    exact Or.inr (.untouched _ rfl rfl)
  | removedPayloads staged =>
    unfold stageRemoveOldInlineTablePayloads at staged
    simp only [bind_eq_ok, pure_eq_ok, Prod.mk.injEq] at staged
    obtain ⟨listed, _, _, rfl⟩ := staged
    refine Or.inr (.untouched _ ?_ ?_)
    · rw [foldl_view KvBatch.changeMaps ?_ _ _, foldl_view KvBatch.changeMaps ?_ _ _]
      · intro state id
        rfl
      · intro state key
        unfold stageRemoveCoveredWatermark
        dsimp only
        split
        · rfl
        · rfl
    · rw [foldl_view KvBatch.inlineFileDeletion ?_ _ _, foldl_view KvBatch.inlineFileDeletion ?_ _ _]
      · intro state id
        rfl
      · intro state key
        unfold stageRemoveCoveredWatermark
        dsimp only
        split
        · rfl
        · rfl

/-- After a commit a deletion key is one of its own order, or it was there before. -/
theorem CatalogOperation.Commits.deletionKeys (commits : operation.Commits kv batch)
    (filed : ∀ key row, kv.inlineFileDeletion.get? key = some row → inlineFileDeletionKey row = key)
    (key : InlineFileDeletionKey) :
    (∀ row, (kv.withGeneratedOrder.commit batch).inlineFileDeletion.get? key = some row → inlineFileDeletionKey row = key) ∧
      (key.beginOrder = kv.generatedOrderId ∨
        ((kv.withGeneratedOrder.commit batch).inlineFileDeletion.get? key).isSome = (kv.inlineFileDeletion.get? key).isSome) := by
  obtain ⟨materialized, begun, stages⟩ := commits.deletions
  rcases stages.get?_cases key with ⟨ended, listed, rfl, now⟩ | ⟨new, window, rfl, now⟩ | ⟨_, now⟩
  · have stored : kv.inlineFileDeletion.get? (inlineFileDeletionKey ended) = some ended :=
      stages.endedStored filed ended listed
    rw [now, stored]
    refine ⟨?_, Or.inr rfl⟩
    intro row found
    rw [← Option.some.inj found]
    rfl
  · rw [now]
    refine ⟨?_, Or.inl (by rw [inlineFileDeletionKey, window])⟩
    intro row found
    rw [Option.some.inj found]
  · rw [now]
    exact ⟨filed key, Or.inr rfl⟩

theorem ChangesSound.leaves (sound : ChangesSound kv) (leaves : CatalogStep.Leaves kv step next) : ChangesSound next := by
  rcases leaves.changes_cases with ⟨operation, batch, _, commits, rfl⟩ | changes
  · constructor
    · intro key has
      rcases (commits.stagesChanges key).mp has with old | new
      · exact (sound.drawn key old).trans (Nat.le_succ _)
      · exact new.order.le
    · intro key row stored
      exact (commits.deletionKeys sound.filed key).1 row stored
    · intro key stored
      rcases (commits.deletionKeys sound.filed key).2 with now | old
      · exact now.le
      · exact (sound.begun key (old ▸ stored)).trans (Nat.le_succ _)
  · constructor
    · exact fun key has => (sound.drawn key (changes.filed key has)).trans changes.order
    · rw [changes.deletions]
      exact sound.filed
    · rw [changes.deletions]
      exact fun key stored => (sound.begun key stored).trans changes.order

/-- Later steps leave the changes of an order that is already drawn alone, cleanups of its delete files apart. -/
theorem SameChangesAt.leaves {order : CatalogOrderId} (sound : ChangesSound kv) (leaves : CatalogStep.Leaves kv step next)
    (drawn : order ≤ kv.nextOrder) (keeps : step.KeepsDeleteFilesOf kv order) : SameChangesAt order kv next := by
  rcases leaves.changes_cases with ⟨operation, batch, _, commits, rfl⟩ | changes
  · have other : order ≠ kv.generatedOrderId := (Nat.lt_succ_of_le drawn).ne
    constructor
    · intro key named
      refine (commits.stagesChanges key).trans (or_iff_left ?_)
      intro new
      exact other (named.symm.trans new.order)
    · intro key
      refine and_congr_right fun named => ?_
      rcases (commits.deletionKeys sound.filed key).2 with now | old
      · exact absurd (named.symm.trans now) other
      · rw [old]
  · constructor
    · intro key named
      exact ⟨changes.filed key, changes.kept key (named ▸ keeps)⟩
    · intro key
      rw [CatalogKv.BeginsDeletion, CatalogKv.BeginsDeletion, changes.deletions]

end

theorem CatalogKv.Reachable.changesSound {kv : CatalogKv} (reachable : kv.Reachable) : ChangesSound kv := by
  refine reachable.invariant ChangesSound ?_ fun kv step next sound leaves => sound.leaves leaves
  intro lastOrder now
  have noFiles : (CatalogHistory.start lastOrder now).kv.snapshotDataFileChange = .empty := rfl
  have noDeletes : (CatalogHistory.start lastOrder now).kv.orderDeleteFileChange = .empty := rfl
  have noOperations : (CatalogHistory.start lastOrder now).kv.snapshotOperation = .empty := rfl
  have noDeletions : (CatalogHistory.start lastOrder now).kv.inlineFileDeletion = .empty := rfl
  constructor
  · intro key has
    cases key with
    | file key => simp [CatalogKv.HasChange, noFiles] at has
    | delete key => simp [CatalogKv.HasChange, noDeletes] at has
    | operation key => simp [CatalogKv.HasChange, noOperations] at has
  · simp [noDeletions]
  · simp [noDeletions]

/-- A step that takes none of the delete files of the order away. -/
def StepsKeeping (order : CatalogOrderId) (kv next : CatalogKv) : Prop :=
  ∃ step : CatalogStep, step.KeepsDeleteFilesOf kv order ∧ (step.apply kv).2 = next

theorem sameChangesAt_of_run {order : CatalogOrderId} {kv later : CatalogKv} (reachable : kv.Reachable)
    (drawn : order ≤ kv.nextOrder) (run : Relation.ReflTransGen (StepsKeeping order) kv later) :
    SameChangesAt order kv later ∧ later.Reachable := by
  suffices kept : SameChangesAt order kv later ∧ later.Reachable ∧ order ≤ later.nextOrder from ⟨kept.1, kept.2.1⟩
  induction run with
  | refl => exact ⟨.refl order kv, reachable, drawn⟩
  | @tail store _ _ taken ih =>
    obtain ⟨same, reached, past⟩ := ih
    obtain ⟨step, keeps, rfl⟩ := taken
    have leaves := step.apply_leaves store
    refine ⟨same.trans (.leaves reached.changesSound leaves past keeps), reached.step step, past.trans ?_⟩
    rcases leaves.changes_cases with ⟨_, _, _, _, became⟩ | changes
    · rw [became]
      exact Nat.le_succ _
    · exact changes.order

/-! ## The facts -/

namespace SnapshotChangeFacts

variable {kv next : CatalogKv} {order : CatalogOrderId} {tableId : TableId}

theorem mem_changedTables_load {kind : DataFileChangeKind} :
    tableId ∈ (load kv order).changedTables kind ↔ ∃ dataFileId, kv.HasChange (.file ⟨order, tableId, kind, dataFileId⟩) := by
  simp only [changedTables, load, mem_tableSet, List.mem_map, List.mem_filter, CatalogKv.HasChange]
  constructor
  · rintro ⟨key, ⟨⟨entry, scanned, rfl⟩, isKind⟩, rfl⟩
    obtain ⟨stored, named⟩ := OrderedMap.mem_scan.mp scanned
    refine ⟨entry.1.dataFileId, ?_⟩
    rw [← of_decide_eq_true named, ← of_decide_eq_true isKind]
    exact stored
  · rintro ⟨dataFileId, stored⟩
    exact ⟨_, ⟨⟨(_, ()), OrderedMap.mem_scan.mpr ⟨stored, by simp⟩, rfl⟩, by simp⟩, rfl⟩

theorem mem_deleteMarked_load :
    tableId ∈ (load kv order).deleteMarked ↔ ∃ deleteFileId, kv.HasChange (.delete ⟨order, tableId, deleteFileId⟩) := by
  simp only [load, mem_tableSet, List.mem_map, CatalogKv.HasChange]
  constructor
  · rintro ⟨entry, scanned, rfl⟩
    obtain ⟨stored, named⟩ := OrderedMap.mem_scan.mp scanned
    refine ⟨entry.1.fileId, ?_⟩
    rw [← of_decide_eq_true named]
    exact stored
  · rintro ⟨deleteFileId, stored⟩
    exact ⟨(_, ()), OrderedMap.mem_scan.mpr ⟨stored, by simp⟩, rfl⟩

theorem mem_snapshotOperationTableIdsAt {kind : SnapshotOperationKind} :
    tableId ∈ snapshotOperationTableIdsAt kv order kind ↔ kv.HasChange (.operation ⟨order, kind, tableId⟩) := by
  simp only [snapshotOperationTableIdsAt, mem_tableSet, List.mem_map, CatalogKv.HasChange]
  constructor
  · rintro ⟨entry, scanned, rfl⟩
    obtain ⟨stored, named⟩ := OrderedMap.mem_scan.mp scanned
    simp only [Bool.and_eq_true, decide_eq_true_eq] at named
    rw [← named.1, ← named.2]
    exact stored
  · rintro stored
    exact ⟨(_, ()), OrderedMap.mem_scan.mpr ⟨stored, by simp⟩, rfl⟩

/-- The facts of one order are the same whether read from the indexes or taken out of a listing's context. -/
theorem fromContext_eq_load (filed : ∀ key row, kv.inlineFileDeletion.get? key = some row → inlineFileDeletionKey row = key)
    (windows : CatalogMetadata) :
    fromContext (.load kv windows) (kv.snapshotOperation.entries.map Prod.fst) order = load kv order := by
  have decoded : kv.inlineFileDeletion.entries.map decodeInlineFileDeletion = kv.inlineFileDeletion.entries.map Prod.snd := by
    refine List.map_congr_left ?_
    intro entry stored
    unfold decodeInlineFileDeletion
    rw [← filed entry.1 entry.2 ((OrderedMap.get?_eq_some_iff _).mpr stored)]
    rfl
  unfold fromContext load snapshotInlineRowChangedTableIdsAt snapshotOperationTableIdsAt
  rw [decoded]
  simp only [PublicSnapshotCoalesceContext.load, OrderedMap.scan, List.filter_map, List.map_map, Function.comp_def]

theorem begins_of_mem_inlineFileDeleted_load (listed : tableId ∈ (load kv order).inlineFileDeleted) :
    ∃ key, kv.BeginsDeletion order key := by
  simp only [load, mem_tableSet, List.mem_map, List.mem_filter] at listed
  obtain ⟨row, ⟨⟨entry, stored, rfl⟩, begins⟩, _⟩ := listed
  refine ⟨entry.1, of_decide_eq_true begins, ?_⟩
  rw [(OrderedMap.get?_eq_some_iff _).mpr stored]
  rfl

variable {facts : SnapshotChangeFacts}

theorem mem_rewrites : tableId ∈ facts.rewrites ↔
    tableId ∈ facts.changedTables .added ∧ tableId ∈ facts.changedTables .removed := by
  simp [rewrites]

theorem mem_changes_mergeAdjacent : .mergeAdjacent tableId ∈ facts.changes ↔
    tableId ∈ facts.rewrites ∧ tableId ∉ facts.rewriteDeletes := by
  simp [changes, mergeAdjacent]

theorem mem_changes_rewriteDelete : .rewriteDelete tableId ∈ facts.changes ↔ tableId ∈ facts.rewriteDeletes := by
  simp [changes]

theorem mem_rewriteDeletes : tableId ∈ facts.rewriteDeletes ↔ tableId ∈ facts.rewrites ∧
    (tableId ∈ facts.deleteMarked ∨ tableId ∈ facts.inlineFileDeleted ∨ tableId ∈ facts.explicitRewriteDeletes) := by
  simp [rewriteDeletes, or_assoc]

theorem mem_changes_deletedFromTable : .deletedFromTable tableId ∈ facts.changes ↔
    (tableId ∈ facts.deleteMarked ∨ tableId ∈ facts.changedTables .removed ∧ tableId ∉ facts.rewrites) ∧
      tableId ∉ facts.rewriteDeletes := by
  simp [changes, deleted, mem_tableSet]

theorem mem_changes_insertedIntoTable : .insertedIntoTable tableId ∈ facts.changes ↔
    tableId ∈ facts.changedTables .added ∧ tableId ∉ facts.rewrites ∧ tableId ∉ facts.flushed := by
  simp [changes, inserted]

end SnapshotChangeFacts

/-- The entry tells about schemas, tables, views or macros. -/
def SnapshotChange.ofMetadata : SnapshotChange → Bool
  | inlinedInsert _ | inlinedDelete _ | flushedInlined _ | insertedIntoTable _ | deletedFromTable _ | mergeAdjacent _
  | rewriteDelete _ => false
  | _ => true

theorem SnapshotMetadataChangeIndex.tableChanges_ofMetadata (index : SnapshotMetadataChangeIndex) (order : CatalogOrderId)
    (event : MetadataEvent TableRow) : ∀ change ∈ index.tableChanges order event, change.ofMetadata = true := by
  cases event with
  | begins table =>
    simp only [tableChanges]
    split_ifs
    · simp
    · simp
    · simp [SnapshotChange.ofMetadata]
    · simp [SnapshotChange.ofMetadata]
  | ends table =>
    simp only [tableChanges]
    split_ifs
    · simp [SnapshotChange.ofMetadata]
    · simp
    · simp [SnapshotChange.ofMetadata]

theorem SnapshotMetadataChangeIndex.viewChanges_ofMetadata (index : SnapshotMetadataChangeIndex) (order : CatalogOrderId)
    (event : MetadataEvent ViewRow) : ∀ change ∈ index.viewChanges order event, change.ofMetadata = true := by
  cases event with
  | begins view =>
    simp only [viewChanges]
    split_ifs
    · simp
    · simp [SnapshotChange.ofMetadata]
  | ends view =>
    simp only [viewChanges]
    split_ifs
    · simp [SnapshotChange.ofMetadata]
    · simp [SnapshotChange.ofMetadata]

theorem SnapshotMetadataChangeIndex.changesAt_ofMetadata (index : SnapshotMetadataChangeIndex) (order : CatalogOrderId) :
    ∀ change ∈ index.changesAt order, change.ofMetadata = true := by
  intro change listed
  simp only [changesAt, List.mem_append, List.mem_map, List.mem_flatMap] at listed
  rcases listed with ((⟨event, _, rfl⟩ | ⟨event, _, listed⟩) | ⟨event, _, listed⟩) | ⟨event, _, rfl⟩
  · cases event with
    | begins schema => rfl
    | ends schema => rfl
  · exact index.tableChanges_ofMetadata order event change listed
  · exact index.viewChanges_ofMetadata order event change listed
  · cases event with
    | begins row => rfl
    | ends row => rfl

/-- What a snapshot is told to have done to data comes from the facts of its order. -/
theorem mem_snapshotChangesMade {kv : CatalogKv} {metadata : SnapshotMetadataChangeIndex} {order : CatalogOrderId}
    {change : SnapshotChange} (ofData : change.ofMetadata = false) :
    change ∈ snapshotChangesMade kv metadata order ↔ change ∈ (SnapshotChangeFacts.load kv order).changes := by
  rw [snapshotChangesMade, snapshotChangesMadeFromFacts, List.mem_append]
  refine or_iff_right ?_
  intro listed
  simp [metadata.changesAt_ofMetadata order change listed] at ofData

/-! ## Faithful reports -/

/-- The changes the listing of snapshots builds for an order. -/
def contextChangesMade (kv : CatalogKv) (windows : CatalogMetadata) (metadata : SnapshotMetadataChangeIndex)
    (order : CatalogOrderId) : List SnapshotChange :=
  snapshotChangesMadeFromFacts order metadata
    (.fromContext (.load kv windows) (kv.snapshotOperation.entries.map Prod.fst) order)

/-- What the later store tells about the order is what the step did to the earlier one. -/
structure ReportsFaithfully (FlushOutput : DataFileRow → Prop) (kv : CatalogKv) (step : CatalogStep) (later : CatalogKv)
    (metadata : SnapshotMetadataChangeIndex) (order : CatalogOrderId) : Prop where
  sameText : ∀ windows, changesText (contextChangesMade later windows metadata order) =
    changesText (snapshotChangesMade later metadata order)
  merged : ∀ tableId, .mergeAdjacent tableId ∈ snapshotChangesMade later metadata order →
    ∃ now compaction, step = .call (.mergeAdjacent now compaction)
  rewritten : ∀ tableId, .rewriteDelete tableId ∈ snapshotChangesMade later metadata order →
    ∃ now compaction, step = .call (.rewriteDelete now compaction)
  dropped : ∀ now input, step = .call (.dataMutation now input) → ∀ dataFileId ∈ input.droppedDataFileIds, ∀ row,
    kv.dataFile.get? dataFileId = some row → .deletedFromTable row.tableId ∈ snapshotChangesMade later metadata order
  deleted : ∀ now input, step = .call (.dataMutation now input) → ∀ row ∈ input.deleteFiles, ∀ dataFile,
    appendedOrCommittedDataFile kv input.dataFiles row = .ok dataFile →
      .deletedFromTable dataFile.tableId ∈ snapshotChangesMade later metadata order
  inserted : ∀ now input, step = .call (.dataMutation now input) → ∀ row ∈ input.dataFiles, ¬FlushOutput row →
    .insertedIntoTable row.tableId ∈ snapshotChangesMade later metadata order

/-- The step is not a mutation that looks like something else: it drops no file of a table it appends to, and what it
appends to a table it flushes are outputs of the flush. -/
structure ToldApart (FlushOutput : DataFileRow → Prop) (kv : CatalogKv) (step : CatalogStep) : Prop where
  drops : ∀ now input, step = .call (.dataMutation now input) → ∀ row ∈ input.dataFiles,
    ∀ dataFileId ∈ input.droppedDataFileIds, ∀ dropped, kv.dataFile.get? dataFileId = some dropped →
      dropped.tableId ≠ row.tableId
  flushes : ∀ now input, step = .call (.dataMutation now input) → ∀ row ∈ input.dataFiles,
    ∀ flush ∈ input.inlineFlushes, flush.flushInlineData = true → flush.tableId = row.tableId → FlushOutput row

section

variable {kv later : CatalogKv} {operation : CatalogOperation} {batch : KvBatch} {step : CatalogStep}
variable {FlushOutput : DataFileRow → Prop} {now : Int} {input : DataMutationInput}

/-- A call whose snapshot is stored has been committed. -/
theorem CatalogStep.Leaves.committed_of_stored {next : CatalogKv} (reachable : kv.Reachable)
    (leaves : CatalogStep.Leaves kv (.call operation) next)
    (stored : (next.snapshot.get? kv.generatedOrderId).isSome = true) :
    ∃ batch, operation.Commits kv batch ∧ next = kv.withGeneratedOrder.commit batch := by
  obtain ⟨latest, _, drawn, _, bounds⟩ := reachable.snapshotIndexes.newest
  have missing : kv.snapshot.get? kv.generatedOrderId = none := by
    cases found : kv.snapshot.get? kv.generatedOrderId with
    | none => rfl
    | some row => exact absurd ((bounds _ row found).1.trans drawn) (Nat.not_succ_le_self kv.nextOrder)
  cases leaves with
  | unchanged => simp [missing] at stored
  | drawn =>
    have same : kv.withGeneratedOrder.snapshot = kv.snapshot := rfl
    simp [same, missing] at stored
  | @committed _ batch commits => exact ⟨batch, commits, rfl⟩
  | @maintained _ batch maintains =>
    have same : (kv.commit batch).snapshot = kv.snapshot := by
      have unstaged : batch.snapshot = {} := by
        rcases maintains.commitMaps with ⟨_, _, _, staged⟩ | same
        · obtain ⟨_, rfl⟩ := stageExpiredSnapshots_changes staged
          rfl
        · exact congrArg (fun maps => maps.1.1) same
      exact (congrArg kv.snapshot.commit unstaged).trans rfl
    simp [same, missing] at stored

/-- What the change indexes tell about the order of a commit is what the commit filed. -/
def TellsChanges (kv : CatalogKv) (operation : CatalogOperation) (later : CatalogKv) : Prop :=
  ∀ key : ChangeKey, key.order = kv.generatedOrderId → (later.HasChange key ↔ operation.FilesChange kv key)

theorem CatalogOperation.Commits.tellsChanges (commits : operation.Commits kv batch) (sound : ChangesSound kv)
    (same : SameChangesAt kv.generatedOrderId (kv.withGeneratedOrder.commit batch) later) :
    TellsChanges kv operation later := by
  intro key named
  rw [same.filed key named]
  refine (commits.stagesChanges key).trans (or_iff_right ?_)
  intro old
  have drawn := sound.drawn key old
  rw [named] at drawn
  exact Nat.not_succ_le_self kv.nextOrder drawn

namespace TellsChanges

variable {tableId : TableId}

section

variable (tells : TellsChanges kv operation later)

include tells

theorem added :
    tableId ∈ (SnapshotChangeFacts.load later kv.generatedOrderId).changedTables .added ↔
      ∃ row ∈ operation.newDataFiles, row.tableId = tableId := by
  rw [SnapshotChangeFacts.mem_changedTables_load]
  constructor
  · rintro ⟨dataFileId, has⟩
    rcases (tells (.file _) rfl).mp has with
      ⟨row, listed, same⟩ | ⟨_, _, _, _, same⟩ | ⟨_, _, _, _, same⟩ | ⟨_, _, _, same⟩ | ⟨_, _, same⟩
    · simp only [ChangeKey.file.injEq, SnapshotDataFileChangeKey.mk.injEq] at same
      exact ⟨row, listed, same.2.1⟩
    · simp at same
    · cases same
    · cases same
    · cases same
  · rintro ⟨row, listed, rfl⟩
    exact ⟨row.dataFileId, (tells (.file _) rfl).mpr (Or.inl ⟨row, listed, rfl⟩)⟩

theorem removed :
    tableId ∈ (SnapshotChangeFacts.load later kv.generatedOrderId).changedTables .removed ↔
      ∃ dataFileId ∈ operation.closedDataFileIds, ∃ row, kv.dataFile.get? dataFileId = some row ∧ row.tableId = tableId := by
  rw [SnapshotChangeFacts.mem_changedTables_load]
  constructor
  · rintro ⟨dataFileId, has⟩
    rcases (tells (.file _) rfl).mp has with
      ⟨_, _, same⟩ | ⟨closed, listed, row, stored, same⟩ | ⟨_, _, _, _, same⟩ | ⟨_, _, _, same⟩ | ⟨_, _, same⟩
    · simp at same
    · simp only [ChangeKey.file.injEq, SnapshotDataFileChangeKey.mk.injEq] at same
      exact ⟨closed, listed, row, stored, same.2.1⟩
    · cases same
    · cases same
    · cases same
  · rintro ⟨closed, listed, row, stored, rfl⟩
    exact ⟨row.dataFileId, (tells (.file _) rfl).mpr (Or.inr (Or.inl ⟨closed, listed, row, stored, rfl⟩))⟩

theorem deleteMarked :
    tableId ∈ (SnapshotChangeFacts.load later kv.generatedOrderId).deleteMarked ↔ ∃ row ∈ operation.newDeleteFiles,
      ∃ dataFile, appendedOrCommittedDataFile kv operation.newDataFiles row = .ok dataFile ∧ dataFile.tableId = tableId := by
  rw [SnapshotChangeFacts.mem_deleteMarked_load]
  constructor
  · rintro ⟨deleteFileId, has⟩
    rcases (tells (.delete _) rfl).mp has with
      ⟨_, _, same⟩ | ⟨_, _, _, _, same⟩ | ⟨row, listed, dataFile, found, same⟩ | ⟨_, _, _, same⟩ | ⟨_, _, same⟩
    · cases same
    · cases same
    · simp only [ChangeKey.delete.injEq, OrderTableKey.mk.injEq] at same
      exact ⟨row, listed, dataFile, found, same.2.1⟩
    · cases same
    · cases same
  · rintro ⟨row, listed, dataFile, found, rfl⟩
    exact ⟨row.deleteFileId, (tells (.delete _) rfl).mpr (Or.inr (Or.inr (Or.inl ⟨row, listed, dataFile, found, rfl⟩)))⟩

theorem operated {kind : SnapshotOperationKind} :
    tableId ∈ SnapshotChangeFacts.snapshotOperationTableIdsAt later kv.generatedOrderId kind ↔
      (kind = .inlineFlush ∧ ∃ flush ∈ operation.inlineFlushes, flush.flushInlineData = true ∧ flush.tableId = tableId) ∨
        (kind = .rewriteDelete ∧ operation.Rewrites kv tableId) := by
  rw [SnapshotChangeFacts.mem_snapshotOperationTableIdsAt, tells (.operation _) rfl]
  constructor
  · rintro (⟨_, _, same⟩ | ⟨_, _, _, _, same⟩ | ⟨_, _, _, _, same⟩ | ⟨flush, listed, data, same⟩ | ⟨other, rewrites, same⟩)
    · cases same
    · cases same
    · cases same
    · simp only [ChangeKey.operation.injEq, SnapshotOperationKey.mk.injEq] at same
      exact Or.inl ⟨same.2.1.symm, flush, listed, data, same.2.2⟩
    · simp only [ChangeKey.operation.injEq, SnapshotOperationKey.mk.injEq] at same
      exact Or.inr ⟨same.2.1.symm, same.2.2 ▸ rewrites⟩
  · rintro (⟨rfl, flush, listed, data, rfl⟩ | ⟨rfl, rewrites⟩)
    · exact Or.inr (Or.inr (Or.inr (Or.inl ⟨flush, listed, data, rfl⟩)))
    · exact Or.inr (Or.inr (Or.inr (Or.inr ⟨tableId, rewrites, rfl⟩)))

/-- Tables that gain and lose files in one commit. -/
theorem rewrites :
    tableId ∈ (SnapshotChangeFacts.load later kv.generatedOrderId).rewrites ↔
      (∃ row ∈ operation.newDataFiles, row.tableId = tableId) ∧ ∃ dataFileId ∈ operation.closedDataFileIds,
        ∃ row, kv.dataFile.get? dataFileId = some row ∧ row.tableId = tableId := by
  rw [SnapshotChangeFacts.mem_rewrites, tells.added, tells.removed]

theorem not_rewrites (apart : ToldApart FlushOutput kv (.call operation))
    (isMutation : operation = .dataMutation now input) :
    tableId ∉ (SnapshotChangeFacts.load later kv.generatedOrderId).rewrites := by
  rw [tells.rewrites]
  subst isMutation
  rintro ⟨⟨row, listed, rfl⟩, dataFileId, dropped, removed, stored, same⟩
  exact apart.drops now input rfl row listed dataFileId dropped removed stored same

end

end TellsChanges

theorem compactionTableId_newFiles {sourceFileIds : List DataFileId} {newFiles : List DataFileRow} {tableId : TableId}
    (success : compactionTableId kv sourceFileIds newFiles = .ok tableId) : ∀ row ∈ newFiles, row.tableId = tableId := by
  unfold compactionTableId at success
  split at success
  · cases success
  · simp only [bind_eq_ok, pure_eq_ok] at success
    obtain ⟨first, _, _, _, _, checked, rfl⟩ := success
    intro row listed
    have passes := forM_eq_ok_iff.mp checked row listed
    by_contra other
    simp [other] at passes

/-- A merge is told to be one of the tables that gain and lose files, and a rewrite a rewrite. -/
theorem CatalogOperation.Commits.reportsKind (commits : operation.Commits kv batch) (sound : ChangesSound kv)
    (apart : ToldApart FlushOutput kv (.call operation))
    (same : SameChangesAt kv.generatedOrderId (kv.withGeneratedOrder.commit batch) later) {tableId : TableId}
    (rewrites : tableId ∈ (SnapshotChangeFacts.load later kv.generatedOrderId).rewrites) :
    ((∃ now compaction, operation = .mergeAdjacent now compaction) ∧
        tableId ∉ (SnapshotChangeFacts.load later kv.generatedOrderId).rewriteDeletes) ∨
      (∃ now compaction, operation = .rewriteDelete now compaction) ∧
        tableId ∈ (SnapshotChangeFacts.load later kv.generatedOrderId).rewriteDeletes := by
  have tells := commits.tellsChanges sound same
  obtain ⟨⟨row, listed, inTable⟩, dataFileId, closed, _⟩ := tells.rewrites.mp rewrites
  cases commits with
  | createTable => cases listed
  | appendDataFiles => cases closed
  | dataMutation => exact absurd rewrites (tells.not_rewrites apart rfl)
  | @mergeAdjacent compaction now _ _ _ staged =>
    refine Or.inl ⟨⟨now, compaction, rfl⟩, ?_⟩
    rw [SnapshotChangeFacts.mem_rewriteDeletes]
    rintro ⟨_, marked | deleted | explicit⟩
    · obtain ⟨_, member, _⟩ := tells.deleteMarked.mp marked
      cases member
    · obtain ⟨key, begins⟩ := SnapshotChangeFacts.begins_of_mem_inlineFileDeleted_load deleted
      obtain ⟨named, stored⟩ := (same.begun key).mp begins
      have unstaged := inlineFileDeletion_besideFiles (stageMergeAdjacent_besideFiles staged)
      have unchanged : (kv.withGeneratedOrder.commit batch).inlineFileDeletion = kv.inlineFileDeletion :=
        (congrArg kv.inlineFileDeletion.commit unstaged).trans rfl
      rw [unchanged] at stored
      have drawn := sound.begun key stored
      rw [named] at drawn
      exact Nat.not_succ_le_self kv.nextOrder drawn
    · rcases tells.operated.mp explicit with ⟨other, _⟩ | ⟨_, _, _, _, other, _⟩
      · cases other
      · cases other
  | @rewriteDelete compaction found normalized now _ _ valid staged =>
    refine Or.inr ⟨⟨now, compaction, rfl⟩, ?_⟩
    obtain ⟨foundTable, _, _⟩ := validateRewriteDelete_ok valid
    have isTable : found = tableId := (compactionTableId_newFiles foundTable row listed).symm.trans inTable
    rw [SnapshotChangeFacts.mem_rewriteDeletes]
    refine ⟨rewrites, Or.inr (Or.inr (tells.operated.mpr (Or.inr ⟨rfl, now, compaction, normalized, rfl, ?_⟩)))⟩
    rw [← isTable]
    exact valid
  | registerDeleteFiles
  | inlineFileDeletions
  | registerInlinePayload
  | registerInlinePayloadWithTable => cases listed

end

/-- Every commit that can be told apart is reported as what it was, for as long as its delete files are kept. -/
theorem reportedChanges_faithful {FlushOutput : DataFileRow → Prop} {kv later : CatalogKv} (reachable : kv.Reachable)
    {step : CatalogStep} (applied : ((step.apply kv).2.snapshot.get? kv.generatedOrderId).isSome = true)
    (apart : ToldApart FlushOutput kv step)
    (run : Relation.ReflTransGen (StepsKeeping kv.generatedOrderId) (step.apply kv).2 later)
    (metadata : SnapshotMetadataChangeIndex) :
    ReportsFaithfully FlushOutput kv step later metadata kv.generatedOrderId := by
  have sound := reachable.changesSound
  have reached := reachable.step step
  have drawn : kv.generatedOrderId ≤ (step.apply kv).2.nextOrder := by
    obtain ⟨snapshot, stored⟩ := Option.isSome_iff_exists.mp applied
    obtain ⟨latest, _, past, _, bounds⟩ := reached.snapshotIndexes.newest
    exact (bounds _ snapshot stored).1.trans past
  obtain ⟨same, reachedLater⟩ := sameChangesAt_of_run reached drawn run
  have leaves := step.apply_leaves kv
  generalize (step.apply kv).2 = next at applied same leaves
  have sameText (windows : CatalogMetadata) : changesText (contextChangesMade later windows metadata kv.generatedOrderId) =
      changesText (snapshotChangesMade later metadata kv.generatedOrderId) := by
    unfold contextChangesMade snapshotChangesMade
    rw [SnapshotChangeFacts.fromContext_eq_load reachedLater.changesSound.filed]
  -- Only operations file anything about data files.
  by_cases isCall : ∃ operation, step = .call operation
  · obtain ⟨operation, rfl⟩ := isCall
    obtain ⟨batch, commits, rfl⟩ := leaves.committed_of_stored reachable applied
    have tells := commits.tellsChanges sound same
    have kind {tableId : TableId} (rewrites : tableId ∈ (SnapshotChangeFacts.load later kv.generatedOrderId).rewrites) :=
      commits.reportsKind sound apart same rewrites
    refine ⟨sameText, ?_, ?_, ?_, ?_, ?_⟩
    · intro tableId listed
      obtain ⟨rewrites, notDelete⟩ := SnapshotChangeFacts.mem_changes_mergeAdjacent.mp
        ((mem_snapshotChangesMade rfl).mp listed)
      rcases kind rewrites with ⟨⟨now, compaction, rfl⟩, _⟩ | ⟨_, isDelete⟩
      · exact ⟨now, compaction, rfl⟩
      · exact absurd isDelete notDelete
    · intro tableId listed
      have isDelete := SnapshotChangeFacts.mem_changes_rewriteDelete.mp ((mem_snapshotChangesMade rfl).mp listed)
      rcases kind (SnapshotChangeFacts.mem_rewriteDeletes.mp isDelete).1 with ⟨_, notDelete⟩ | ⟨⟨now, compaction, rfl⟩, _⟩
      · exact absurd isDelete notDelete
      · exact ⟨now, compaction, rfl⟩
    · intro now input isMutation dataFileId named row stored
      have isMutation := CatalogStep.call.inj isMutation
      refine (mem_snapshotChangesMade rfl).mpr (SnapshotChangeFacts.mem_changes_deletedFromTable.mpr ⟨Or.inr ⟨?_, ?_⟩, ?_⟩)
      · exact tells.removed.mpr ⟨dataFileId, by rw [isMutation]; exact named, row, stored, rfl⟩
      · exact tells.not_rewrites apart isMutation
      · exact fun isDelete => tells.not_rewrites apart isMutation (SnapshotChangeFacts.mem_rewriteDeletes.mp isDelete).1
    · intro now input isMutation row listed dataFile found
      have isMutation := CatalogStep.call.inj isMutation
      refine (mem_snapshotChangesMade rfl).mpr (SnapshotChangeFacts.mem_changes_deletedFromTable.mpr ⟨Or.inl ?_, ?_⟩)
      · subst isMutation
        exact tells.deleteMarked.mpr ⟨row, listed, dataFile, found, rfl⟩
      · exact fun isDelete => tells.not_rewrites apart isMutation (SnapshotChangeFacts.mem_rewriteDeletes.mp isDelete).1
    · intro now input isMutation row listed ownRows
      have isMutation := CatalogStep.call.inj isMutation
      refine (mem_snapshotChangesMade rfl).mpr (SnapshotChangeFacts.mem_changes_insertedIntoTable.mpr ⟨?_, ?_, ?_⟩)
      · subst isMutation
        exact tells.added.mpr ⟨row, listed, rfl⟩
      · exact tells.not_rewrites apart isMutation
      · intro flushed
        have marked := (List.mem_filter.mp flushed).1
        subst isMutation
        rcases tells.operated.mp marked with ⟨_, flush, carried, data, sameTable⟩ | ⟨other, _⟩
        · exact ownRows (apart.flushes now input rfl row listed flush carried data sameTable)
        · cases other
  · have silent : ∀ tableId, tableId ∉ (SnapshotChangeFacts.load later kv.generatedOrderId).rewrites := by
      intro tableId rewrites
      obtain ⟨dataFileId, has⟩ := SnapshotChangeFacts.mem_changedTables_load.mp
        (SnapshotChangeFacts.mem_rewrites.mp rewrites).1
      rcases leaves.changes_cases with ⟨operation, _, call, _⟩ | changes
      · exact isCall ⟨operation, call⟩
      · exact Nat.not_succ_le_self kv.nextOrder (sound.drawn _ (changes.filed _ ((same.filed _ rfl).mp has)))
    have noCall {operation : CatalogOperation} (call : step = .call operation) : False := isCall ⟨operation, call⟩
    refine ⟨sameText, ?_, ?_, fun now input isMutation => (noCall isMutation).elim,
      fun now input isMutation => (noCall isMutation).elim, fun now input isMutation => (noCall isMutation).elim⟩
    · intro tableId listed
      exact absurd (SnapshotChangeFacts.mem_changes_mergeAdjacent.mp ((mem_snapshotChangesMade rfl).mp listed)).1
        (silent tableId)
    · intro tableId listed
      exact absurd (SnapshotChangeFacts.mem_rewriteDeletes.mp
        (SnapshotChangeFacts.mem_changes_rewriteDelete.mp ((mem_snapshotChangesMade rfl).mp listed))).1 (silent tableId)

/-- One file of table 1. -/
def oneFileAppended : CatalogKv :=
  runSteps (CatalogHistory.start 0 0).kv [.call (.appendDataFiles 0
    [{ dataFileId := 1, tableId := 1, path := "", recordCount := 10, fileSizeBytes := 1, validity := ⟨autoOrder, none⟩ }]
    [])]

/-- A mutation that replaces the file. -/
def replacesFile : CatalogStep :=
  let dataFile : DataFileRow :=
    { dataFileId := 2, tableId := 1, path := "", recordCount := 10, fileSizeBytes := 1, rowIdStart := 10,
      validity := ⟨autoOrder, none⟩ }
  .call (.dataMutation 0 { dataFiles := [dataFile], droppedDataFileIds := [1] })

/-- The mutation is reported as a merge, and neither as an insertion nor as a deletion. -/
theorem reportedChanges_takenForMerge :
    oneFileAppended.Reachable ∧
      ((replacesFile.apply oneFileAppended).2.snapshot.get? oneFileAppended.generatedOrderId).isSome = true ∧
        ¬ReportsFaithfully (fun _ => False) oneFileAppended replacesFile (replacesFile.apply oneFileAppended).2 {}
          oneFileAppended.generatedOrderId := by
  refine ⟨reachable_runSteps 0 0 _, by decide +kernel, ?_⟩
  intro faithful
  have named : SnapshotChange.mergeAdjacent 1 ∈ snapshotChangesMade (replacesFile.apply oneFileAppended).2 {}
      oneFileAppended.generatedOrderId := by decide +kernel
  obtain ⟨now, compaction, isMerge⟩ := faithful.merged 1 named
  cases isMerge

/-- A mutation that only drops the file. -/
def dropsFile : CatalogStep := .call (.dataMutation 0 { droppedDataFileIds := [1] })

theorem reportedChanges_faithful_drop :
    ReportsFaithfully (fun _ => False) oneFileAppended dropsFile (dropsFile.apply oneFileAppended).2 {}
        oneFileAppended.generatedOrderId ∧
      SnapshotChange.deletedFromTable 1 ∈ snapshotChangesMade (dropsFile.apply oneFileAppended).2 {}
        oneFileAppended.generatedOrderId := by
  refine ⟨?_, by decide +kernel⟩
  refine reportedChanges_faithful (reachable_runSteps 0 0 _) (by decide +kernel) ?_ .refl {}
  constructor
  · intro now input isMutation row listed
    obtain ⟨rfl, rfl⟩ := CatalogOperation.dataMutation.inj (CatalogStep.call.inj isMutation)
    cases listed
  · intro now input isMutation row listed
    obtain ⟨rfl, rfl⟩ := CatalogOperation.dataMutation.inj (CatalogStep.call.inj isMutation)
    cases listed

end DucklakeCatalog
