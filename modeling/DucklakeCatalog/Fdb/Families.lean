import DucklakeCatalog.Fdb.DataMutation

/-! The key families each stage of a data mutation writes. Every other family
is as it was before the stage. -/
namespace DucklakeCatalog.Fdb

open KeyedStore

def WritesDataFiles (before after : CatalogKv) : Prop :=
  ∃ currentDataFile dataFile dataFileBegin dataFileEnd tableDataFileChange snapshotDataFileChange tableNextRowId
      partitionValueLookup scheduledDataFileCleanup,
    after = { before with
      currentDataFile, dataFile, dataFileBegin, dataFileEnd, tableDataFileChange, snapshotDataFileChange
      tableNextRowId, partitionValueLookup, scheduledDataFileCleanup }

def WritesDeleteFiles (before after : CatalogKv) : Prop :=
  ∃ currentDeleteFile deleteFile deleteFileTimeline deleteFileEnd tableDeleteFileChange orderDeleteFileChange
      scheduledDeleteFileCleanup,
    after = { before with
      currentDeleteFile, deleteFile, deleteFileTimeline, deleteFileEnd, tableDeleteFileChange, orderDeleteFileChange
      scheduledDeleteFileCleanup }

def WritesFileDetails (before after : CatalogKv) : Prop :=
  ∃ filePartitionValue partitionValueLookup fileColumnStats fileColumnStatsLookup catalogFileStatsVersion
      tableFileStatsVersion,
    after = { before with
      filePartitionValue, partitionValueLookup, fileColumnStats, fileColumnStatsLookup, catalogFileStatsVersion
      tableFileStatsVersion }

def WritesFlushes (before after : FdbStore) : Prop :=
  ∃ inlineFileDeletion inlineFlushWatermark snapshotOperation conflictMaxFileId inlineCurrentRow inlineFlushFence,
    after = { before with
      kv := { before.kv with inlineFileDeletion, inlineFlushWatermark, snapshotOperation, conflictMaxFileId }
      inlineCurrentRow, inlineFlushFence }

def WritesInlineRows (before after : FdbStore) : Prop :=
  ∃ tableObject currentTableRow tableVisibility conflictMaxCatalogId conflictMaxFileId inlineTable
      tableInlineRowChange schemaKindInlineRowChange inlineTableChange inlineLiveRow inlineCurrentRow inlineNextRowId,
    after = { before with
      kv := { before.kv with
        tableObject, currentTableRow, tableVisibility, conflictMaxCatalogId, conflictMaxFileId, inlineTable
        tableInlineRowChange, schemaKindInlineRowChange, inlineTableChange }
      inlineLiveRow, inlineCurrentRow, inlineNextRowId }

theorem WritesDataFiles.refl (kv : CatalogKv) : WritesDataFiles kv kv := ⟨_, _, _, _, _, _, _, _, _, rfl⟩

variable {first second third before after kv next seen : CatalogKv} {order : CatalogOrderId} {now : Int}
  {store : FdbStore}

theorem WritesDataFiles.trans (left : WritesDataFiles first second)
    (right : WritesDataFiles second third) : WritesDataFiles first third := by
  obtain ⟨_, _, _, _, _, _, _, _, _, rfl⟩ := left
  obtain ⟨_, _, _, _, _, _, _, _, _, rfl⟩ := right
  exact ⟨_, _, _, _, _, _, _, _, _, rfl⟩

theorem WritesDeleteFiles.refl (kv : CatalogKv) : WritesDeleteFiles kv kv := ⟨_, _, _, _, _, _, _, rfl⟩

theorem WritesDeleteFiles.trans (left : WritesDeleteFiles first second)
    (right : WritesDeleteFiles second third) : WritesDeleteFiles first third := by
  obtain ⟨_, _, _, _, _, _, _, rfl⟩ := left
  obtain ⟨_, _, _, _, _, _, _, rfl⟩ := right
  exact ⟨_, _, _, _, _, _, _, rfl⟩

theorem WritesFileDetails.refl (kv : CatalogKv) : WritesFileDetails kv kv := ⟨_, _, _, _, _, _, rfl⟩

theorem WritesFileDetails.trans (left : WritesFileDetails first second)
    (right : WritesFileDetails second third) : WritesFileDetails first third := by
  obtain ⟨_, _, _, _, _, _, rfl⟩ := left
  obtain ⟨_, _, _, _, _, _, rfl⟩ := right
  exact ⟨_, _, _, _, _, _, rfl⟩

theorem WritesFlushes.refl (store : FdbStore) : WritesFlushes store store := ⟨_, _, _, _, _, _, rfl⟩

theorem WritesFlushes.trans {first second third : FdbStore} (left : WritesFlushes first second)
    (right : WritesFlushes second third) : WritesFlushes first third := by
  obtain ⟨_, _, _, _, _, _, rfl⟩ := left
  obtain ⟨_, _, _, _, _, _, rfl⟩ := right
  exact ⟨_, _, _, _, _, _, rfl⟩

theorem WritesInlineRows.refl (store : FdbStore) : WritesInlineRows store store :=
  ⟨_, _, _, _, _, _, _, _, _, _, _, _, rfl⟩

theorem WritesInlineRows.trans {first second third : FdbStore} (left : WritesInlineRows first second)
    (right : WritesInlineRows second third) : WritesInlineRows first third := by
  obtain ⟨_, _, _, _, _, _, _, _, _, _, _, _, rfl⟩ := left
  obtain ⟨_, _, _, _, _, _, _, _, _, _, _, _, rfl⟩ := right
  exact ⟨_, _, _, _, _, _, _, _, _, _, _, _, rfl⟩

/-! ## What the families leave alone -/

theorem WritesDataFiles.others (writes : WritesDataFiles before after) :
    after.currentDeleteFile = before.currentDeleteFile ∧ after.deleteFile = before.deleteFile ∧
      after.inlineFileDeletion = before.inlineFileDeletion := by
  obtain ⟨_, _, _, _, _, _, _, _, _, rfl⟩ := writes
  exact ⟨rfl, rfl, rfl⟩

theorem WritesDeleteFiles.others (writes : WritesDeleteFiles before after) :
    after.dataFile = before.dataFile ∧ after.currentDataFile = before.currentDataFile ∧
      after.inlineFileDeletion = before.inlineFileDeletion := by
  obtain ⟨_, _, _, _, _, _, _, rfl⟩ := writes
  exact ⟨rfl, rfl, rfl⟩

/-- The families of data files and delete files are untouched. -/
structure SameFiles (before after : CatalogKv) : Prop where
  currentDataFile : after.currentDataFile = before.currentDataFile
  dataFile : after.dataFile = before.dataFile
  currentDeleteFile : after.currentDeleteFile = before.currentDeleteFile
  deleteFile : after.deleteFile = before.deleteFile

theorem SameFiles.trans (left : SameFiles first second) (right : SameFiles second third) : SameFiles first third where
  currentDataFile := right.currentDataFile.trans left.currentDataFile
  dataFile := right.dataFile.trans left.dataFile
  currentDeleteFile := right.currentDeleteFile.trans left.currentDeleteFile
  deleteFile := right.deleteFile.trans left.deleteFile

theorem WritesFileDetails.sameFiles (writes : WritesFileDetails before after) :
    SameFiles before after ∧ after.inlineFileDeletion = before.inlineFileDeletion := by
  obtain ⟨_, _, _, _, _, _, rfl⟩ := writes
  exact ⟨⟨rfl, rfl, rfl, rfl⟩, rfl⟩

theorem WritesFlushes.sameFiles {before after : FdbStore} (writes : WritesFlushes before after) :
    SameFiles before.kv after.kv := by
  obtain ⟨_, _, _, _, _, _, rfl⟩ := writes
  exact ⟨rfl, rfl, rfl, rfl⟩

theorem WritesInlineRows.sameFiles {before after : FdbStore} (writes : WritesInlineRows before after) :
    SameFiles before.kv after.kv := by
  obtain ⟨_, _, _, _, _, _, _, _, _, _, _, _, rfl⟩ := writes
  exact ⟨rfl, rfl, rfl, rfl⟩

theorem WritesInlineRows.inlineFileDeletion {before after : FdbStore} (writes : WritesInlineRows before after) :
    after.kv.inlineFileDeletion = before.kv.inlineFileDeletion := by
  obtain ⟨_, _, _, _, _, _, _, _, _, _, _, _, rfl⟩ := writes
  rfl

theorem WritesInlineRows.commitAttempt {before after : FdbStore} (writes : WritesInlineRows before after) :
    after.commitAttempt = before.commitAttempt := by
  obtain ⟨_, _, _, _, _, _, _, _, _, _, _, _, rfl⟩ := writes
  rfl

/-! ## Data files -/

variable {row : DataFileRow} {context : MutationDataFileContext} {staging : DeleteFileStaging}
  {prepared : PreparedInlineFlush}

theorem stageDataFileWithoutWatermark_writes
    (staged : stageDataFileWithoutWatermark order kv row = .ok next) : WritesDataFiles kv next := by
  unfold stageDataFileWithoutWatermark at staged
  split at staged
  · rw [bind_eq_ok] at staged
    obtain ⟨compacted, compacts, staged⟩ := staged
    simp only [pure_eq_ok] at staged
    subst staged
    unfold stageCompactedDataFile at compacts
    split at compacts
    · simp at compacts
    · simp only [Except.ok.injEq] at compacts
      subst compacts
      exact ⟨_, _, _, _, _, _, _, _, _, rfl⟩
  · simp only [Except.ok.injEq] at staged
    subst staged
    exact ⟨_, _, _, _, _, _, _, _, _, rfl⟩

theorem stageDataFile_writes (staged : stageDataFile order kv row = .ok next) : WritesDataFiles kv next := by
  unfold stageDataFile at staged
  rw [bind_eq_ok] at staged
  obtain ⟨appended, appends, staged⟩ := staged
  simp only [pure_eq_ok] at staged
  subst staged
  refine (stageDataFileWithoutWatermark_writes appends).trans ?_
  cases dataFileNextRowId row with
  | none => exact WritesDataFiles.refl appended
  | some nextRowId => exact ⟨_, _, _, _, _, _, _, _, _, rfl⟩

theorem stageDataFiles_writes {rows : List DataFileRow}
    (staged : stageDataFiles order kv rows = .ok next) : WritesDataFiles kv next :=
  foldlM_relates WritesDataFiles.refl (fun left right => left.trans right)
    (fun _ _ _ taken => stageDataFile_writes taken) staged

theorem stageExpiredDataFile_writes (seen : CatalogKv) (order : CatalogOrderId) (kv : CatalogKv) (row : DataFileRow) :
    WritesDataFiles kv (stageExpiredDataFile seen order kv row) := ⟨_, _, _, _, _, _, _, _, _, rfl⟩

theorem stageDroppedDataFiles_writes {policy : ExpiredObjectCleanupPolicy} {droppedIds : List DataFileId}
    (staged : stageDroppedDataFiles seen now order policy context droppedIds kv = .ok next) :
    WritesDataFiles kv next := by
  unfold stageDroppedDataFiles at staged
  rw [bind_eq_ok] at staged
  obtain ⟨rows, _, staged⟩ := staged
  simp only [pure_eq_ok] at staged
  subst staged
  refine foldl_relates WritesDataFiles.refl (fun left right => left.trans right) ?_ rows kv
  intro kv row
  refine (stageExpiredDataFile_writes seen order kv row).trans ?_
  cases policy with
  | schedule cleanupKind => exact ⟨_, _, _, _, _, _, _, _, _, rfl⟩
  | preserve => exact WritesDataFiles.refl _

/-! ## Partition values and statistics -/

theorem stageFilePartitionValues_writes
    {rows : List FilePartitionValueRow} (staged : stageFilePartitionValues context kv rows = .ok next) :
    WritesFileDetails kv next := by
  refine foldlM_relates WritesFileDetails.refl (fun left right => left.trans right) ?_ staged
  intro kv row next taken
  rw [bind_eq_ok] at taken
  obtain ⟨dataFile, _, taken⟩ := taken
  simp only [pure_eq_ok] at taken
  exact ⟨_, _, _, _, _, _, taken.symm⟩

theorem stageFileStats_writes (order : CatalogOrderId) (kv : CatalogKv) (rows : List FileColumnStatsRow) :
    WritesFileDetails kv (stageFileStatsVersions order (rows.foldl stageFileColumnStats kv) rows) := by
  have stats : WritesFileDetails kv (rows.foldl stageFileColumnStats kv) :=
    foldl_relates WritesFileDetails.refl (fun left right => left.trans right)
      (fun _ _ => ⟨_, _, _, _, _, _, rfl⟩) rows kv
  refine stats.trans ?_
  unfold stageFileStatsVersions
  split
  · exact WritesFileDetails.refl _
  · exact ⟨_, _, _, _, _, _, rfl⟩

/-! ## Delete files -/

theorem putClosedDeleteFile_writes (seen : CatalogKv) (order : CatalogOrderId) (kv : CatalogKv) (tableId : TableId)
    (row : DeleteFileRow) : WritesDeleteFiles kv (putClosedDeleteFile seen order kv tableId row) :=
  ⟨_, _, _, _, _, _, _, rfl⟩

theorem stageCloseCurrentDeleteFile_writes {tableId : TableId} {row : DeleteFileRow}
    {closed : Option CatalogOrderId × CatalogKv}
    (staged : stageCloseCurrentDeleteFile seen now order staging tableId row = .ok closed) :
    WritesDeleteFiles staging.kv closed.2 := by
  unfold stageCloseCurrentDeleteFile at staged
  split at staged
  · simp at staged
  · split at staged
    · simp only [Except.ok.injEq] at staged
      subst staged
      exact WritesDeleteFiles.refl _
    · split at staged
      · simp at staged
      · simp only [Except.ok.injEq] at staged
        subst staged
        exact (putClosedDeleteFile_writes seen order staging.kv tableId _).trans ⟨_, _, _, _, _, _, _, rfl⟩

theorem stageDeleteFileWithoutWatermark_writes
    {next : DeleteFileStaging} {dataFile : DataFileRow} {row : DeleteFileRow} {timelineOrder : CatalogOrderId}
    (staged : stageDeleteFileWithoutWatermark seen now order staging dataFile row timelineOrder = .ok next) :
    WritesDeleteFiles staging.kv next.kv := by
  unfold stageDeleteFileWithoutWatermark at staged
  rw [bind_eq_ok] at staged
  obtain ⟨⟨inherited, closed⟩, closes, staged⟩ := staged
  dsimp only at staged
  split at staged
  · simp at staged
  · simp only [pure_eq_ok] at staged
    subst staged
    exact (stageCloseCurrentDeleteFile_writes closes).trans ⟨_, _, _, _, _, _, _, rfl⟩

theorem stageDeleteFiles_writes
    {prepared : PreparedDataMutation} (staged : stageDeleteFiles seen now order prepared kv = .ok next) :
    WritesDeleteFiles kv next := by
  unfold stageDeleteFiles at staged
  rw [bind_eq_ok] at staged
  obtain ⟨staging, folded, staged⟩ := staged
  simp only [pure_eq_ok] at staged
  subst staged
  refine foldlM_invariant (fun staging : DeleteFileStaging => WritesDeleteFiles kv staging.kv) folded
    (WritesDeleteFiles.refl kv) ?_
  intro staging row next _ soFar taken
  rw [bind_eq_ok] at taken
  obtain ⟨dataFile, _, taken⟩ := taken
  exact soFar.trans (stageDeleteFileWithoutWatermark_writes taken)

theorem stageExpiredDeleteFiles_writes (seen : CatalogKv) (now : Int) (order : CatalogOrderId)
    (policy : ExpiredObjectCleanupPolicy) (expired : List FdbExpiredDeleteFile) (kv : CatalogKv) :
    WritesDeleteFiles kv (stageExpiredDeleteFiles seen now order policy expired kv) := by
  refine foldl_relates WritesDeleteFiles.refl (fun left right => left.trans right) ?_ expired kv
  intro kv expired
  cases policy with
  | schedule cleanupKind
  | preserve => exact ⟨_, _, _, _, _, _, _, rfl⟩

/-! ## Snapshot operations -/

def WritesSnapshotOperations (before after : CatalogKv) : Prop :=
  ∃ snapshotOperation, after = { before with snapshotOperation }

theorem stageSnapshotOperations_writes (order : CatalogOrderId) (operations : List (SnapshotOperationKind × TableId))
    (kv : CatalogKv) : WritesSnapshotOperations kv (operations.foldl (stageSnapshotOperation order) kv) := by
  induction operations generalizing kv with
  | nil => exact ⟨_, rfl⟩
  | cons operation rest ih =>
    obtain ⟨snapshotOperation, same⟩ := ih (stageSnapshotOperation order kv operation)
    exact ⟨snapshotOperation, same⟩

/-! ## Inline file deletions and flushes -/

def WritesInlineFileDeletions (before after : CatalogKv) : Prop :=
  ∃ inlineFileDeletion, after = { before with inlineFileDeletion }

theorem WritesInlineFileDeletions.sameFiles
    (writes : WritesInlineFileDeletions before after) : SameFiles before after := by
  obtain ⟨_, rfl⟩ := writes
  exact ⟨rfl, rfl, rfl, rfl⟩

/-- A fold that only writes single inline file deletions. -/
theorem foldl_writesInlineFileDeletions {stage : CatalogKv → InlineFileDeletionRow → CatalogKv}
    (writes : ∀ kv row, WritesInlineFileDeletions kv (stage kv row)) (rows : List InlineFileDeletionRow)
    (kv : CatalogKv) : WritesInlineFileDeletions kv (rows.foldl stage kv) := by
  refine foldl_relates (fun kv => ⟨_, rfl⟩) ?_ writes rows kv
  rintro first second third ⟨_, rfl⟩ ⟨_, rfl⟩
  exact ⟨_, rfl⟩

theorem stageFileDeletionEnds_writes (order : CatalogOrderId) (rows : List InlineFileDeletionRow) (kv : CatalogKv) :
    WritesInlineFileDeletions kv (rows.foldl (stageFileDeletionEnd order) kv) :=
  foldl_writesInlineFileDeletions (fun _ _ => ⟨_, rfl⟩) rows kv

theorem stageInlineFileDeletions_writes (order : CatalogOrderId) (rows : List InlineFileDeletionRow)
    (kv : CatalogKv) : WritesInlineFileDeletions kv (rows.foldl (stageInlineFileDeletion order) kv) :=
  foldl_writesInlineFileDeletions (fun _ _ => ⟨_, rfl⟩) rows kv

theorem stageInlineFlush_writes (order : CatalogOrderId) (store : FdbStore) (prepared : PreparedInlineFlush) :
    WritesFlushes store (stageInlineFlush order store prepared) := by
  obtain ⟨inlineFileDeletion, same⟩ := stageFileDeletionEnds_writes order prepared.inlineFileDeletions store.kv
  unfold stageInlineFlush stagePayloadWatermark
  rw [same]
  cases prepared.flush.flushInlineData with
  | false => exact ⟨_, _, _, _, _, _, rfl⟩
  | true =>
    cases prepared.maxBeginOrder with
    | none
    | some maxBeginOrder => exact ⟨_, _, _, _, _, _, rfl⟩

theorem stageInlineFlushFence_writes {next : FdbStore}
    (staged : stageInlineFlushFence store prepared = some next) : WritesFlushes store next := by
  unfold stageInlineFlushFence at staged
  dsimp only at staged
  split at staged
  · simp at staged
  · simp only [Option.some.injEq] at staged
    exact ⟨_, _, _, _, _, _, staged.symm⟩

theorem stageFencedInlineFlush_writes {state next : FdbStore × List TableId × Nat}
    (staged : stageFencedInlineFlush order state prepared = some next) :
    WritesFlushes state.1 next.1 := by
  unfold stageFencedInlineFlush at staged
  rw [Option.map_eq_some_iff] at staged
  obtain ⟨fenced, fences, rfl⟩ := staged
  refine WritesFlushes.trans ?_ (stageInlineFlush_writes order fenced prepared)
  split at fences
  · simp only [Option.some.injEq] at fences
    exact fences ▸ WritesFlushes.refl _
  · exact stageInlineFlushFence_writes fences

theorem stagePreparedInlineFlushes_writes {next : FdbStore} {prepared : List PreparedInlineFlush} {items : Nat}
    (staged : stagePreparedInlineFlushes order store prepared = some (next, items)) : WritesFlushes store next := by
  unfold stagePreparedInlineFlushes at staged
  rw [Option.map_eq_some_iff] at staged
  obtain ⟨finish, folded, same⟩ := staged
  obtain ⟨rfl, rfl⟩ := Prod.mk.inj same
  exact foldlM_some_invariant (fun state => WritesFlushes store state.1) folded (WritesFlushes.refl store)
    (fun _ _ _ _ soFar taken => soFar.trans (stageFencedInlineFlush_writes taken))

/-! ## Inline rows -/

theorem stageInlineTableReplacement_writes (order : CatalogOrderId) (replacements : List (TableRow × TableRow))
    (store : FdbStore) :
    WritesInlineRows store { store with kv := replacements.foldl (stageInlineTableReplacement order) store.kv } := by
  induction replacements generalizing store with
  | nil => exact WritesInlineRows.refl store
  | cons replacement rest ih =>
    refine WritesInlineRows.trans ?_ (ih { store with kv := stageInlineTableReplacement order store.kv replacement })
    exact ⟨_, _, _, _, _, _, _, _, _, _, _, _, rfl⟩

theorem stageInlineDelete_writes (order : CatalogOrderId) (store : FdbStore) (delete : PreparedInlineDelete) :
    WritesInlineRows store (stageInlineDelete order store delete) := by
  unfold stageInlineDelete
  split
  · exact WritesInlineRows.refl store
  · have marked : WritesInlineRows store
        { store with kv := stageInlineTableChange order store.kv delete.tableId .deleted } :=
      ⟨_, _, _, _, _, _, _, _, _, _, _, _, rfl⟩
    exact marked.trans (foldl_relates WritesInlineRows.refl (fun left right => left.trans right)
      (fun _ _ => ⟨_, _, _, _, _, _, _, _, _, _, _, _, rfl⟩) delete.rowIds _)

theorem stageInlinePayload_writes {sequence : RawSnapshotSequence} {next : FdbStore}
    {payload : PreparedInlinePayload} (staged : stageInlinePayload order sequence store payload = .ok next) :
    WritesInlineRows store next := by
  unfold stageInlinePayload at staged
  extract_lets _ chunked marked at staged
  have opened : WritesInlineRows store { store with kv := marked } := by
    by_cases unchanged : payload.changedRowIds = []
    · simp only [marked, if_pos unchanged]
      exact ⟨_, _, _, _, _, _, _, _, _, _, _, _, rfl⟩
    · simp only [marked, if_neg unchanged]
      exact ⟨_, _, _, _, _, _, _, _, _, _, _, _, rfl⟩
  refine opened.trans (foldlM_relates WritesInlineRows.refl (fun left right => left.trans right) ?_ staged)
  intro store key next taken
  unfold stageInsertedInlineRow at taken
  split at taken
  · simp at taken
  · simp only [Except.ok.injEq] at taken
    exact ⟨_, _, _, _, _, _, _, _, _, _, _, _, taken.symm⟩

theorem stagePreparedInlineMutation_writes {next : FdbStore}
    {prepared : PreparedInlineMutation} (staged : stagePreparedInlineMutation order store prepared = .ok next) :
    WritesInlineRows store next := by
  unfold stagePreparedInlineMutation at staged
  extract_lets replaced deleted at staged
  rw [bind_eq_ok] at staged
  obtain ⟨inserted, inserts, staged⟩ := staged
  simp only [pure_eq_ok] at staged
  subst staged
  have first : WritesInlineRows store replaced := stageInlineTableReplacement_writes order prepared.replacements store
  have second : WritesInlineRows replaced deleted :=
    foldl_relates WritesInlineRows.refl (fun left right => left.trans right)
      (stageInlineDelete_writes order) prepared.deletes replaced
  have third : WritesInlineRows deleted inserted :=
    foldlM_relates WritesInlineRows.refl (fun left right => left.trans right)
      (fun _ _ _ taken => stageInlinePayload_writes taken) inserts
  exact ((first.trans second).trans third).trans ⟨_, _, _, _, _, _, _, _, _, _, _, _, rfl⟩

theorem stageOptionalInlineMutation_writes {next : FdbStore}
    {prepared : Option PreparedInlineMutation} (staged : stageOptionalInlineMutation order prepared store = .ok next) :
    WritesInlineRows store next := by
  cases prepared with
  | none =>
    obtain rfl : store = next := by simpa [stageOptionalInlineMutation] using staged
    exact WritesInlineRows.refl store
  | some prepared => exact stagePreparedInlineMutation_writes staged

end DucklakeCatalog.Fdb
