import DucklakeCatalog.Run.DeleteFiles

namespace DucklakeCatalog

open KeyedStore

/-- What the stored data files say about the delete files of a history. -/
def CatalogHistory.deleteFileScope (history : CatalogHistory) : DeleteFileScope where
  Owned dataFileId tableId :=
    dataFileId ∈ history.dataFileIds ∧ ∀ row, history.kv.dataFile.get? dataFileId = some row → row.tableId = tableId
  Ended dataFileId order :=
    ∀ row, history.kv.dataFile.get? dataFileId = some row →
      ∃ endOrder, endOrder ≤ order ∧ row.validity.endOrder = some endOrder
  Used deleteFileId := deleteFileId ∈ history.deleteFileIds
  newest := history.kv.nextOrder

structure DeleteFilesSound (history : CatalogHistory) : Prop where
  sound : ∃ tableOf, history.kv.deleteFileIndexes.Sound history.deleteFileScope tableOf
  opened : history.kv.deleteFileIndexes.CurrentOpen

theorem DeleteFilesSound.start (lastOrder : CatalogOrderId) (now : Int) :
    DeleteFilesSound (CatalogHistory.start lastOrder now) := by
  have empty : (CatalogHistory.start lastOrder now).kv.deleteFileIndexes =
    ⟨.empty, .empty, .empty, .empty, .empty, .empty, .empty⟩ := rfl
  refine ⟨⟨fun _ => 0, ?_⟩, ?_⟩
  · rw [empty]
    exact ⟨by simp, by simp, by simp, by simp, by simp, by simp, by simp, by simp, by simp⟩
  · rw [empty]
    intro dataFileId row found
    simp at found

/-! ## What leaves delete files alone -/

variable {after : KvBatch} {now : Int}

theorem KvBatch.ChangesPartitions.deleteFileMaps {before : KvBatch} (changes : before.ChangesPartitions after) :
    after.deleteFileMaps = before.deleteFileMaps := by
  obtain ⟨_, _, rfl⟩ := changes
  rfl

theorem KvBatch.ChangesStats.deleteFileMaps {before : KvBatch} (changes : before.ChangesStats after) :
    after.deleteFileMaps = before.deleteFileMaps := by
  obtain ⟨_, _, _, _, rfl⟩ := changes
  rfl

theorem KvBatch.ChangesInlineEnds.deleteFileMaps {before : KvBatch} (changes : before.ChangesInlineEnds after) :
    after.deleteFileMaps = before.deleteFileMaps := by
  obtain ⟨_, _, _, _, rfl⟩ := changes
  rfl

theorem KvBatch.ChangesInlineDeletions.deleteFileMaps {before : KvBatch}
    (changes : before.ChangesInlineDeletions after) : after.deleteFileMaps = before.deleteFileMaps := by
  obtain ⟨_, rfl⟩ := changes
  rfl

theorem KvBatch.ChangesInlineTables.deleteFileMaps {before : KvBatch}
    (changes : before.ChangesInlineTables after) : after.deleteFileMaps = before.deleteFileMaps := by
  obtain ⟨_, _, _, _, _, _, _, _, _, rfl⟩ := changes
  rfl

theorem KvBatch.ChangesTables.deleteFileMaps {before : KvBatch} (changes : before.ChangesTables after) :
    after.deleteFileMaps = before.deleteFileMaps := by
  obtain ⟨_, _, _, rfl⟩ := changes
  rfl

theorem stageAppendDataFileWithoutChange_deleteFileMaps (kv : CatalogKv) (batch : KvBatch) (row : DataFileRow) :
    (stageAppendDataFileWithoutChange kv batch row).deleteFileMaps = batch.deleteFileMaps := by
  obtain ⟨_, _, _, _, same⟩ := stageAppendDataFileWithoutChange_eq kv batch row
  rw [same]
  rfl

theorem stageAppendDataFile_deleteFileMaps (kv : CatalogKv) (batch : KvBatch) (row : DataFileRow) :
    (stageAppendDataFile kv batch row).deleteFileMaps = batch.deleteFileMaps :=
  stageAppendDataFileWithoutChange_deleteFileMaps kv batch row

theorem stageMutationDataFile_deleteFileMaps (kv : CatalogKv) (order : CatalogOrderId) (batch : KvBatch)
    (row : DataFileRow) : (stageMutationDataFile kv order batch row).deleteFileMaps = batch.deleteFileMaps := by
  unfold stageMutationDataFile
  split
  · exact stageAppendDataFileWithoutChange_deleteFileMaps kv batch row
  · exact stageAppendDataFileWithoutChange_deleteFileMaps kv batch row

theorem stageDropDataFile_deleteFileMaps (kv : CatalogKv) (now : Int) (order : CatalogOrderId) (batch : KvBatch)
    (row : DataFileRow) : (stageDropDataFile kv now order batch row).deleteFileMaps = batch.deleteFileMaps := by
  obtain ⟨_, _, same⟩ := stageExpireDataFile_eq kv batch (row.withEndOrder (some order)) order
  simp only [stageDropDataFile, same]
  rfl

theorem expireCompactedSourceFile_deleteFileMaps {kv : CatalogKv} {batch next : KvBatch}
    {dataFileId : DataFileId} {endOrder : CatalogOrderId} {policy : DeleteFilePolicy} {source : ExpiredSourceFile}
    (success : expireCompactedSourceFile kv now batch dataFileId endOrder policy = .ok (source, next)) :
    next.deleteFileMaps = batch.deleteFileMaps := by
  obtain ⟨_, _, expired, expires, rfl⟩ := expireCompactedSourceFile_ok success
  obtain ⟨_, _, _, _, _, _, _, rfl⟩ := stageExpireCurrentDataFile_ok expires
  rfl

/-! ## Registrations of one commit -/

section

variable {kv : CatalogKv} {scope before : DeleteFileScope} {tableOf : DeleteFileId → TableId} {order : CatalogOrderId}

theorem DeleteFileIndexes.Follows.congr {batch next : KvBatch}
    (follows : kv.deleteFileIndexes.Follows (kv.commit batch).deleteFileIndexes scope order)
    (same : next.deleteFileMaps = batch.deleteFileMaps) :
    kv.deleteFileIndexes.Follows (kv.commit next).deleteFileIndexes scope order :=
  kv.commit_deleteFileIndexes_congr same ▸ follows

/-- The one table the scope allows for the data file. -/
def DeleteFileScope.KnownTable (scope : DeleteFileScope) (dataFileId : DataFileId) (tableId : TableId) : Prop :=
  scope.Owned dataFileId tableId ∧ ∀ other, scope.Owned dataFileId other → tableId = other

/-- Delete files registered one after another, each with an id of its own. -/
theorem registerAll_follows {step : List DeleteFileRow × KvBatch → DeleteFileRow →
      CatalogResult (List DeleteFileRow × KvBatch)} {rows : List DeleteFileRow}
    {state finish : List DeleteFileRow × KvBatch}
    (registers : ∀ state row next, row ∈ rows → step state row = .ok next →
      ∃ dataFile prepared registered, stageRegisterDeleteFileForDataFile kv state.2 dataFile prepared order =
        .ok (registered, next.2) ∧ prepared.deleteFileId = row.deleteFileId ∧ prepared.validity.endOrder = none ∧
        scope.KnownTable prepared.dataFileId dataFile.tableId)
    (sound : kv.deleteFileIndexes.Sound before tableOf) (openBefore : kv.deleteFileIndexes.CurrentOpen)
    (older : ∀ {key row}, kv.deleteFileTimeline.get? key = some row → key.order < order)
    (used : ∀ row ∈ rows, scope.Used row.deleteFileId) (recent : order ≤ scope.newest)
    (distinct : (rows.map DeleteFileRow.deleteFileId).Nodup)
    (unnamed : ∀ row ∈ rows, (kv.commit state.2).deleteFileIndexes.Unnamed row.deleteFileId)
    (follows : kv.deleteFileIndexes.Follows (kv.commit state.2).deleteFileIndexes scope order)
    (success : rows.foldlM step state = .ok finish) :
    kv.deleteFileIndexes.Follows (kv.commit finish.2).deleteFileIndexes scope order := by
  induction rows generalizing state with
  | nil =>
    obtain rfl : state = finish := by simpa [pure, Except.pure] using success
    exact follows
  | cons row rest ih =>
    rw [List.foldlM_cons, bind_eq_ok] at success
    obtain ⟨next, taken, success⟩ := success
    obtain ⟨notLater, distinctRest⟩ := List.nodup_cons.mp distinct
    obtain ⟨dataFile, prepared, registered, staged, sameId, opened, owned, owner⟩ :=
      registers state row next List.mem_cons_self taken
    obtain ⟨followsNext, unnamedNext⟩ := stageRegisterDeleteFileForDataFile_follows follows sound openBefore older opened
      (sameId ▸ unnamed row List.mem_cons_self) owned owner (sameId ▸ used row List.mem_cons_self) recent staged
    refine ih (fun state later next member => registers state later next (List.mem_cons_of_mem _ member))
      (fun later member => used later (List.mem_cons_of_mem _ member)) distinctRest ?_ followsNext success
    intro later member
    refine unnamedNext _ (unnamed later (List.mem_cons_of_mem _ member)) ?_
    rw [sameId]
    intro same
    exact notLater (same ▸ List.mem_map_of_mem member)

end

/-! ## One commit -/

section

variable {history : CatalogHistory} {operation : CatalogOperation} {batch : KvBatch}

/-- A data file of the store goes on under its id: same table, same begin, and ended if it had ended. -/
theorem DataFilesSound.origin (data : DataFilesSound history) (fresh : history.FreshDataFileIds operation)
    (commits : operation.Commits history.kv batch) (known : dataFileId ∈ history.dataFileIds)
    (found : (history.committed operation batch).kv.dataFile.get? dataFileId = some row) :
    ∃ earlier, history.kv.dataFile.get? dataFileId = some earlier ∧ DataFileIndexes.Continues earlier row := by
  have staged := commits.dataFiles data.coherent.named fresh.1 fun dataFileId new => data.unknown (fresh.2 _ new)
  have old : dataFileId ∉ operation.newDataFileIds := fun new => fresh.2 _ new known
  exact staged.steps.origin old found

theorem DeleteFilesSound.opening (deletes : DeleteFilesSound history) (data : DataFilesSound history)
    (fresh : history.FreshDataFileIds operation) (commits : operation.Commits history.kv batch) :
    history.kv.deleteFileIndexes.Follows history.kv.deleteFileIndexes (history.committed operation batch).deleteFileScope
      history.kv.generatedOrderId := by
  obtain ⟨tables, sound⟩ := deletes.sound
  refine ⟨⟨tables, sound.mono ?_ ?_ ?_ ?_⟩, deletes.opened, fun found => Or.inl found, fun found => ⟨_, found⟩,
    fun filed => filed⟩
  · intro key row _ owned
    refine ⟨List.mem_append_left _ owned.1, ?_⟩
    intro dataFile found
    obtain ⟨earlier, stored, table, _⟩ := data.origin fresh commits owned.1 found
    exact table.trans (owned.2 earlier stored)
  · intro key row endOrder indexed ended dataFile found
    obtain ⟨earlier, stored, _, _, continues⟩ := data.origin fresh commits (sound.changed indexed).1.1 found
    obtain ⟨closedAt, before, closed⟩ := ended earlier stored
    exact ⟨closedAt, before, continues closedAt closed⟩
  · intro deleteFileId used
    exact List.mem_append_left _ used
  · exact Nat.le_succ _

theorem DeleteFilesSound.older (deletes : DeleteFilesSound history)
    (found : history.kv.deleteFileTimeline.get? key = some row) : key.order < history.kv.generatedOrderId := by
  obtain ⟨tables, sound⟩ := deletes.sound
  exact Nat.lt_succ_of_le (sound.entry found).2.2.2

theorem DeleteFilesSound.unnamed (deletes : DeleteFilesSound history) (new : deleteFileId ∉ history.deleteFileIds) :
    history.kv.deleteFileIndexes.Unnamed deleteFileId := by
  obtain ⟨tables, sound⟩ := deletes.sound
  intro key row found same
  exact new (same ▸ (sound.entry found).2.2.1)

theorem CatalogHistory.knownTable {history : CatalogHistory} (used : dataFileId ∈ history.dataFileIds)
    (found : history.kv.dataFile.get? dataFileId = some row) (table : row.tableId = tableId) :
    history.deleteFileScope.KnownTable dataFileId tableId := by
  subst table
  refine ⟨⟨used, ?_⟩, fun other owned => owned.2 row found⟩
  intro other stored
  obtain rfl := Option.some.inj (found.symm.trans stored)
  rfl

theorem appendedOrCommittedDataFile_ok {kv : CatalogKv} {appended : List DataFileRow} {deleteFile : DeleteFileRow}
    {dataFile : DataFileRow} (success : appendedOrCommittedDataFile kv appended deleteFile = .ok dataFile) :
    (dataFile ∈ appended ∧ dataFile.dataFileId = deleteFile.dataFileId) ∨
      kv.dataFile.get? deleteFile.dataFileId = some dataFile := by
  unfold appendedOrCommittedDataFile loadDataFile at success
  split at success
  · rename_i found
    simp only [Except.ok.injEq] at success
    subst success
    exact Or.inl ⟨List.mem_of_find?_eq_some found, by simpa using List.find?_some found⟩
  · right
    cases stored : kv.dataFile.get? deleteFile.dataFileId with
    | none => simp [stored] at success
    | some row => simpa [stored] using success

theorem materializedDeleteFile_ok {kv : CatalogKv} {appended : List DataFileRow} {flushes : List InlineTableFlush}
    {latest : Option SnapshotRow} {order : CatalogOrderId} {row prepared : DeleteFileRow}
    (success : materializedDeleteFile kv appended flushes latest order row = .ok prepared) :
    prepared.deleteFileId = row.deleteFileId ∧ prepared.dataFileId = row.dataFileId ∧
      prepared.validity.endOrder = none := by
  unfold materializedDeleteFile at success
  extract_lets given at success
  have same : given.deleteFileId = row.deleteFileId ∧ given.dataFileId = row.dataFileId ∧
      given.validity.endOrder = none := by
    simp only [given]
    split
    · exact ⟨rfl, rfl, rfl⟩
    · exact ⟨rfl, rfl, rfl⟩
  split at success
  · simp only [bind_eq_ok, pure_eq_ok] at success
    obtain ⟨first, _, rfl⟩ := success
    cases first with
    | none => exact same
    | some beginOrder => exact same
  · simp only [pure_eq_ok] at success
    exact success ▸ same

theorem stageRegisterDeleteFiles_follows (deletes : DeleteFilesSound history) (data : DataFilesSound history)
    {rows result : List DeleteFileRow} (fresh : history.FreshFileIds (.registerDeleteFiles now rows))
    (staged : stageRegisterDeleteFiles history.kv now rows history.kv.generatedOrderId = .ok (result, batch)) :
    history.kv.deleteFileIndexes.Follows (history.kv.commit batch).deleteFileIndexes
      (history.committed (.registerDeleteFiles now rows) batch).deleteFileScope history.kv.generatedOrderId := by
  obtain ⟨tables, sound⟩ := deletes.sound
  have commits : CatalogOperation.Commits history.kv (.registerDeleteFiles now rows) batch := .registerDeleteFiles staged
  have opening := (deletes.opening data fresh.1 commits).congr (show KvBatch.deleteFileMaps
    (stageSnapshot {} (snapshotRowForNextSequence (latestSnapshot history.kv) history.kv.generatedOrderId now)) =
      ({} : KvBatch).deleteFileMaps from rfl)
  refine registerAll_follows ?_ sound deletes.opened deletes.older ?_ le_rfl fresh.2.1 ?_ opening staged
  · intro state row next member taken
    simp only [bind_eq_ok, pure_eq_ok] at taken
    obtain ⟨⟨registered, registeredBatch⟩, registers, rfl⟩ := taken
    obtain ⟨dataFile, stored, registers⟩ := stageRegisterDeleteFile_ok registers
    refine ⟨dataFile, _, registered, registers, rfl, rfl, ?_⟩
    have kept := commits.dataFiles data.coherent.named fresh.1.1 fun dataFileId new => data.unknown (fresh.1.2 _ new)
    have used := List.mem_append_left (CatalogOperation.registerDeleteFiles now rows).newDataFileIds (data.used stored)
    rcases kept.kept stored with same | closed
    · exact CatalogHistory.knownTable used same rfl
    · exact CatalogHistory.knownTable used closed rfl
  · intro row member
    exact List.mem_append_right _ (List.mem_map_of_mem member)
  · intro row member
    exact deletes.unnamed (fresh.2.2 _ (List.mem_map_of_mem member))

/-- Only the registrations of a data mutation touch delete files: what is staged before and after them does not. -/
theorem stageDataMutation_registers {kv : CatalogKv} {order : CatalogOrderId} {input : DataMutationInput}
    {result : DataMutationCommit} (staged : stageDataMutation kv now input order = .ok (result, batch)) :
    ∃ opening finish, opening.deleteFileMaps = ({} : KvBatch).deleteFileMaps ∧
      stageMutationDeleteFiles kv (input.dataFiles.map (mutationDataFile order)) input.inlineFlushes order opening
        input.deleteFiles = .ok finish ∧
      batch.deleteFileMaps = finish.2.deleteFileMaps := by
  obtain ⟨valued, values, registered, withDeletes, registers, closed, closes, flushed, flushes, dropped, drops, rfl,
    rfl⟩ := stageDataMutation_ok staged
  refine ⟨_, _, ?_, registers, ?_⟩
  · rw [(stageCompactionStats_changes valued input.fileColumnStats order).deleteFileMaps,
      (stageNewFilePartitionValues_changes values).deleteFileMaps]
    exact foldl_view KvBatch.deleteFileMaps (stageMutationDataFile_deleteFileMaps kv _) _ _
  · refine Eq.trans (foldl_view KvBatch.deleteFileMaps (stageDropDataFile_deleteFileMaps kv now _) dropped _) ?_
    have inline := ((stageNewInlineFileDeletions_changes flushed input.inlineFileDeletions
      order).deleteFileMaps.trans
      (foldlM_stageFlushInlineTablePayloads_changes flushes).deleteFileMaps).trans
      (stageCloseMaterializedInlineFileDeletions_changes closes).inlineEnds.deleteFileMaps
    split
    · exact inline
    · exact inline

theorem stageDataMutation_follows (deletes : DeleteFilesSound history) (data : DataFilesSound history)
    {input : DataMutationInput} {result : DataMutationCommit} (fresh : history.FreshFileIds (.dataMutation now input))
    (commits : CatalogOperation.Commits history.kv (.dataMutation now input) batch)
    (staged : stageDataMutation history.kv now input history.kv.generatedOrderId = .ok (result, batch)) :
    history.kv.deleteFileIndexes.Follows (history.kv.commit batch).deleteFileIndexes
      (history.committed (.dataMutation now input) batch).deleteFileScope history.kv.generatedOrderId := by
  obtain ⟨tables, sound⟩ := deletes.sound
  have kept := commits.dataFiles data.coherent.named fresh.1.1 fun dataFileId new => data.unknown (fresh.1.2 _ new)
  obtain ⟨sameFiles, files⟩ := stageDataMutation_files staged
  have added := (files fresh.1.1 fun dataFileId new => data.unknown (fresh.1.2 _ new)).added
  rw [sameFiles] at added
  obtain ⟨opened, finish, before, registers, after⟩ := stageDataMutation_registers staged
  refine DeleteFileIndexes.Follows.congr ?_ after
  have opening := (deletes.opening data fresh.1 commits).congr before
  refine registerAll_follows ?_ sound deletes.opened deletes.older ?_ le_rfl fresh.2.1 ?_ opening registers
  · intro state row next member taken
    simp only [bind_eq_ok, pure_eq_ok] at taken
    obtain ⟨prepared, prepares, ⟨registered, registeredBatch⟩, stages, rfl⟩ := taken
    obtain ⟨dataFile, loaded, stages⟩ := stageMaterializedDeleteFile_ok stages
    obtain ⟨sameId, _, opened⟩ := materializedDeleteFile_ok prepares
    refine ⟨dataFile, prepared, registered, stages, sameId, opened, ?_⟩
    rcases appendedOrCommittedDataFile_ok loaded with ⟨appended, named⟩ | stored
    · have new : prepared.dataFileId ∈ history.dataFileIds ++ (CatalogOperation.dataMutation now input).newDataFileIds := by
        obtain ⟨given, listed, rfl⟩ := List.mem_map.mp appended
        refine List.mem_append_right _ ?_
        rw [← named, (mutationDataFile_eq _ given).1]
        exact List.mem_map_of_mem listed
      exact CatalogHistory.knownTable new (named ▸ added dataFile appended) rfl
    · have used := List.mem_append_left (CatalogOperation.dataMutation now input).newDataFileIds (data.used stored)
      rcases kept.kept stored with same | closed
      · exact CatalogHistory.knownTable used same rfl
      · exact CatalogHistory.knownTable used closed rfl
  · intro row member
    exact List.mem_append_right _ (List.mem_map_of_mem member)
  · intro row member
    have untouched := history.kv.commit_deleteFileIndexes_congr before
    rw [untouched]
    exact deletes.unnamed (fresh.2.2 _ (List.mem_map_of_mem member))

variable {compaction result : DataFileCompaction}

/-- Only the closed sources of a rewrite touch delete files. -/
theorem stageRewriteDelete_closes {kv : CatalogKv} {order : CatalogOrderId} {tableId : TableId}
    (staged : stageRewriteDelete kv now compaction tableId order = .ok (result, batch)) :
    ∃ expired, compaction.sourceFileIds.foldlM (expireRewriteSource kv now ((latestSnapshot kv).elim [] fun snapshot =>
          listInlineFileDeletionsAt kv tableId snapshot.order) order)
        (stageSnapshotOperation (stageSnapshot {} (snapshotRowForNextSequence (latestSnapshot kv) order now)) order
          .rewriteDelete tableId) = .ok expired ∧ batch.deleteFileMaps = expired.deleteFileMaps := by
  obtain ⟨expired, expires, valued, values, rfl, rfl⟩ := stageRewriteDelete_ok staged
  refine ⟨expired, expires, ?_⟩
  rw [(stageNewFilePartitionValues_changes values).deleteFileMaps, (stageCompactionStats_changes _ _ _).deleteFileMaps]
  exact foldl_view KvBatch.deleteFileMaps (stageAppendDataFile_deleteFileMaps kv) _ _

theorem stageRewriteDelete_follows (deletes : DeleteFilesSound history) (data : DataFilesSound history)
    {normalized : DataFileCompaction} {tableId : TableId}
    (fresh : history.FreshFileIds (.rewriteDelete now compaction))
    (valid : validateRewriteDelete history.kv compaction = .ok (tableId, normalized))
    (staged : stageRewriteDelete history.kv now normalized tableId history.kv.generatedOrderId = .ok (result, batch)) :
    history.kv.deleteFileIndexes.Follows (history.kv.commit batch).deleteFileIndexes
      (history.committed (.rewriteDelete now compaction) batch).deleteFileScope history.kv.generatedOrderId := by
  obtain ⟨tables, sound⟩ := deletes.sound
  have commits : CatalogOperation.Commits history.kv (.rewriteDelete now compaction) batch := .rewriteDelete valid staged
  obtain ⟨_, _, normalizes⟩ := validateRewriteDelete_ok valid
  have ids := ids_of_places (normalizeRewriteReplacementRowIds_places normalizes)
  have sourceIds : normalized.newFiles.map DataFileRow.dataFileId =
      (CatalogOperation.rewriteDelete now compaction).newDataFileIds := ids
  have closed := stageRewriteDelete_closed staged data.coherent.named fun dataFileId new =>
    data.unknown (fresh.1.2 dataFileId (sourceIds ▸ new))
  have opening := (deletes.opening data fresh.1 commits).congr (show KvBatch.deleteFileMaps
    (stageSnapshotOperation (stageSnapshot {} (snapshotRowForNextSequence (latestSnapshot history.kv)
      history.kv.generatedOrderId now)) history.kv.generatedOrderId .rewriteDelete tableId) =
      ({} : KvBatch).deleteFileMaps from rfl)
  have ended : ∀ sourceFileId ∈ normalized.sourceFileIds, ∀ row, history.kv.dataFile.get? sourceFileId = some row →
      (history.committed (.rewriteDelete now compaction) batch).deleteFileScope.KnownTable sourceFileId row.tableId ∧
        (history.committed (.rewriteDelete now compaction) batch).deleteFileScope.Ended sourceFileId
          history.kv.generatedOrderId := by
    intro sourceFileId member row stored
    obtain ⟨same, alsoStored, found⟩ := closed sourceFileId member
    obtain rfl := Option.some.inj (stored.symm.trans alsoStored)
    have used := List.mem_append_left (CatalogOperation.rewriteDelete now compaction).newDataFileIds (data.used stored)
    refine ⟨CatalogHistory.knownTable used found rfl, ?_⟩
    intro after alsoFound
    obtain rfl := Option.some.inj (found.symm.trans alsoFound)
    exact ⟨history.kv.generatedOrderId, le_rfl, rfl⟩
  generalize (history.committed (.rewriteDelete now compaction) batch).deleteFileScope = scope at opening ended ⊢
  obtain ⟨expired, expires, untouched⟩ := stageRewriteDelete_closes staged
  refine DeleteFileIndexes.Follows.congr ?_ untouched
  have follows := foldlM_invariant
    (fun state => history.kv.deleteFileIndexes.Follows (history.kv.commit state).deleteFileIndexes scope
      history.kv.generatedOrderId ∧ state.currentDeleteFile.writes = []) expires ⟨opening, rfl⟩ (by
      intro state sourceFileId next member ⟨follows, unwritten⟩ taken
      obtain ⟨source, sourceBatch, expiresSource, rest⟩ := expireRewriteSource_ok taken
      have sameMaps := expireCompactedSourceFile_deleteFileMaps expiresSource
      have followsSource := follows.congr sameMaps
      have stillUnwritten : sourceBatch.currentDeleteFile.writes = [] := by
        simp only [KvBatch.deleteFileMaps, Prod.mk.injEq] at sameMaps
        rw [sameMaps.2.1]
        exact unwritten
      rcases rest with ⟨_, rfl⟩ | ⟨deleteFileId, _, closes⟩
      · exact ⟨followsSource, stillUnwritten⟩
      · obtain ⟨_, _, _, expiresRow, _⟩ := expireCompactedSourceFile_ok expiresSource
        obtain ⟨row, stored, _, _, same, _⟩ := stageExpireCurrentDataFile_ok expiresRow
        obtain ⟨known, endedSource⟩ := ended sourceFileId member row stored
        obtain rfl := data.coherent.named stored
        exact expireCompactedDeleteFile_follows followsSource sound deletes.older
          (same ▸ known.2) (same ▸ endedSource) stillUnwritten closes)
  exact follows.1

theorem stageAppendDataFiles_deleteFileMaps {kv : CatalogKv} {rows result : List DataFileRow}
    {inlineFlushes : List InlineTableFlush} {order : CatalogOrderId}
    (staged : stageAppendDataFiles kv now rows inlineFlushes order = .ok (result, batch)) :
    batch.deleteFileMaps = ({} : KvBatch).deleteFileMaps := by
  obtain ⟨_, flushes, rfl⟩ := stageAppendDataFiles_ok staged
  rw [(foldlM_stageFlushInlineTablePayloads_changes flushes).deleteFileMaps]
  exact foldl_view KvBatch.deleteFileMaps (stageAppendDataFile_deleteFileMaps kv) _ _

theorem stageMergeAdjacent_deleteFileMaps {kv : CatalogKv}
    {order : CatalogOrderId} (staged : stageMergeAdjacent kv now compaction order = .ok (result, batch)) :
    batch.deleteFileMaps = ({} : KvBatch).deleteFileMaps := by
  obtain ⟨sources, expired, expires, newFiles, derives, valued, values, rfl, rfl⟩ := stageMergeAdjacent_ok staged
  have expiredMaps : expired.deleteFileMaps = ({} : KvBatch).deleteFileMaps :=
    expireMergeSources_invariant (fun state => state.deleteFileMaps = ({} : KvBatch).deleteFileMaps) expires rfl
      fun untouched expiresSource => (expireCompactedSourceFile_deleteFileMaps expiresSource).trans untouched
  rw [(stageCompactionStats_changes _ _ _).deleteFileMaps, (stageNewFilePartitionValues_changes values).deleteFileMaps,
    ← expiredMaps]
  refine foldl_view KvBatch.deleteFileMaps ?_ _ _
  intro state newFile
  exact stageAppendDataFileWithoutChange_deleteFileMaps kv state newFile

/-- Every commit follows the delete file maps it started from. -/
theorem DeleteFilesSound.follows (deletes : DeleteFilesSound history) (data : DataFilesSound history)
    (fresh : history.FreshFileIds operation) (commits : operation.Commits history.kv batch) :
    history.kv.deleteFileIndexes.Follows (history.kv.commit batch).deleteFileIndexes
      (history.committed operation batch).deleteFileScope history.kv.generatedOrderId := by
  have untouched (same : batch.deleteFileMaps = ({} : KvBatch).deleteFileMaps) :=
    DeleteFileIndexes.Follows.congr (deletes.opening data fresh.1 commits) same
  cases commits with
  | createTable _ staged =>
    obtain ⟨_, rfl⟩ := stageCreateTableRow_ok staged
    exact untouched rfl
  | appendDataFiles staged => exact untouched (stageAppendDataFiles_deleteFileMaps staged)
  | dataMutation valid staged => exact stageDataMutation_follows deletes data fresh (.dataMutation valid staged) staged
  | mergeAdjacent _ staged => exact untouched (stageMergeAdjacent_deleteFileMaps staged)
  | rewriteDelete valid staged => exact stageRewriteDelete_follows deletes data fresh valid staged
  | registerDeleteFiles staged => exact stageRegisterDeleteFiles_follows deletes data fresh staged
  | inlineFileDeletions staged =>
    obtain ⟨_, rfl⟩ := stageInlineFileDeletions_ok staged
    exact untouched (stageNewInlineFileDeletions_changes _ _ _).deleteFileMaps
  | registerInlinePayload _ staged => exact untouched (stageInlineTablePayload_changes staged).deleteFileMaps
  | registerInlinePayloadWithTable _ staged =>
    exact untouched (stageInlineTablePayloadWithTable_changes staged).deleteFileMaps

theorem DeleteFilesSound.commit (deletes : DeleteFilesSound history) (data : DataFilesSound history)
    (fresh : history.FreshFileIds operation) (commits : operation.Commits history.kv batch) :
    DeleteFilesSound (history.committed operation batch) :=
  have follows := deletes.follows data fresh commits
  ⟨follows.sound, follows.opened⟩

end

end DucklakeCatalog
