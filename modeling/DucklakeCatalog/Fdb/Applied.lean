import DucklakeCatalog.Fdb.Families

/-! What is known of a data mutation whose transaction has been staged. -/
namespace DucklakeCatalog.Fdb

open KeyedStore

/-- The stages of an accepted mutation's files, between the store before and after them. -/
structure FileStages (seen : CatalogKv) (now : Int) (order : CatalogOrderId) (plan : FdbMutationPlan)
    (prepared : PreparedDataMutation) (kv next : CatalogKv) where
  appended : CatalogKv
  partitioned : CatalogKv
  described : CatalogKv
  deleted : CatalogKv
  noted : CatalogKv
  dropped : CatalogKv
  appends : stageDataFiles order kv prepared.mutation.dataFiles = .ok appended
  partitions : stageFilePartitionValues prepared.dataFileContext appended prepared.mutation.partitionValues =
    .ok partitioned
  counts : described = stageFileStatsVersions order (prepared.mutation.fileColumnStats.foldl stageFileColumnStats
    partitioned) prepared.mutation.fileColumnStats
  describes : WritesFileDetails appended described
  deletes : stageDeleteFiles seen now order prepared described = .ok deleted
  notes : ∃ conflictMaxFileId,
    noted = { prepared.mutation.inlineFileDeletions.foldl (stageInlineFileDeletion order) deleted with conflictMaxFileId }
  drops : stageDroppedDataFiles seen now order plan.expiredObjectCleanupPolicy prepared.dataFileContext
    prepared.mutation.droppedDataFileIds noted = .ok dropped
  expires : next =
    stageExpiredDeleteFiles seen now order plan.expiredObjectCleanupPolicy plan.expiredDeleteFiles dropped

theorem stageMutationFiles_stages {seen kv next : CatalogKv} {now : Int} {order : CatalogOrderId}
    {plan : FdbMutationPlan} {prepared : PreparedDataMutation}
    (staged : stageMutationFiles seen now order plan prepared kv = .ok next) :
    Nonempty (FileStages seen now order plan prepared kv next) := by
  unfold stageMutationFiles at staged
  simp only [bind_eq_ok] at staged
  obtain ⟨appended, appends, partitioned, partitions, deleted, deletes, dropped, drops, staged⟩ := staged
  simp only [pure_eq_ok] at staged
  refine ⟨⟨appended, partitioned, _, deleted, _, dropped, appends, partitions, rfl, ?_, deletes, ?_, drops,
    staged.symm⟩⟩
  · exact (stageFilePartitionValues_writes partitions).trans (stageFileStats_writes order partitioned _)
  · cases (fileIdWatermarkCandidates prepared).max? with
    | none
    | some candidate => exact ⟨_, rfl⟩

namespace FileStages

variable {seen kv next : CatalogKv} {now : Int} {order : CatalogOrderId} {plan : FdbMutationPlan}
  {prepared : PreparedDataMutation}

section

variable (stages : FileStages seen now order plan prepared kv next)

include stages

theorem noted_eq : ∃ inlineFileDeletion conflictMaxFileId,
    stages.noted = { stages.deleted with inlineFileDeletion, conflictMaxFileId } := by
  obtain ⟨_, same⟩ := stages.notes
  obtain ⟨_, folded⟩ := stageInlineFileDeletions_writes order prepared.mutation.inlineFileDeletions stages.deleted
  exact ⟨_, _, same.trans (by rw [folded])⟩

theorem noted_sameFiles :
    SameFiles stages.deleted stages.noted := by
  obtain ⟨_, _, noted⟩ := stages.noted_eq
  rw [noted]
  exact ⟨rfl, rfl, rfl, rfl⟩

theorem next_writes :
    WritesDeleteFiles stages.dropped next := by
  obtain ⟨_, _, _, _, _, _, _, expired⟩ := stageExpiredDeleteFiles_writes seen now order
    plan.expiredObjectCleanupPolicy plan.expiredDeleteFiles stages.dropped
  exact ⟨_, _, _, _, _, _, _, stages.expires.trans expired⟩

/-- Only the appends and the drops write data files. -/
theorem noted_dataFile :
    stages.noted.dataFile = stages.appended.dataFile ∧
      stages.noted.currentDataFile = stages.appended.currentDataFile := by
  have described := stages.describes.sameFiles.1
  have deleted := (stageDeleteFiles_writes stages.deletes).others
  have noted := stages.noted_sameFiles
  exact ⟨noted.dataFile.trans (deleted.1.trans described.dataFile),
    noted.currentDataFile.trans (deleted.2.1.trans described.currentDataFile)⟩

end

end FileStages

/-- An attempt whose transaction commits, with everything its checks have established. -/
structure AppliedMutation (attempt : MutationAttempt) (store next : FdbStore) where
  plan : FdbMutationPlan
  prepared : PreparedDataMutation
  flushed : FdbStore
  items : Nat
  reserves : attempt.reserved = .ok plan
  prepares : prepareDataMutation attempt.seen plan = .ok prepared
  fenced : stageSnapshotFence store.kv plan.readContext.snapshotFence = .ok ()
  validated : rejectStaleDataFileTargetsInTransaction store attempt.recoveryId plan.readContext prepared = .ok false
  flushes : stagePreparedInlineFlushes store.commitOrder store prepared.inlineFlushes = some (flushed, items)
  owed : plan.mutation.inlineFlushes = [] ∨ items ≠ 0
  fresh : rejectExistingFileIds store.kv prepared.mutation = .ok ()
  accepted : stageAcceptedMutation attempt.seen.kv attempt.now store.commitOrder attempt.recoveryId plan prepared
    flushed = .ok next

theorem transact_staged {attempt : MutationAttempt} {store next : FdbStore}
    (commits : attempt.transact store = .ok (.staged next)) : Nonempty (AppliedMutation attempt store next) := by
  unfold MutationAttempt.transact at commits
  simp only [bind_eq_ok] at commits
  obtain ⟨plan, reserves, prepared, prepares, commits⟩ := commits
  unfold stageDataMutation at commits
  simp only [bind_eq_ok] at commits
  obtain ⟨⟨⟩, fenced, ⟨⟩, _, recovered, validated, commits⟩ := commits
  cases recovered with
  | true => simp [pure, Except.pure] at commits
  | false =>
    simp only [Bool.false_eq_true, if_false] at commits
    unfold stageValidatedMutation at commits
    split at commits
    · split at commits <;> simp at commits
    · rename_i flushed items flushes
      split at commits
      · split at commits <;> simp at commits
      · rename_i owed
        simp only [bind_eq_ok, pure_eq_ok, StagedMutation.staged.injEq] at commits
        obtain ⟨⟨⟩, fresh, accepted, accepts, rfl⟩ := commits
        refine ⟨⟨plan, prepared, flushed, items, reserves, prepares, fenced, validated, flushes, ?_, fresh, accepts⟩⟩
        by_cases noFlushes : plan.mutation.inlineFlushes = []
        · exact Or.inl noFlushes
        · exact Or.inr fun none => owed ⟨noFlushes, none⟩

/-! ## From the store before the mutation to its files -/

/-- The store just before the files are staged, and the one just after. -/
structure OpenedMutation (attempt : MutationAttempt) (store next flushed : FdbStore) (plan : FdbMutationPlan)
    (prepared : PreparedDataMutation) where
  begun : FdbStore
  inlined : FdbStore
  opened : CatalogKv
  filed : CatalogKv
  begins : begun = { stageCommitAttempt store.commitOrder attempt.recoveryId flushed with
    kv := stageSnapshot flushed.kv
      (mutationSnapshot attempt.now store.commitOrder prepared.snapshotSequence plan.commitMetadata) }
  inlines : stageOptionalInlineMutation store.commitOrder prepared.inlineMutation begun = .ok inlined
  opens : WritesSnapshotOperations inlined.kv opened
  files : FileStages attempt.seen.kv attempt.now store.commitOrder plan prepared opened filed
  ends : next = { inlined with kv := { filed with nextOrder := store.commitOrder } }

theorem AppliedMutation.opening {attempt : MutationAttempt} {store next : FdbStore}
    (applied : AppliedMutation attempt store next) :
    Nonempty (OpenedMutation attempt store next applied.flushed applied.plan applied.prepared) := by
  have accepted := applied.accepted
  unfold stageAcceptedMutation at accepted
  extract_lets attempted snapshot begun at accepted
  simp only [bind_eq_ok, pure_eq_ok] at accepted
  obtain ⟨inlined, inlines, filed, files, rfl⟩ := accepted
  obtain ⟨stages⟩ := stageMutationFiles_stages files
  refine ⟨⟨begun, inlined, _, filed, ?_, inlines, ?_, stages, rfl⟩⟩
  · cases recoveryId : attempt.recoveryId with
    | none
    | some recoveryId' => simp [begun, attempted, snapshot, stageCommitAttempt, recoveryId]
  · exact stageSnapshotOperations_writes store.commitOrder applied.plan.snapshotOperations inlined.kv

variable {attempt : MutationAttempt} {store next : FdbStore}

theorem OpenedMutation.begun_sameFiles {flushed : FdbStore} {plan : FdbMutationPlan} {prepared : PreparedDataMutation}
    (opening : OpenedMutation attempt store next flushed plan prepared) : SameFiles flushed.kv opening.begun.kv := by
  rw [opening.begins]
  exact ⟨rfl, rfl, rfl, rfl⟩

theorem AppliedMutation.opened_sameFiles (applied : AppliedMutation attempt store next)
    (opening : OpenedMutation attempt store next applied.flushed applied.plan applied.prepared) :
    SameFiles store.kv opening.opened := by
  have inlined := (stageOptionalInlineMutation_writes opening.inlines).sameFiles
  have flushed := (stagePreparedInlineFlushes_writes applied.flushes).sameFiles
  obtain ⟨_, same⟩ := opening.opens
  have opened : SameFiles opening.inlined.kv opening.opened := by
    rw [same]
    exact ⟨rfl, rfl, rfl, rfl⟩
  exact ((flushed.trans opening.begun_sameFiles).trans inlined).trans opened

theorem AppliedMutation.lastOrder (applied : AppliedMutation attempt store next) :
    next.lastOrder = store.commitOrder := by
  obtain ⟨opening⟩ := applied.opening
  rw [opening.ends]
  rfl

end DucklakeCatalog.Fdb
