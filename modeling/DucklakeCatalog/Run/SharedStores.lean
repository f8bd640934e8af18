import DucklakeCatalog.Fdb.TableOperations
import DucklakeCatalog.Run.FdbHistory

/-! Runs in which some clients commit files and rows while others change tables. -/
namespace DucklakeCatalog.Fdb

open KeyedStore

inductive SharedAction where
  | files (commit : FdbCommit)
  | tables (tableOperation : TableOperation) (commit : TableCommit)

/-- The states an action has read before its transaction. -/
def SharedAction.reads : SharedAction → List FdbStore
  | .files commit => commit.seen.toList
  | .tables tableOperation _ => tableOperation.reads

def SharedAction.Applies (store next : FdbStore) : SharedAction → Prop
  | .files commit => commit.Applies store next
  | .tables tableOperation commit =>
    tableOperation.prepare = .ok (some commit) ∧ commit.transact store = some next

structure SharedMoment where
  store : FdbStore
  action : Option SharedAction := none

abbrev SharedHistory := History SharedMoment

def SharedStep (history : SharedHistory) (moment : SharedMoment) : Prop :=
  ∃ action, moment.action = some action ∧ (∀ seen ∈ action.reads, seen ∈ history.states.map SharedMoment.store) ∧
    action.Applies history.current.store moment.store

/-- The operation commits what it has prepared, on the given store. -/
def SharedMoment.operating (store : FdbStore) (tableOperation : TableOperation) : SharedMoment :=
  match tableOperation.prepare with
  | .ok (some commit) =>
    match commit.transact store with
    | some next => ⟨next, some (.tables tableOperation commit)⟩
    | none => ⟨store, none⟩
  | _ => ⟨store, none⟩

theorem SharedMoment.operating_step (history : SharedHistory) (tableOperation : TableOperation)
    (reads : ∀ seen ∈ tableOperation.reads, seen ∈ history.states.map SharedMoment.store)
    (commits : (SharedMoment.operating history.current.store tableOperation).action.isSome) :
    SharedStep history (.operating history.current.store tableOperation) ∧
      ∀ action, (SharedMoment.operating history.current.store tableOperation).action = some action →
        ∃ commit, action = .tables tableOperation commit := by
  unfold operating at commits ⊢
  split at commits
  · rename_i commit prepares
    split at commits
    · rename_i next transacts
      exact ⟨⟨_, rfl, reads, prepares, transacts⟩, fun action same => ⟨commit, (Option.some.inj same).symm⟩⟩
    · cases commits
  · cases commits

/-- The attempt commits on the given store. -/
def SharedMoment.mutating (store : FdbStore) (attempt : MutationAttempt) : SharedMoment :=
  match StagedMutation.store? (attempt.transact store) with
  | some next => ⟨next, some (.files (.dataMutation attempt))⟩
  | none => ⟨store, none⟩

theorem SharedMoment.mutating_step (history : SharedHistory) (attempt : MutationAttempt)
    (read : attempt.seen ∈ history.states.map SharedMoment.store)
    (commits : (SharedMoment.mutating history.current.store attempt).action.isSome) :
    SharedStep history (.mutating history.current.store attempt) ∧
      (SharedMoment.mutating history.current.store attempt).action = some (.files (.dataMutation attempt)) := by
  unfold mutating at commits ⊢
  split at commits
  · rename_i next staged
    refine ⟨⟨_, rfl, ?_, ?_⟩, rfl⟩
    · intro seen isRead
      rw [List.mem_singleton.mp isRead]
      exact read
    · exact StagedMutation.store?_eq_some staged
  · cases commits

/-! ## The snapshots a data mutation commits -/

structure SnapshotCopies where
  snapshot : OrderedMap CatalogOrderId SnapshotRow
  snapshotTimestamp : OrderedMap SnapshotTimestampKey SnapshotRow
  latestSnapshotRow : OrderedMap Unit SnapshotRow
  rawSnapshotRow : OrderedMap RawSnapshotSequence SnapshotRow

def CatalogKv.snapshotCopies (kv : CatalogKv) : SnapshotCopies where
  snapshot := kv.snapshot
  snapshotTimestamp := kv.snapshotTimestamp
  latestSnapshotRow := kv.latestSnapshotRow
  rawSnapshotRow := kv.rawSnapshotRow

theorem WritesDataFiles.snapshotCopies {before after : CatalogKv} (writes : WritesDataFiles before after) :
    CatalogKv.snapshotCopies after = CatalogKv.snapshotCopies before := by
  obtain ⟨_, _, _, _, _, _, _, _, _, rfl⟩ := writes
  rfl

theorem WritesFileDetails.snapshotCopies {before after : CatalogKv} (writes : WritesFileDetails before after) :
    CatalogKv.snapshotCopies after = CatalogKv.snapshotCopies before := by
  obtain ⟨_, _, _, _, _, _, rfl⟩ := writes
  rfl

theorem WritesDeleteFiles.snapshotCopies {before after : CatalogKv} (writes : WritesDeleteFiles before after) :
    CatalogKv.snapshotCopies after = CatalogKv.snapshotCopies before := by
  obtain ⟨_, _, _, _, _, _, _, rfl⟩ := writes
  rfl

theorem WritesFlushes.snapshotCopies {before after : FdbStore} (writes : WritesFlushes before after) :
    CatalogKv.snapshotCopies after.kv = CatalogKv.snapshotCopies before.kv := by
  obtain ⟨_, _, _, _, _, _, rfl⟩ := writes
  rfl

theorem WritesInlineRows.snapshotCopies {before after : FdbStore} (writes : WritesInlineRows before after) :
    CatalogKv.snapshotCopies after.kv = CatalogKv.snapshotCopies before.kv := by
  obtain ⟨_, _, _, _, _, _, _, _, _, _, _, _, rfl⟩ := writes
  rfl

theorem FileStages.snapshotCopies {seen kv filed : CatalogKv} {now : Int} {order : CatalogOrderId}
    {plan : FdbMutationPlan} {prepared : PreparedDataMutation}
    (stages : FileStages seen now order plan prepared kv filed) :
    CatalogKv.snapshotCopies filed = CatalogKv.snapshotCopies kv := by
  have appended := (stageDataFiles_writes stages.appends).snapshotCopies
  have described := stages.describes.snapshotCopies
  have deleted := (stageDeleteFiles_writes stages.deletes).snapshotCopies
  have noted : CatalogKv.snapshotCopies stages.noted = CatalogKv.snapshotCopies stages.deleted := by
    obtain ⟨_, _, same⟩ := stages.noted_eq
    rw [same]
    rfl
  have dropped := (stageDroppedDataFiles_writes stages.drops).snapshotCopies
  have expired := stages.next_writes.snapshotCopies
  exact expired.trans (dropped.trans (noted.trans (deleted.trans (described.trans appended))))

/-- A data mutation commits one snapshot, at its own order. -/
theorem AppliedMutation.snapshotCopies {attempt : MutationAttempt} {store next : FdbStore}
    (applied : AppliedMutation attempt store next) :
    CatalogKv.snapshotCopies next.kv = CatalogKv.snapshotCopies (stageSnapshot store.kv
      (mutationSnapshot attempt.now store.commitOrder applied.prepared.snapshotSequence applied.plan.commitMetadata)) := by
  obtain ⟨opening⟩ := applied.opening
  have flushed := (stagePreparedInlineFlushes_writes applied.flushes).snapshotCopies
  have inlined := (stageOptionalInlineMutation_writes opening.inlines).snapshotCopies
  have opened : CatalogKv.snapshotCopies opening.opened = CatalogKv.snapshotCopies opening.inlined.kv := by
    obtain ⟨_, same⟩ := opening.opens
    rw [same]
    rfl
  have ended : CatalogKv.snapshotCopies next.kv = CatalogKv.snapshotCopies opening.filed :=
    congrArg (fun state : FdbStore => CatalogKv.snapshotCopies state.kv) opening.ends
  have begun : CatalogKv.snapshotCopies opening.begun.kv = CatalogKv.snapshotCopies (stageSnapshot applied.flushed.kv
      (mutationSnapshot attempt.now store.commitOrder applied.prepared.snapshotSequence applied.plan.commitMetadata)) :=
    congrArg (fun state : FdbStore => CatalogKv.snapshotCopies state.kv) opening.begins
  refine ended.trans (opening.files.snapshotCopies.trans (opened.trans (inlined.trans (begun.trans ?_))))
  simp only [CatalogKv.snapshotCopies, SnapshotCopies.mk.injEq] at flushed
  simp only [CatalogKv.snapshotCopies, stageSnapshot, flushed]

theorem TableCommit.transact_snapshotCopies (commit : TableCommit) {store next : FdbStore}
    (transacts : commit.transact store = some next) :
    CatalogKv.snapshotCopies next.kv =
      CatalogKv.snapshotCopies (stageSnapshot store.kv (commit.snapshot store.commitOrder)) :=
  congrArg (fun state : Recorded => (⟨state.snapshot, state.snapshotTimestamp, state.latestSnapshotRow,
    state.rawSnapshotRow⟩ : SnapshotCopies)) (commit.transact_recorded transacts).1

end DucklakeCatalog.Fdb
