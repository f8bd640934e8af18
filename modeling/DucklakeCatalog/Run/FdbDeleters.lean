import DucklakeCatalog.Run.FdbHistory

/-! Concurrent deleters of one data file. Each of them read at some order and
writes a delete file that replaces the one current when it commits. -/
namespace DucklakeCatalog.Fdb

open KeyedStore

/-- The commit writes a delete file for a data file that was committed by the order it read at. -/
structure DeletesFrom (moment : Moment) (readOrder : CatalogOrderId) (row : DataFileRow) : Prop where
  commits : ∃ attempt plan prepared, moment.commit = some (.dataMutation attempt) ∧
    attempt.reserved = .ok plan ∧ prepareDataMutation attempt.seen plan = .ok prepared ∧
    plan.readContext.order = some readOrder ∧
    row.dataFileId ∈ plan.mutation.deleteFiles.map DeleteFileRow.dataFileId ∧ ValidatedTarget plan prepared row

/-- The delete file a deleter replaces is the one it read, or there was none then and now. -/
def KeepsDeletes (earlier : FdbHistory) (moment : Moment) : Prop :=
  ∀ readOrder row past, DeletesFrom moment readOrder row → past ∈ FdbHistory.stores earlier →
    past.lastOrder = readOrder →
    earlier.current.store.kv.currentDeleteFile.get? row.dataFileId = past.kv.currentDeleteFile.get? row.dataFileId

/-- The file had no delete file at the order, and each one committed for it since begins after the order. -/
def FirstDeletesBeginLater (history : FdbHistory) (past : FdbStore) (dataFileId : DataFileId) : Prop :=
  past.kv.currentDeleteFile.get? dataFileId = none ∧
    ∀ plan, CommittedAfter history past.lastOrder plan → ∀ row ∈ plan.mutation.deleteFiles,
      row.dataFileId = dataFileId →
        row.validity.beginOrder = autoOrder ∨ past.lastOrder < row.validity.beginOrder

/-- Nothing committed since the order has replaced or expired the file's delete file. -/
def DeletesUnchangedSince (history : FdbHistory) (past : FdbStore) (dataFileId : DataFileId) : Prop :=
  ∀ plan, CommittedAfter history past.lastOrder plan → dataFileId ∉ plan.deleteFileTargets

/-- What a deleter needs of the commits since it read. -/
def ReadsCurrentDeletes (earlier : FdbHistory) (moment : Moment) : Prop :=
  ∀ readOrder row past, DeletesFrom moment readOrder row → past ∈ FdbHistory.stores earlier →
    past.lastOrder = readOrder →
    FirstDeletesBeginLater earlier past row.dataFileId ∨ DeletesUnchangedSince earlier past row.dataFileId

variable {history : FdbHistory} {past : FdbStore} {dataFileId : DataFileId} {attempt : MutationAttempt}

/-- While nothing touches the file's delete file it stays what it was. -/
theorem currentDeleteFile_unchanged (run : FdbRun history) (before : past ∈ FdbHistory.stores history)
    (unchanged : DeletesUnchangedSince history past dataFileId) :
    history.current.store.kv.currentDeleteFile.get? dataFileId = past.kv.currentDeleteFile.get? dataFileId := by
  induction run with
  | start isInitial =>
    obtain rfl : past = _ := by simpa [FdbHistory.stores] using before
    rfl
  | @step history moment run taken ih =>
    rw [FdbHistory.stores, History.states_extend, List.map_cons, List.mem_cons] at before
    rcases before with rfl | before
    · rfl
    · have kept := ih before fun plan committed => unchanged plan (committedAfter_extend.mpr (Or.inl committed))
      obtain ⟨commit, commits, _, applies⟩ := taken
      rcases applies.cases with ⟨attempt, rfl, ⟨applied⟩⟩ | ⟨_, left⟩
      · have committed := (applied.committedAfter run commits before).2
        rw [← kept]
        exact applied.currentDeleteFile_of_not_target (unchanged _ committed)
      · rw [← kept]
        exact congrArg (OrderedMap.get? · dataFileId) left.files.currentDeleteFile

/-- A file without delete file at an order only gets ones that begin later. -/
theorem currentDeleteFile_begins_later (run : FdbRun history) (before : past ∈ FdbHistory.stores history)
    (first : FirstDeletesBeginLater history past dataFileId) :
    ∀ current, history.current.store.kv.currentDeleteFile.get? dataFileId = some current →
      past.lastOrder < current.validity.beginOrder := by
  induction run with
  | start isInitial =>
    obtain rfl : past = _ := by simpa [FdbHistory.stores] using before
    intro current found
    exact absurd (first.1.symm.trans found) (by simp)
  | @step history moment run taken ih =>
    rw [FdbHistory.stores, History.states_extend, List.map_cons, List.mem_cons] at before
    rcases before with rfl | before
    · intro current found
      exact absurd (first.1.symm.trans found) (by simp)
    · have kept := ih before ⟨first.1, fun plan committed => first.2 plan (committedAfter_extend.mpr (Or.inl committed))⟩
      obtain ⟨commit, commits, _, applies⟩ := taken
      rcases applies.cases with ⟨attempt, rfl, ⟨applied⟩⟩ | ⟨_, left⟩
      · obtain ⟨later, committed⟩ := applied.committedAfter run commits before
        refine applied.currentDeleteFile
          (fun current => ∀ row, current = some row → past.lastOrder < row.validity.beginOrder) kept ?_ ?_
        · exact fun _ row found => absurd found (by simp)
        · intro given listed sameFile current timelineOrder soFar row found
          rw [Option.some.injEq] at found
          rw [← found, stampedDeleteFile_beginOrder]
          unfold resolveOrder
          cases current with
          | none =>
            -- The file had no delete file: the order asked for counts, or the commit's own.
            rcases first.2 _ committed given listed sameFile with auto | asked
            · rw [if_pos (by simpa [DeleteFileRow.withEndOrder] using auto)]
              exact later
            · split
              · exact later
              · exact asked
          | some replaced =>
            have begins := soFar replaced rfl
            split
            · exact later
            · exact begins
      · intro current found
        refine kept current ?_
        rw [← found]
        exact congrArg (OrderedMap.get? · dataFileId) left.files.currentDeleteFile.symm

/-- In a run where every deleter finds the deletes it read, none of them loses another's delete. -/
theorem deleters_keep_deletes {history : FdbHistory} (run : FdbRun history)
    (reads : ∀ earlier moment, history.Took earlier moment → ReadsCurrentDeletes earlier moment) :
    ∀ earlier moment, history.Took earlier moment → KeepsDeletes earlier moment := by
  intro earlier moment took readOrder row past deletes before atOrder
  obtain ⟨runs, commit, commits, _, applies⟩ := run.took took
  rcases reads earlier moment took readOrder row past deletes before atOrder with first | unchanged
  · obtain ⟨attempt, plan, prepared, commits', reserves, prepares, readsAt, listed, target⟩ := deletes.commits
    obtain rfl : commit = .dataMutation attempt := by
      rw [commits, Option.some.injEq] at commits'
      exact commits'
    obtain ⟨applied⟩ := transact_staged applies
    obtain rfl : applied.plan = plan := by
      rw [applied.reserves, Except.ok.injEq] at reserves
      exact reserves
    obtain rfl : applied.prepared = prepared := by
      rw [applied.prepares, Except.ok.injEq] at prepares
      exact prepares
    rw [first.1]
    cases found : earlier.current.store.kv.currentDeleteFile.get? row.dataFileId with
    | none => rfl
    | some current =>
      have begun := applied.deleteFile_begun target listed readsAt found
      have later := currentDeleteFile_begins_later runs before first current found
      rw [atOrder] at later
      exact absurd begun (Nat.not_le_of_lt later)
  · exact currentDeleteFile_unchanged runs before unchanged

/-! ## Two deleters of one file -/

def inventoryTable : TableRow :=
  { tableId := 1, schemaId := 0, name := "inventory", validity := ⟨1, none⟩ }

/-- A catalog with one table and no files. -/
def inventoryStore : FdbStore :=
  { kv := { stageSnapshot {} (SnapshotRow.new 1 0 0) with
      currentTableRow := OrderedMap.insert .empty 1 inventoryTable
      nextOrder := 1 } }

def inventoryFile : DataFileRow :=
  { dataFileId := 0, tableId := 1, path := "inventory.parquet", recordCount := 10, fileSizeBytes := 100
    validity := ⟨autoOrder, none⟩ }

def inventoryDelete (path : String) : DeleteFileRow :=
  { deleteFileId := 100, dataFileId := 0, path, recordCount := 1, fileSizeBytes := 10, validity := ⟨autoOrder, none⟩ }

def inventoryStart : FdbHistory := History.start ⟨inventoryStore, none⟩

def inventoryAppended : FdbHistory :=
  inventoryStart.commit
    { plan := { mutation := { dataFiles := [inventoryFile] } }, recoveryId := none, seen := inventoryStart.current.store }

/-- A deleter that reads the newest state of a history at its order. -/
def inventoryDeleter (read : FdbHistory) (path : String) (firstFileId : Nat) : MutationAttempt :=
  { plan := {
      mutation := { deleteFiles := [inventoryDelete path] }
      readContext := { order := some read.current.store.lastOrder } }
    recoveryId := none
    seen := read.current.store
    firstFileId }

def inventoryDeleted : FdbHistory := inventoryAppended.commit (inventoryDeleter inventoryAppended "first.delete" 1)

theorem inventoryAppended_run : FdbRun inventoryAppended :=
  FdbRun.commit (History.Reachable.start rfl) inventoryStart.store_mem (by decide +kernel)

theorem inventoryDeleted_run : FdbRun inventoryDeleted :=
  FdbRun.commit inventoryAppended_run inventoryAppended.store_mem (by decide +kernel)

theorem reserveMutationFileIds_readOrder {first : Nat} {plan reserved : FdbMutationPlan}
    (reserves : reserveMutationFileIds first plan = .ok reserved) :
    reserved.readContext.order = plan.readContext.order := by
  unfold reserveMutationFileIds at reserves
  rw [bind_eq_ok] at reserves
  obtain ⟨proposed, _, reserves⟩ := reserves
  split at reserves
  · simp only [pure_eq_ok] at reserves
    rw [reserves]
  · simp only [pure_eq_ok] at reserves
    rw [← reserves]

/-- A deleter that has read the newest state needs nothing more. -/
theorem readsCurrentDeletes_of_newest {earlier : FdbHistory} (run : FdbRun earlier) {moment : Moment}
    (commits : moment.commit = some (.dataMutation attempt))
    (newest : ∀ order, attempt.plan.readContext.order = some order → order = earlier.current.store.lastOrder) :
    ReadsCurrentDeletes earlier moment := by
  intro readOrder row past deletes _ atOrder
  obtain ⟨found, plan, _, commits', reserves, _, reads, _⟩ := deletes.commits
  obtain rfl : attempt = found := by simpa [commits] using commits'
  refine Or.inr fun later committed => ?_
  rw [reserveMutationFileIds_readOrder reserves] at reads
  rw [atOrder, newest readOrder reads] at committed
  exact absurd committed (not_committedAfter_current run later)

/-- The first deleter of the file reads the newest state and commits. -/
theorem inventoryDeleted_keeps_deletes :
    FdbRun inventoryDeleted ∧ inventoryDeleted.Took inventoryAppended inventoryDeleted.current ∧
      ∀ earlier moment, inventoryDeleted.Took earlier moment → KeepsDeletes earlier moment := by
  refine ⟨inventoryDeleted_run, ⟨[], rfl⟩, deleters_keep_deletes inventoryDeleted_run ?_⟩
  intro earlier moment took
  rcases History.took_extend.mp took with ⟨rfl, rfl⟩ | took
  · exact readsCurrentDeletes_of_newest inventoryAppended_run rfl (by simp [inventoryDeleter])
  · rcases History.took_extend.mp took with ⟨rfl, rfl⟩ | took
    · exact readsCurrentDeletes_of_newest (History.Reachable.start rfl) rfl (by simp)
    · exact absurd took (History.not_took_start _ _ _)

/-- Two clients read the same delete file and both replace it. -/
def inventoryReplaced : FdbHistory := inventoryDeleted.commit (inventoryDeleter inventoryDeleted "second.delete" 2)

def inventoryReplacedTwice : FdbHistory :=
  inventoryReplaced.commit (inventoryDeleter inventoryDeleted "third.delete" 3)

theorem inventoryReplaced_run : FdbRun inventoryReplaced :=
  FdbRun.commit inventoryDeleted_run inventoryDeleted.store_mem (by decide +kernel)

theorem inventoryReplacedTwice_run : FdbRun inventoryReplacedTwice :=
  FdbRun.commit inventoryReplaced_run (FdbHistory.mem_extend inventoryDeleted.store_mem _) (by decide +kernel)

/-- The file as a deleter loads it before its transaction. -/
def inventoryStoredFile : DataFileRow := inventoryFile.withBeginOrder 2

/-- The check behind `DeletesFrom`, evaluated on an attempt. -/
def MutationAttempt.deletesFrom (attempt : MutationAttempt) (readOrder : CatalogOrderId) (row : DataFileRow) : Bool :=
  match attempt.reserved with
  | .error _ => false
  | .ok plan =>
    match prepareDataMutation attempt.seen plan with
    | .error _ => false
    | .ok prepared =>
      plan.readContext.order = some readOrder &&
        row.dataFileId ∈ plan.mutation.deleteFiles.map DeleteFileRow.dataFileId &&
        row.dataFileId ∉ plan.mutation.dataFiles.map DataFileRow.dataFileId &&
        prepared.dataFileContext.get? row.dataFileId = some row && row.validity.beginOrder ≤ readOrder

theorem deletesFrom_of_check {readOrder : CatalogOrderId} {row : DataFileRow}
    {store : FdbStore} (deletes : attempt.deletesFrom readOrder row = true) :
    DeletesFrom ⟨store, some (.dataMutation attempt)⟩ readOrder row := by
  unfold MutationAttempt.deletesFrom at deletes
  split at deletes
  · simp at deletes
  · rename_i plan reserves
    split at deletes
    · simp at deletes
    · rename_i prepared prepares
      simp only [Bool.and_eq_true, decide_eq_true_eq] at deletes
      obtain ⟨⟨⟨⟨reads, listed⟩, committed⟩, known⟩, begun⟩ := deletes
      refine ⟨attempt, plan, prepared, rfl, reserves, prepares, reads, listed, ?_⟩
      refine ⟨List.mem_append_left _ listed, committed, known, ?_⟩
      intro order given
      rw [reads, Option.some.injEq] at given
      exact given ▸ begun

/-- The second client does not see that the delete file it read has been replaced. -/
theorem secondDeleter_loses_delete :
    ¬∀ history, FdbRun history → ∀ earlier moment, history.Took earlier moment → KeepsDeletes earlier moment := by
  intro keeps
  have deletes : DeletesFrom inventoryReplacedTwice.current 3 inventoryStoredFile :=
    deletesFrom_of_check (by decide +kernel)
  have same := keeps inventoryReplacedTwice inventoryReplacedTwice_run inventoryReplaced _ ⟨[], rfl⟩ 3
    inventoryStoredFile inventoryDeleted.current.store deletes
    (FdbHistory.mem_extend inventoryDeleted.store_mem _) (by decide +kernel)
  have different : inventoryReplaced.current.store.kv.currentDeleteFile.get? 0 ≠
      inventoryDeleted.current.store.kv.currentDeleteFile.get? 0 := by decide +kernel
  exact different same

end DucklakeCatalog.Fdb
