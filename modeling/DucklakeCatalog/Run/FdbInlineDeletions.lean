import DucklakeCatalog.Run.FdbDeleters

/-! Inline file deletions against commits that drop, merge or rewrite their
file. Only files with a delete file or a drop are validated at the commit. -/
namespace DucklakeCatalog.Fdb

open KeyedStore

/-- The commit deletes rows of a file it does not itself append. -/
structure DeletesInlineFrom (moment : Moment) (readOrder : CatalogOrderId) (dataFileId : DataFileId) : Prop where
  commits : ∃ attempt plan, moment.commit = some (.dataMutation attempt) ∧ attempt.reserved = .ok plan ∧
    plan.readContext.order = some readOrder ∧
    dataFileId ∈ plan.mutation.inlineFileDeletions.map InlineFileDeletionRow.dataFileId ∧
    dataFileId ∉ plan.mutation.dataFiles.map DataFileRow.dataFileId

/-- The files the commit deletes from inline are current when it commits. -/
def LandsOnCurrentFiles (earlier : FdbHistory) (moment : Moment) : Prop :=
  ∀ readOrder row, DeletesInlineFrom moment readOrder row.dataFileId →
    earlier.current.store.kv.dataFile.get? row.dataFileId = some row → row.validity.beginOrder ≤ readOrder →
    (earlier.current.store.kv.currentDataFile.get? ⟨row.tableId, row.dataFileId⟩).isSome

/-- The commit also writes a delete file for the file or drops it. -/
def AlsoValidates (moment : Moment) (row : DataFileRow) : Prop :=
  ∃ attempt plan prepared known, moment.commit = some (.dataMutation attempt) ∧ attempt.reserved = .ok plan ∧
    prepareDataMutation attempt.seen plan = .ok prepared ∧ ValidatedTarget plan prepared known ∧
    known.dataFileId = row.dataFileId ∧ known.tableId = row.tableId

/-- The file was current or has been appended since, and no commit since has dropped, merged or rewritten it. -/
structure NotDroppedSince (history : FdbHistory) (past : FdbStore) (row : DataFileRow) : Prop where
  present : (past.kv.currentDataFile.get? ⟨row.tableId, row.dataFileId⟩).isSome ∨
    ∃ plan, CommittedAfter history past.lastOrder plan ∧
      row.dataFileId ∈ plan.mutation.dataFiles.map DataFileRow.dataFileId
  kept : ∀ plan, CommittedAfter history past.lastOrder plan → row.dataFileId ∉ plan.mutation.droppedDataFileIds

/-- What the files of a commit's inline deletions need. -/
def DeletesFromLiveFiles (earlier : FdbHistory) (moment : Moment) : Prop :=
  ∀ readOrder row, DeletesInlineFrom moment readOrder row.dataFileId →
    earlier.current.store.kv.dataFile.get? row.dataFileId = some row → row.validity.beginOrder ≤ readOrder →
    AlsoValidates moment row ∨
      ∃ past ∈ FdbHistory.stores earlier, past.lastOrder = readOrder ∧ NotDroppedSince earlier past row

/-- A file that nothing drops stays current. -/
theorem current_of_not_dropped {history : FdbHistory} (run : FdbRun history) {past : FdbStore} {row : DataFileRow}
    (before : past ∈ FdbHistory.stores history) (since : NotDroppedSince history past row)
    (stored : history.current.store.kv.dataFile.get? row.dataFileId = some row) :
    (history.current.store.kv.currentDataFile.get? ⟨row.tableId, row.dataFileId⟩).isSome := by
  induction run with
  | @start state isInitial =>
    obtain rfl : past = state.store := by simpa [FdbHistory.stores] using before
    rcases since.present with current | ⟨plan, committed, _⟩
    · exact current
    · exact absurd committed (not_committedAfter_current (History.Reachable.start isInitial) plan)
  | @step history moment run taken ih =>
    rw [FdbHistory.stores, History.states_extend, List.map_cons, List.mem_cons] at before
    rcases before with rfl | before
    · rcases since.present with current | ⟨plan, committed, _⟩
      · exact current
      · exact absurd committed (not_committedAfter_current (History.Reachable.step run taken) plan)
    · obtain ⟨commit, commits, _, applies⟩ := taken
      have keptBefore : ∀ plan, CommittedAfter history past.lastOrder plan →
          row.dataFileId ∉ plan.mutation.droppedDataFileIds :=
        fun plan committed => since.kept plan (committedAfter_extend.mpr (Or.inl committed))
      rcases applies.cases with ⟨attempt, rfl, ⟨applied⟩⟩ | ⟨other, left⟩
      · have committed := (applied.committedAfter run commits before).2
        rcases applied.dataFile_of_not_dropped (since.kept _ committed) with ⟨_, found, present, listed⟩ | same
        · obtain rfl : found = row := Option.some.inj (present.symm.trans stored)
          exact listed
        · obtain ⟨notAppended, sameStored, sameCurrent⟩ := same
          change (moment.store.kv.currentDataFile.get? _).isSome
          rw [sameCurrent]
          refine ih before ⟨?_, keptBefore⟩ (sameStored.symm.trans stored)
          rcases since.present with current | ⟨plan, after, appended⟩
          · exact Or.inl current
          · rcases committedAfter_extend.mp after with earlier | ⟨_, other, commits', reserves⟩
            · exact Or.inr ⟨plan, earlier, appended⟩
            · obtain rfl : attempt = other := by simpa [commits] using commits'
              obtain rfl : applied.plan = plan := Except.ok.inj (applied.reserves.symm.trans reserves)
              exact absurd appended notAppended
      · change (moment.store.kv.currentDataFile.get? _).isSome
        rw [left.files.currentDataFile]
        refine ih before ⟨?_, keptBefore⟩ ?_
        · rcases since.present with current | ⟨plan, after, appended⟩
          · exact Or.inl current
          · rcases committedAfter_extend.mp after with earlier | ⟨_, attempt, commits', _⟩
            · exact Or.inr ⟨plan, earlier, appended⟩
            · exact absurd (Option.some.inj (commits.symm.trans commits')) (other attempt)
        · exact (congrArg (OrderedMap.get? · row.dataFileId) left.files.dataFile.symm).trans stored

/-- In a run whose inline deletions all name live files, each of them lands on a current file. -/
theorem inlineDeletions_land_on_current_files {history : FdbHistory} (run : FdbRun history)
    (live : ∀ earlier moment, history.Took earlier moment → DeletesFromLiveFiles earlier moment) :
    ∀ earlier moment, history.Took earlier moment → LandsOnCurrentFiles earlier moment := by
  intro earlier moment took readOrder row deletes stored begun
  obtain ⟨runs, commit, commits, _, applies⟩ := run.took took
  rcases live earlier moment took readOrder row deletes stored begun with validates | ⟨past, before, _, since⟩
  · obtain ⟨attempt, plan, prepared, known, commits', reserves, prepares, target, sameFile, sameTable⟩ := validates
    obtain rfl : commit = .dataMutation attempt := Option.some.inj (commits.symm.trans commits')
    obtain ⟨applied⟩ := transact_staged applies
    obtain rfl : applied.plan = plan := Except.ok.inj (applied.reserves.symm.trans reserves)
    obtain rfl : applied.prepared = prepared := Except.ok.inj (applied.prepares.symm.trans prepares)
    rw [← sameFile, ← sameTable]
    exact applied.target_current target
  · exact current_of_not_dropped runs before since stored

/-! ## A deletion and a drop of one file -/

/-- A client that deletes one row of the inventory file inline. -/
def inventoryInlineDeleter (read : FdbHistory) : MutationAttempt :=
  { plan := {
      mutation := { inlineFileDeletions := [⟨1, 0, 4, ⟨autoOrder, none⟩⟩] }
      readContext := { order := some read.current.store.lastOrder } }
    recoveryId := none
    seen := read.current.store }

def inventoryInlineDeleted : FdbHistory := inventoryAppended.commit (inventoryInlineDeleter inventoryAppended)

theorem inventoryInlineDeleted_run : FdbRun inventoryInlineDeleted :=
  FdbRun.commit inventoryAppended_run inventoryAppended.store_mem (by decide +kernel)

theorem deletesInlineFrom_file {read : FdbHistory} {store : FdbStore} {readOrder : CatalogOrderId}
    {dataFileId : DataFileId}
    (deletes : DeletesInlineFrom ⟨store, some (.dataMutation (inventoryInlineDeleter read))⟩ readOrder dataFileId) :
    dataFileId = 0 ∧ readOrder = read.current.store.lastOrder := by
  obtain ⟨attempt, plan, commits, reserves, reads, listed, _⟩ := deletes.commits
  obtain rfl : inventoryInlineDeleter read = attempt := by simpa using commits
  have reserved : (inventoryInlineDeleter read).reserved = .ok (inventoryInlineDeleter read).plan := rfl
  obtain rfl : (inventoryInlineDeleter read).plan = plan := Except.ok.inj (reserved.symm.trans reserves)
  refine ⟨?_, ?_⟩
  · simpa [inventoryInlineDeleter] using listed
  · simpa [inventoryInlineDeleter, eq_comm] using reads

/-- The inline deleter reads the newest state, where the file is current. -/
theorem inventoryInlineDeleted_lands :
    FdbRun inventoryInlineDeleted ∧ inventoryInlineDeleted.Took inventoryAppended inventoryInlineDeleted.current ∧
      ∀ earlier moment, inventoryInlineDeleted.Took earlier moment → LandsOnCurrentFiles earlier moment := by
  refine ⟨inventoryInlineDeleted_run, ⟨[], rfl⟩,
    inlineDeletions_land_on_current_files inventoryInlineDeleted_run ?_⟩
  intro earlier moment took readOrder row deletes stored begun
  rcases History.took_extend.mp took with ⟨rfl, rfl⟩ | took
  · obtain ⟨sameFile, sameOrder⟩ := deletesInlineFrom_file deletes
    have file : inventoryAppended.current.store.kv.dataFile.get? 0 = some inventoryStoredFile := by decide +kernel
    obtain rfl : inventoryStoredFile = row := Option.some.inj (file.symm.trans (sameFile ▸ stored))
    refine Or.inr ⟨_, inventoryAppended.store_mem, sameOrder.symm, Or.inl (by decide +kernel), ?_⟩
    intro plan committed
    exact absurd committed (not_committedAfter_current inventoryAppended_run plan)
  · rcases History.took_extend.mp took with ⟨rfl, rfl⟩ | took
    · obtain ⟨attempt, plan, commits, reserves, reads, _⟩ := deletes.commits
      obtain rfl := FdbCommit.dataMutation.inj (Option.some.inj commits)
      rw [reserveMutationFileIds_readOrder reserves] at reads
      simp at reads
    · exact absurd took (History.not_took_start _ _ _)

/-- The file is dropped between the read and the commit of its inline deletion. -/
def inventoryDropped : FdbHistory :=
  inventoryAppended.commit
    { plan := { mutation := { droppedDataFileIds := [0] } }, recoveryId := none, seen := inventoryAppended.current.store }

def inventoryDeletedAfterDrop : FdbHistory := inventoryDropped.commit (inventoryInlineDeleter inventoryAppended)

theorem inventoryDropped_run : FdbRun inventoryDropped :=
  FdbRun.commit inventoryAppended_run inventoryAppended.store_mem (by decide +kernel)

theorem inventoryDeletedAfterDrop_run : FdbRun inventoryDeletedAfterDrop :=
  FdbRun.commit inventoryDropped_run (FdbHistory.mem_extend inventoryAppended.store_mem _) (by decide +kernel)

theorem inlineDeletion_lands_on_dropped_file :
    ¬∀ history, FdbRun history → ∀ earlier moment, history.Took earlier moment → LandsOnCurrentFiles earlier moment := by
  intro lands
  have deletes : DeletesInlineFrom inventoryDeletedAfterDrop.current 2 0 :=
    ⟨_, _, rfl, rfl, by decide +kernel, by decide +kernel, by decide +kernel⟩
  have current := lands inventoryDeletedAfterDrop inventoryDeletedAfterDrop_run inventoryDropped _ ⟨[], rfl⟩ 2
    (inventoryStoredFile.withEndOrder (some 3)) deletes (by decide +kernel) (by decide +kernel)
  have missing : (inventoryDropped.current.store.kv.currentDataFile.get? ⟨1, 0⟩).isSome = false := by decide +kernel
  exact Bool.false_ne_true (missing.symm.trans current)

end DucklakeCatalog.Fdb
