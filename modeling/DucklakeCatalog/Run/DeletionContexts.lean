import DucklakeCatalog.Inline.DeletionContexts
import DucklakeCatalog.KeyedStore.History
import DucklakeCatalog.Run.Operations

/-! What a process reads through its caches while it and others commit. -/
namespace DucklakeCatalog

open KeyedStore

/-- The store that all processes share, and the caches of one of them. -/
structure CacheMoment where
  store : CatalogKv
  caches : InlineDeletionCaches := {}

abbrev CacheHistory := History CacheMoment

/-- The content a read meets: under a read context that of an earlier version, otherwise the newest one. -/
def CacheHistory.Sees (history : CacheHistory) (readContext : ReadContextId) (view : CatalogKv) : Prop :=
  view ∈ history.states.map CacheMoment.store ∧ (readContext = 0 → view = history.current.store)

/-- One step of this process or of another one. `Commits` says what a commit makes of a store. -/
inductive CacheStep (Commits : CatalogKv → CatalogKv → Prop) (history : CacheHistory) : CacheMoment → Prop
  /-- A commit of this process, and the invalidation that follows it. -/
  | ownCommit {next : CatalogKv} (commits : Commits history.current.store next) : CacheStep Commits history ⟨next, {}⟩
  | invalidate : CacheStep Commits history ⟨history.current.store, {}⟩
  | otherCommit {next : CatalogKv} (commits : Commits history.current.store next) :
      CacheStep Commits history ⟨next, history.current.caches⟩
  | evict (keepContext : InlineDeletionContextKey → Bool) (keepSnapshot : InlineDeletionSnapshotContextKey → Bool) :
      CacheStep Commits history ⟨history.current.store,
        ⟨history.current.caches.contexts.retain keepContext, history.current.caches.snapshots.retain keepSnapshot⟩⟩
  | readRows (key : InlineDeletionContextKey) {view : CatalogKv} (sees : history.Sees key.readContext view) :
      CacheStep Commits history ⟨history.current.store, (history.current.caches.forScope view key).2⟩
  | readSnapshot (key : InlineDeletionSnapshotContextKey) {view : CatalogKv} (sees : history.Sees key.readContext view) :
      CacheStep Commits history ⟨history.current.store, (history.current.caches.inlineFileDeletionsAt view key).2⟩

abbrev CacheRun (Commits : CatalogKv → CatalogKv → Prop) (history : CacheHistory) : Prop :=
  History.Reachable (fun moment => moment.caches = {}) (CacheStep Commits) history

variable {Commits : CatalogKv → CatalogKv → Prop} {history : CacheHistory}

/-- Every entry was loaded from a content that the store has had. -/
theorem CacheRun.faithful (run : CacheRun Commits history) :
    history.current.caches.Faithful (· ∈ history.states.map CacheMoment.store) := by
  induction run with
  | @start moment isInitial =>
    change moment.caches.Faithful _
    rw [isInitial]
    exact .empty _
  | @step history next earlier taken ih =>
    have kept := ih.mono fun kv member => List.mem_map.mpr (by
      obtain ⟨moment, listed, same⟩ := List.mem_map.mp member
      exact ⟨moment, List.mem_cons_of_mem next listed, same⟩)
    have seen {readContext : ReadContextId} {view : CatalogKv} (sees : CacheHistory.Sees history readContext view) :
        view ∈ (history.extend next).states.map CacheMoment.store := by
      rw [History.states_extend, List.map_cons]
      exact List.mem_cons_of_mem _ sees.1
    cases taken with
    | ownCommit commits => exact .empty _
    | invalidate => exact .empty _
    | otherCommit commits => exact kept
    | evict keepContext keepSnapshot => exact kept.retain keepContext keepSnapshot
    | readRows key sees => exact (kept.forScope (seen sees) key).1
    | readSnapshot key sees => exact (kept.inlineFileDeletionsAt (seen sees) key).1

/-- The content behind the entry that answers, if there is one, shows the same deletions at the snapshot order as the
content a read meets now: no commit in between has changed which of them are visible there. -/
def InlineDeletionCaches.UpToDate (caches : InlineDeletionCaches) (view : CatalogKv)
    (key : InlineDeletionSnapshotContextKey) : Prop :=
  ∀ source, caches.snapshotSource key = some source →
    listInlineFileDeletionsAt source key.tableId key.snapshotOrder =
      listInlineFileDeletionsAt view key.tableId key.snapshotOrder

/-- The same for the rows of a table or of one of its files. -/
def InlineDeletionCaches.RowsUpToDate (caches : InlineDeletionCaches) (view : CatalogKv) (key : InlineDeletionContextKey)
    (snapshotOrder : CatalogOrderId) : Prop :=
  ∀ source, caches.scopeSource key = some source →
    inlineDeletionRowsAt source key.tableId key.dataFileId snapshotOrder =
      inlineDeletionRowsAt view key.tableId key.dataFileId snapshotOrder

/-- A read through the caches answers like an uncached one exactly if the entry it meets is up to date. -/
theorem inlineFileDeletionsAt_exact_iff (run : CacheRun Commits history) {readContext : ReadContextId}
    {view : CatalogKv} (sees : history.Sees readContext view) (tableId : TableId) (snapshotOrder : CatalogOrderId) :
    ((history.current.caches.inlineFileDeletionsAt view ⟨readContext, tableId, snapshotOrder⟩).1 =
        listInlineFileDeletionsAt view tableId snapshotOrder ↔
      history.current.caches.UpToDate view ⟨readContext, tableId, snapshotOrder⟩) ∧
    ∀ dataFileId,
      ((history.current.caches.forScope view ⟨readContext, tableId, dataFileId⟩).1.rowsAt snapshotOrder =
          inlineDeletionRowsAt view tableId dataFileId snapshotOrder ↔
        history.current.caches.RowsUpToDate view ⟨readContext, tableId, dataFileId⟩ snapshotOrder) := by
  have faithful := run.faithful
  constructor
  · rw [(faithful.inlineFileDeletionsAt sees.1 _).2, InlineDeletionCaches.UpToDate]
    cases history.current.caches.snapshotSource ⟨readContext, tableId, snapshotOrder⟩ with
    | none => simp
    | some source => simp
  · intro dataFileId
    rw [(faithful.forScope sees.1 _).2.1, InlineDeletionCaches.RowsUpToDate]
    cases history.current.caches.scopeSource ⟨readContext, tableId, dataFileId⟩ with
    | none => simp [inlineDeletionRowsAt]
    | some source => simp [inlineDeletionRowsAt]

/-! ## A commit of another process between two reads -/

/-- The store after one accepted operation of the catalog. -/
def CatalogCommits (kv next : CatalogKv) : Prop := ∃ operation : CatalogOperation, operation.apply kv = (.ok (), next)

/-- A table with one file. -/
def fileAppended : CatalogKv :=
  let table : TableRow := { tableId := 1, name := "inventory", validity := ⟨autoOrder, none⟩ }
  let dataFile : DataFileRow :=
    { dataFileId := 1, tableId := 1, path := "", recordCount := 10, fileSizeBytes := 1, validity := ⟨autoOrder, none⟩ }
  ((CatalogHistory.start 0 0).run [.createTable 0 table, .appendDataFiles 0 [dataFile] []]).kv

/-- Another process deletes a row of the file. -/
def rowDeletedElsewhere : CatalogOperation :=
  .inlineFileDeletions 0 [{ tableId := 1, dataFileId := 1, rowId := 7, validity := ⟨autoOrder, none⟩ }]

def rowDeleted : CatalogKv := (rowDeletedElsewhere.apply fileAppended).2

/-- This process reads the deletions of the table before the other one commits. -/
def readBefore : CacheHistory :=
  (History.start ⟨fileAppended, {}⟩).extend
    ⟨fileAppended, (({} : InlineDeletionCaches).inlineFileDeletionsAt fileAppended ⟨0, 1, 3⟩).2⟩

def deletedAfterRead : CacheHistory := readBefore.extend ⟨rowDeleted, readBefore.current.caches⟩

theorem deletedAfterRead_run : CacheRun CatalogCommits deletedAfterRead := by
  have started : CacheRun CatalogCommits (History.start ⟨fileAppended, {}⟩) := .start rfl
  have read : CacheStep CatalogCommits (History.start ⟨fileAppended, {}⟩)
      ⟨fileAppended, (({} : InlineDeletionCaches).inlineFileDeletionsAt fileAppended ⟨0, 1, 3⟩).2⟩ :=
    .readSnapshot ⟨0, 1, 3⟩ ⟨List.mem_singleton_self _, fun _ => rfl⟩
  have accepted : (rowDeletedElsewhere.apply fileAppended).1 = .ok () := by decide +kernel
  have commits : CatalogCommits readBefore.current.store rowDeleted := ⟨rowDeletedElsewhere, Prod.ext accepted rfl⟩
  exact (started.step read).step (.otherCommit commits)

theorem deletedAfterRead_sees : CacheHistory.Sees deletedAfterRead 0 rowDeleted :=
  ⟨List.mem_cons_self, fun _ => rfl⟩

/-- The row deleted by the other process at order 4 is missing from the read at order 4. -/
theorem inlineFileDeletionsAt_stale :
    CacheRun CatalogCommits deletedAfterRead ∧ CacheHistory.Sees deletedAfterRead 0 rowDeleted ∧
      (latestSnapshot rowDeleted).map SnapshotRow.order = some 4 ∧
      listInlineFileDeletionsAt rowDeleted 1 4 = [(1, [7])] ∧
      (deletedAfterRead.current.caches.inlineFileDeletionsAt rowDeleted ⟨0, 1, 4⟩).1 = [] :=
  ⟨deletedAfterRead_run, deletedAfterRead_sees, by decide +kernel, by decide +kernel, by decide +kernel⟩

/-- The snapshot before the deletion is still answered right. -/
theorem inlineFileDeletionsAt_exact_olderSnapshot :
    (deletedAfterRead.current.caches.inlineFileDeletionsAt rowDeleted ⟨0, 1, 3⟩).1 =
      listInlineFileDeletionsAt rowDeleted 1 3 := by
  have upToDate : deletedAfterRead.current.caches.UpToDate rowDeleted ⟨0, 1, 3⟩ := by
    intro source behind
    have loaded : deletedAfterRead.current.caches.snapshotSource ⟨0, 1, 3⟩ = some fileAppended := rfl
    rw [loaded] at behind
    rw [← Option.some.inj behind]
    decide +kernel
  exact (inlineFileDeletionsAt_exact_iff deletedAfterRead_run deletedAfterRead_sees 1 3).1.mpr upToDate

end DucklakeCatalog
