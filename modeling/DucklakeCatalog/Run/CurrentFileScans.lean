import DucklakeCatalog.KeyedStore.PagedScan
import DucklakeCatalog.Run.DroppedTables

/-! Scans of a table's current data files while clients commit. Every page is a
transaction of its own. -/
namespace DucklakeCatalog.Fdb

open KeyedStore

def defaultSyncFdbScanPageSize : Nat := 256

def maxFdbReadRetries : Nat := 8

/-- What the attempts to read a page have met, the earliest first. -/
abbrev ScanAttempts := List (PageAttempt FdbStore CatalogError)

def currentFilesRange (tableId : TableId) (key : TableFileKey) : Bool := key.tableId = tableId

/-- The cursor of a scan of one table before its first page. -/
def currentFilesCursor (tableId : TableId) : Except ScanFault (ScanCursor TableFileKey DataFileRow) :=
  ScanCursor.tryNew (currentFilesRange tableId) .forward defaultSyncFdbScanPageSize none

/-- `none` while the scan is not over. -/
def scanCurrentRangeAll (attempts : ScanAttempts) (tableId : TableId) :
    Option (Except (ScanFailure CatalogError) (List (TableFileKey × DataFileRow))) :=
  match currentFilesCursor tableId with
  | .error fault => some (.error (.fault fault))
  | .ok cursor => scanPages (fun store : FdbStore => store.kv.currentDataFile) attempts cursor maxFdbReadRetries

/-- `scanCurrentDataFiles` of a handle that reads in pages. -/
def scanCurrentDataFilesByPages (attempts : ScanAttempts) (tableId : TableId) :
    Option (Except (ScanFailure CatalogError) (List DataFileRow)) :=
  (scanCurrentRangeAll attempts tableId).map fun result =>
    result.map fun items => (items.map Prod.snd).filter fun row => row.validity.endOrder.isNone

/-- The pages a scan has read, each with where its cursor stood and the state it was read from. -/
def currentFilePages (attempts : ScanAttempts) (tableId : TableId) :
    List (ScanCursor TableFileKey DataFileRow × FdbStore) :=
  match currentFilesCursor tableId with
  | .error _ => []
  | .ok cursor => pagesRead (fun store : FdbStore => store.kv.currentDataFile) attempts cursor

/-! ## Scans among commits -/

/-- A handle with a read version reads that state, another one the newest. -/
structure FdbHandle where
  readVersion : Option FdbStore := none

def FdbHandle.reads (handle : FdbHandle) (newest : FdbStore) : FdbStore := handle.readVersion.getD newest

def SharedHistory.stores (history : SharedHistory) : List FdbStore := history.states.map SharedMoment.store

/-- Runs from a catalog whose current files stand under their keys and are open. -/
abbrev KeyedRun (history : SharedHistory) : Prop :=
  History.Reachable (fun moment => moment.action = none ∧ moment.store.currentFiles.Keyed) SharedStep history

/-- Every interleaving of the attempts of one scan with the commits of all clients. -/
inductive ScanRun (handle : FdbHandle) : SharedHistory → ScanAttempts → Prop where
  | start {clients : SharedHistory} (run : KeyedRun clients)
      (opened : ∀ store ∈ handle.readVersion, store ∈ SharedHistory.stores clients) : ScanRun handle clients []
  | commits {clients : SharedHistory} {attempts : ScanAttempts} {moment : SharedMoment}
      (scan : ScanRun handle clients attempts) (step : SharedStep clients moment) :
      ScanRun handle (clients.extend moment) attempts
  | page {clients : SharedHistory} {attempts : ScanAttempts} (scan : ScanRun handle clients attempts) :
      ScanRun handle clients (attempts ++ [.reads (handle.reads clients.current.store)])
  | failure {clients : SharedHistory} {attempts : ScanAttempts} {attempt : PageAttempt FdbStore CatalogError}
      (scan : ScanRun handle clients attempts) (unread : ∀ store, attempt ≠ .reads store) :
      ScanRun handle clients (attempts ++ [attempt])

theorem SharedStep.filesKeyed {history : SharedHistory} {moment : SharedMoment}
    (before : history.current.store.currentFiles.Keyed) (step : SharedStep history moment) :
    moment.store.currentFiles.Keyed := by
  obtain ⟨action, acts, reads, applies⟩ := step
  cases action with
  | tables tableOperation commit => exact before.takesOut (commit.transact_takesOut applies.2)
  | files commit =>
    rcases applies.cases with ⟨attempt, rfl, ⟨applied⟩⟩ | ⟨_, left⟩
    · exact applied.filesKeyed before
    · unfold FdbStore.currentFiles
      rw [left.files.currentDataFile, left.files.currentDeleteFile]
      exact before

theorem KeyedRun.keyed {history : SharedHistory} (run : KeyedRun history) :
    ∀ moment ∈ history.states, moment.store.currentFiles.Keyed := by
  refine run.invariant (fun moment => moment.store.currentFiles.Keyed) ?_ ?_
  · exact fun moment starts => starts.2
  · exact fun history moment before step => step.filesKeyed (before _ history.current_mem)

namespace ScanRun

variable {handle : FdbHandle} {clients : SharedHistory} {attempts : ScanAttempts}

theorem run (scan : ScanRun handle clients attempts) : KeyedRun clients := by
  induction scan with
  | start run opened => exact run
  | commits scan step ih => exact ih.step step
  | page scan ih => exact ih
  | failure scan unread ih => exact ih

theorem opened (scan : ScanRun handle clients attempts) :
    ∀ store ∈ handle.readVersion, store ∈ SharedHistory.stores clients := by
  induction scan with
  | start run opened => exact opened
  | commits scan step ih => exact fun store pinned => List.mem_cons_of_mem _ (ih store pinned)
  | page scan ih => exact ih
  | failure scan unread ih => exact ih

/-- A page is read from a state of the run, and from the pinned one if there is one. -/
theorem reads (scan : ScanRun handle clients attempts) {store : FdbStore} (read : .reads store ∈ attempts) :
    store ∈ SharedHistory.stores clients ∧ ∀ pinned ∈ handle.readVersion, store = pinned := by
  induction scan with
  | start run opened => cases read
  | commits scan step ih => exact ⟨List.mem_cons_of_mem _ (ih read).1, (ih read).2⟩
  | @page clients attempts scan ih =>
    rcases List.mem_append.mp read with earlier | here
    · exact ih earlier
    · obtain rfl := PageAttempt.reads.inj (List.mem_singleton.mp here)
      unfold FdbHandle.reads
      cases version : handle.readVersion with
      | none => exact ⟨List.mem_map_of_mem clients.current_mem, fun pinned isPinned => nomatch isPinned⟩
      | some state => exact ⟨scan.opened state version, fun pinned isPinned => Option.some.inj isPinned⟩
  | failure scan unread ih =>
    rcases List.mem_append.mp read with earlier | here
    · exact ih earlier
    · exact absurd (List.mem_singleton.mp here).symm (unread store)

end ScanRun

/-! ## The rows of one state -/

/-- The entries hold open rows under their own keys. -/
def KeyedEntries (entries : List (TableFileKey × DataFileRow)) : Prop :=
  ∀ entry ∈ entries, currentFileKey entry.2 = entry.1 ∧ entry.2.validity.endOrder = none

def openRows (entries : List (TableFileKey × DataFileRow)) : List DataFileRow :=
  (entries.map Prod.snd).filter fun row => row.validity.endOrder.isNone

theorem openRows_keyed {entries : List (TableFileKey × DataFileRow)} (keyed : KeyedEntries entries) :
    entries = (openRows entries).map fun row => (currentFileKey row, row) := by
  have all : openRows entries = entries.map Prod.snd := by
    refine List.filter_eq_self.mpr fun row listed => ?_
    obtain ⟨entry, member, rfl⟩ := List.mem_map.mp listed
    rw [(keyed entry member).2]
    rfl
  rw [all, List.map_map]
  symm
  refine (List.map_congr_left fun entry member => ?_).trans (List.map_id entries)
  exact Prod.ext (keyed entry member).1 rfl

theorem openRows_inj {left right : List (TableFileKey × DataFileRow)} (leftKeyed : KeyedEntries left)
    (rightKeyed : KeyedEntries right) : openRows left = openRows right ↔ left = right := by
  constructor
  · intro same
    rw [openRows_keyed leftKeyed, openRows_keyed rightKeyed, same]
  · intro same
    rw [same]

theorem scanCurrentDataFiles_openRows (kv : CatalogKv) (tableId : TableId) :
    scanCurrentDataFiles kv tableId =
      openRows (kv.currentDataFile.rangeEntries .forward (currentFilesRange tableId)) := rfl

theorem rangeEntries_keyed {store : FdbStore} (keyed : store.currentFiles.Keyed) (tableId : TableId) :
    KeyedEntries (store.kv.currentDataFile.rangeEntries .forward (currentFilesRange tableId)) :=
  fun entry member => keyed.dataFiles entry.1 entry.2 (OrderedMap.mem_rangeEntries.mp member).1

theorem scanCurrentDataFilesByPages_ok {attempts : ScanAttempts} {tableId : TableId} {rows : List DataFileRow}
    (returns : scanCurrentDataFilesByPages attempts tableId = some (.ok rows)) :
    ∃ cursor items, currentFilesCursor tableId = .ok cursor ∧
      scanPages (fun store : FdbStore => store.kv.currentDataFile) attempts cursor maxFdbReadRetries =
        some (.ok items) ∧
      currentFilePages attempts tableId = pagesRead (fun store : FdbStore => store.kv.currentDataFile) attempts cursor ∧
      rows = openRows items := by
  obtain ⟨cursor, created⟩ : ∃ cursor, currentFilesCursor tableId = .ok cursor := ⟨_, rfl⟩
  unfold scanCurrentDataFilesByPages scanCurrentRangeAll at returns
  unfold currentFilePages
  simp only [created] at returns ⊢
  obtain ⟨result, finished, mapped⟩ := Option.map_eq_some_iff.mp returns
  obtain ⟨items, rfl, same⟩ := map_eq_ok.mp mapped
  exact ⟨cursor, items, rfl, finished, rfl, same.symm⟩

/-- The keys a page covers hold in another state what they held where the page was read. -/
def PageAgrees (store : FdbStore) (page : ScanCursor TableFileKey DataFileRow × FdbStore) : Prop :=
  ∀ key, page.1.Covers page.2.kv.currentDataFile key →
    page.2.kv.currentDataFile.get? key = store.kv.currentDataFile.get? key

variable {handle : FdbHandle} {clients : SharedHistory} {attempts : ScanAttempts} {tableId : TableId}
  {rows : List DataFileRow}

/-- A scan returns the current data files of a state if and only if that state agrees with all its pages. -/
theorem ScanRun.rows_eq_iff (scan : ScanRun handle clients attempts)
    (returns : scanCurrentDataFilesByPages attempts tableId = some (.ok rows)) {store : FdbStore}
    (member : store ∈ SharedHistory.stores clients) :
    rows = scanCurrentDataFiles store.kv tableId ↔ ∀ page ∈ currentFilePages attempts tableId, PageAgrees store page := by
  obtain ⟨cursor, items, created, finished, pages, rfl⟩ := scanCurrentDataFilesByPages_ok returns
  have keyed {state : FdbStore} (listed : state ∈ SharedHistory.stores clients) : state.currentFiles.Keyed := by
    obtain ⟨moment, stands, rfl⟩ := List.mem_map.mp listed
    exact KeyedRun.keyed scan.run moment stands
  have itemsKeyed : KeyedEntries items := by
    obtain ⟨proper, sameRange, _, _, pending⟩ := ScanCursor.tryNew_proper created
    have read := scanPages_readBy proper finished
    intro entry listed
    have inside := sameRange ▸ read.inside entry listed
    obtain ⟨page, isPage, covers⟩ := read.covered entry.1 (pending entry.1 inside)
    have found := (read.entries page isPage entry.1 covers entry.2).mp listed
    exact (keyed (scan.reads (mem_pagesRead isPage)).1).dataFiles entry.1 entry.2 found
  rw [scanCurrentDataFiles_openRows, openRows_inj itemsKeyed (rangeEntries_keyed (keyed member) tableId), pages]
  exact scanPages_eq_rangeEntries_iff created finished store.kv.currentDataFile

def crowdedFile (dataFileId : DataFileId) : DataFileRow :=
  { dataFileId, tableId := 1, path := "inventory.parquet", recordCount := 10, fileSizeBytes := 100
    rowIdStartKnown := false, validity := ⟨2, none⟩ }

def addCrowdedFile (store : FdbStore) (dataFileId : DataFileId) : FdbStore :=
  let row := crowdedFile dataFileId
  { store with kv := { store.kv with
      dataFile := store.kv.dataFile.insert dataFileId row
      currentDataFile := store.kv.currentDataFile.insert ⟨1, dataFileId⟩ row
      dataFileBegin := store.kv.dataFileBegin.insert ⟨1, 2, dataFileId⟩ row } }

/-- One table with as many files as a page holds. -/
@[irreducible] def crowdedStore : FdbStore :=
  (List.range defaultSyncFdbScanPageSize).reverse.foldl addCrowdedFile
    { inventoryStore with kv := { inventoryStore.kv with
        conflictMaxFileId := OrderedMap.insert .empty () 255
        nextOrder := 2 } }

/-- The first file gives way to a new one. -/
def crowdedRewriter : MutationAttempt :=
  { plan := { mutation := { dataFiles := [{ crowdedFile 0 with validity := ⟨autoOrder, none⟩ }], droppedDataFileIds := [0] } }
    recoveryId := none
    seen := crowdedStore
    firstFileId := 256 }

def crowdedRewritten : SharedHistory :=
  (History.start ⟨crowdedStore, none⟩).extend (.mutating crowdedStore crowdedRewriter)

def tornAttempts : ScanAttempts := [.reads crowdedStore, .reads crowdedRewritten.current.store]

/-- Both pages are read after the rewrite. -/
def rewrittenAttempts : ScanAttempts :=
  [.reads crowdedRewritten.current.store, .reads crowdedRewritten.current.store]

theorem crowdedStore_keyed : crowdedStore.currentFiles.Keyed := by
  unfold crowdedStore
  generalize (List.range defaultSyncFdbScanPageSize).reverse = ids
  refine List.foldlRecOn (motive := fun store : FdbStore => store.currentFiles.Keyed) ids addCrowdedFile ⟨?_, ?_⟩ ?_
  · exact fun key row found => nomatch found
  · exact fun dataFileId row found => nomatch found
  · intro store keyed dataFileId _
    refine ⟨fun key row found => ?_, keyed.deleteFiles⟩
    simp only [addCrowdedFile, FdbStore.currentFiles, OrderedMap.get?_insert] at found
    split at found
    · rename_i here
      obtain rfl := Option.some.inj found
      exact ⟨here.symm, rfl⟩
    · exact keyed.dataFiles key row found

theorem crowdedRewritten_step :
    SharedStep (History.start ⟨crowdedStore, none⟩) (.mutating crowdedStore crowdedRewriter) :=
  (SharedMoment.mutating_step (History.start ⟨crowdedStore, none⟩) crowdedRewriter (List.mem_singleton_self _)
    (by decide +kernel)).1

/-- A scan of a handle without a read version, with the rewrite between its pages. -/
theorem tornAttempts_run : ScanRun {} crowdedRewritten tornAttempts := by
  have started : ScanRun {} (History.start ⟨crowdedStore, none⟩) [] :=
    ScanRun.start (History.Reachable.start ⟨rfl, crowdedStore_keyed⟩) fun store pinned => nomatch pinned
  exact (started.page.commits crowdedRewritten_step).page

def returnedIds (attempts : ScanAttempts) (tableId : TableId) : List DataFileId :=
  match scanCurrentDataFilesByPages attempts tableId with
  | some (.ok rows) => rows.map DataFileRow.dataFileId
  | _ => []

theorem returnedIds_ok {dataFileIds : List DataFileId} (asked : dataFileIds ≠ [])
    (listed : dataFileIds ⊆ returnedIds attempts tableId) :
    ∃ rows, scanCurrentDataFilesByPages attempts tableId = some (.ok rows) ∧
      dataFileIds ⊆ rows.map DataFileRow.dataFileId := by
  unfold returnedIds at listed
  split at listed
  · rename_i rows returns
    exact ⟨rows, returns, listed⟩
  · exact absurd (List.subset_nil.mp listed) asked

end DucklakeCatalog.Fdb
