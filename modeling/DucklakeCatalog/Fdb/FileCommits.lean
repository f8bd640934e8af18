import DucklakeCatalog.Fdb.Compaction
import DucklakeCatalog.Fdb.InlineCommits

/-! FoundationDB commits of single data files, outside a data mutation. -/
namespace DucklakeCatalog.Fdb

open KeyedStore

/-- An append conflicts with the files its table has lost. -/
def rejectAppendConflictsSinceBase (kv : CatalogKv) (tableId : TableId) (baseOrder throughOrder : CatalogOrderId) :
    CatalogResult Unit :=
  if throughOrder < baseOrder then
    .error (.invalidMutation "logical conflict end order cannot precede base order")
  else if throughOrder = baseOrder then .ok ()
  else do
    rejectTableChangedSinceBase kv tableId baseOrder throughOrder false
    if kv.tableDataFileChange.scan (fun key =>
        key.tableId = tableId && key.kind = .removed && baseOrder < key.order && key.order ≤ throughOrder) = [] then
      rejectTableChangedSinceBase kv tableId baseOrder throughOrder true
    else
      .error (.invalidMutation s!"logical conflict on table {tableId}")

/-- The commits, each with the state it reads before its transaction. -/
inductive FileCommit where
  | appendDataFiles (seen : FdbStore) (now : Int) (rows : List DataFileRow)
  | appendDataFile (seen : FdbStore) (attemptId : CommitAttemptId) (baseOrder throughOrder : CatalogOrderId)
      (row : DataFileRow)
  | expireDataFile (seen : FdbStore) (dataFileId : DataFileId)

def FileCommit.seen : FileCommit → FdbStore
  | .appendDataFiles seen _ _ => seen
  | .appendDataFile seen _ _ _ _ => seen
  | .expireDataFile seen _ => seen

/-- Outside a data mutation a new file raises the file id watermark only. -/
def stageLoneDataFile (order : CatalogOrderId) (kv : CatalogKv) (row : DataFileRow) : CatalogResult CatalogKv := do
  let kv ← stageDataFileWithoutWatermark order kv row
  return stageMaxFileIdWatermark kv row.dataFileId

def appendDataFilesVersionstamped (seen : CatalogKv) (now : Int) (rows : List DataFileRow) (store : FdbStore) :
    CatalogResult FdbStore := do
  let order := store.commitOrder
  let sequence := (latestSnapshot seen).elim 0 fun snapshot => saturatingAdd snapshot.sequence 1
  let kv := stageSnapshot store.kv (SnapshotRow.new order sequence now)
  let kv ← (rows.map fun row => { row with validity := ⟨autoOrder, none⟩ }).foldlM (stageLoneDataFile order) kv
  return FdbStore.commitAt { store with kv } order

/-- The row keeps its partial order as it is given. -/
def stageRecoverableAppend (order : CatalogOrderId) (kv : CatalogKv) (row : DataFileRow) : CatalogKv :=
  let row := { row with validity := ⟨autoOrder, none⟩ }
  let stamped := row.withBeginOrder order
  let kv := { kv with
    currentDataFile := kv.currentDataFile.insert ⟨row.tableId, row.dataFileId⟩ stamped
    dataFile := kv.dataFile.insert row.dataFileId stamped
    dataFileBegin := kv.dataFileBegin.insert ⟨row.tableId, order, row.dataFileId⟩ row }
  stageMaxFileIdWatermark (stageDataFileChange order kv .added row) row.dataFileId

/-- Nothing is staged for an attempt that has been committed before. -/
def tryCommitAppendDataFileVersionstamped (seen : CatalogKv) (attemptId : CommitAttemptId)
    (baseOrder throughOrder : CatalogOrderId) (row : DataFileRow) (store : FdbStore) :
    CatalogResult (Option FdbStore) := do
  if (store.commitAttempt.get? attemptId).isSome then
    return none
  else
    rejectAppendConflictsSinceBase seen row.tableId baseOrder throughOrder
    let order := store.commitOrder
    return some (FdbStore.commitAt {
      store with
      kv := stageRecoverableAppend order store.kv row
      commitAttempt := store.commitAttempt.insert attemptId order } order)

/-- The partition lookups of the file stay. -/
def expireDataFileVersionstamped (seen : CatalogKv) (dataFileId : DataFileId) (store : FdbStore) :
    CatalogResult FdbStore :=
  match seen.dataFile.get? dataFileId with
  | none => .error (.notFound "data file")
  | some row =>
    if row.validity.endOrder.isSome then
      .error (.invalidMutation s!"data file {dataFileId} is already expired")
    else
      let order := store.commitOrder
      let row := row.withEndOrder (some order)
      let kv := { store.kv with
        currentDataFile := store.kv.currentDataFile.erase ⟨row.tableId, row.dataFileId⟩
        dataFile := store.kv.dataFile.insert row.dataFileId row
        dataFileBegin := store.kv.dataFileBegin.insert ⟨row.tableId, row.validity.beginOrder, row.dataFileId⟩ row
        dataFileEnd := store.kv.dataFileEnd.insert ⟨row.tableId, order, row.dataFileId⟩ row.dataFileId }
      .ok (FdbStore.commitAt { store with kv := stageDataFileChange order kv .removed row } order)

/-- The commit takes the store to the next one. -/
def FileCommit.Applies (commit : FileCommit) (store next : FdbStore) : Prop :=
  match commit with
  | .appendDataFiles seen now rows => appendDataFilesVersionstamped seen.kv now rows store = .ok next
  | .appendDataFile seen attemptId baseOrder throughOrder row =>
    tryCommitAppendDataFileVersionstamped seen.kv attemptId baseOrder throughOrder row store = .ok (some next)
  | .expireDataFile seen dataFileId => expireDataFileVersionstamped seen.kv dataFileId store = .ok next

/-- The files a commit adds, before it gives them their orders. -/
def FileCommit.added : FileCommit → List DataFileRow
  | .appendDataFiles _ _ rows => rows
  | .appendDataFile _ _ _ _ row => [row]
  | .expireDataFile _ _ => []

end DucklakeCatalog.Fdb
