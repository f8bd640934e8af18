import DucklakeCatalog.Fdb.StampedRows

/-! Data files and their delete files as the FoundationDB backend reads them. -/
namespace DucklakeCatalog.Fdb

open KeyedStore

/-! ## Data files at a snapshot -/

def fetchCurrentDataFileRows (kv : CatalogKv) (tableId : TableId) : List DataFileRow :=
  (kv.currentDataFile.scan fun key => key.tableId = tableId).map Prod.snd

/-- Begun rows first, then current rows whose begin entry the scan has not met. -/
def listDataFilesAtAsync (kv : CatalogKv) (tableId : TableId) (snapshotOrder : CatalogOrderId) : List DataFileRow :=
  let historical := (dataFilesBegunBy kv tableId snapshotOrder).filter fun row => dataFileVisibleAt row snapshotOrder
  let seen := historical.map DataFileRow.dataFileId
  historical ++ (fetchCurrentDataFileRows kv tableId).filter fun row =>
    decide (row.dataFileId ∉ seen) && dataFileVisibleAt row snapshotOrder

def foundationdbVisibleDataFilesAt (kv : CatalogKv) (tableId : TableId) (snapshotOrder : CatalogOrderId) :
    List DataFileRow :=
  withoutBackfilledSourceDuplicates kv (listDataFilesAtAsync kv tableId snapshotOrder)

/-! ## Attached delete files -/

def materializedPartialFileRequiresDeleteLookup (file : DataFileRow) (snapshotOrder : CatalogOrderId) : Bool :=
  file.maxPartialOrder.isSome && decide (file.validity.beginOrder ≤ snapshotOrder)

def fdbTableDeleteFileChangesExistAt (kv : CatalogKv) (tableId : TableId) (snapshotOrder : CatalogOrderId) : Bool :=
  decide (kv.tableDeleteFileChange.scan (fun key => key.tableId = tableId && key.order ≤ snapshotOrder) ≠ [])

def fdbDeleteFileChangesExistForFilesAt (kv : CatalogKv) (dataFiles : List DataFileRow)
    (snapshotOrder : CatalogOrderId) : Bool :=
  (dataFiles.any fun file => materializedPartialFileRequiresDeleteLookup file snapshotOrder) ||
    dataFiles.any fun file => fdbTableDeleteFileChangesExistAt kv file.tableId snapshotOrder

def attachDeleteFilesAtAsync (kv : CatalogKv) (dataFiles : List DataFileRow) (snapshotOrder : CatalogOrderId) :
    List AttachedDataFile :=
  if fdbDeleteFileChangesExistForFilesAt kv dataFiles snapshotOrder then
    dataFiles.map fun dataFile => ⟨dataFile, loadDeleteFileAt kv dataFile.dataFileId snapshotOrder⟩
  else
    dataFiles.map fun dataFile => ⟨dataFile, none⟩

def currentDeleteFileRow (kv : CatalogKv) (dataFileId : DataFileId) : Option DeleteFileRow :=
  (kv.currentDeleteFile.get? dataFileId).filter fun row => row.validity.endOrder.isNone

def attachCurrentDeleteFilesAsync (kv : CatalogKv) (dataFiles : List DataFileRow) (latestOrder : CatalogOrderId) :
    List AttachedDataFile :=
  if fdbDeleteFileChangesExistForFilesAt kv dataFiles latestOrder then
    dataFiles.map fun dataFile => ⟨dataFile, currentDeleteFileRow kv dataFile.dataFileId⟩
  else
    dataFiles.map fun dataFile => ⟨dataFile, none⟩

/-! Attaching neither drops nor adds a data file. -/

@[simp] theorem attachDeleteFilesAtAsync_dataFiles (kv : CatalogKv) (dataFiles : List DataFileRow)
    (snapshotOrder : CatalogOrderId) :
    (attachDeleteFilesAtAsync kv dataFiles snapshotOrder).map AttachedDataFile.dataFile = dataFiles := by
  unfold attachDeleteFilesAtAsync
  split
  · simp [Function.comp_def]
  · simp [Function.comp_def]

@[simp] theorem attachCurrentDeleteFilesAsync_dataFiles (kv : CatalogKv) (dataFiles : List DataFileRow)
    (latestOrder : CatalogOrderId) :
    (attachCurrentDeleteFilesAsync kv dataFiles latestOrder).map AttachedDataFile.dataFile = dataFiles := by
  unfold attachCurrentDeleteFilesAsync
  split
  · simp [Function.comp_def]
  · simp [Function.comp_def]

end DucklakeCatalog.Fdb
