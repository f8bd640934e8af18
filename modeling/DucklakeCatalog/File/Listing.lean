import DucklakeCatalog.File.DataFileStore

namespace DucklakeCatalog

open KeyedStore

/-! ## Suppressing the sources of backfilled replacements -/

/-- A replacement whose window starts before the newest commit it carries. -/
def isBackfilledReplacementFile (row : DataFileRow) : Bool :=
  row.maxPartialOrder.any fun maxPartialOrder => decide (maxPartialOrder ≠ row.validity.beginOrder)

/-- The newest commit whose rows the file carries. -/
def DataFileRow.maxCoveredOrder (row : DataFileRow) : CatalogOrderId :=
  row.maxPartialOrder.getD row.validity.beginOrder

/-- Path components of the form `key=value`. -/
def hivePartitionPathKey (path : String) : List (List Char) :=
  (path.toList.splitOn '/').filter fun component =>
    decide (component.takeWhile (· ≠ '=') ≠ []) && decide (1 < (component.dropWhile (· ≠ '=')).length)

def partitionPathsAreKnownAndDifferent (left right : String) : Bool :=
  let left := hivePartitionPathKey left
  let right := hivePartitionPathKey right
  decide (left ≠ []) && decide (right ≠ []) && decide (left ≠ right)

def coversRowIdRange (replacement row : DataFileRow) : Bool :=
  replacement.rowIdStartKnown && row.rowIdStartKnown &&
    decide (replacement.rowIdStart ≤ row.rowIdStart) && decide (row.rowIdEnd ≤ replacement.rowIdEnd)

def mightCoverByPartition (replacement row : DataFileRow) : Bool :=
  decide (row.tableId = replacement.tableId) && decide (row.recordCount ≠ 0) &&
    decide (row.validity.beginOrder ≤ replacement.maxCoveredOrder) &&
    decide (replacement.validity.beginOrder ≤ row.validity.beginOrder) &&
    !coversRowIdRange replacement row &&
    (!replacement.rowIdStartKnown || !row.rowIdStartKnown) &&
    decide (row.recordCount < replacement.recordCount)

def replacementCovers (partitionValues : List FilePartitionValueRow) (replacement row : DataFileRow) : Bool :=
  if row.tableId ≠ replacement.tableId ∨ row.recordCount = 0 then false
  else if replacement.maxCoveredOrder < row.validity.beginOrder then false
  else if coversRowIdRange replacement row then
    !partitionPathsAreKnownAndDifferent replacement.path row.path
  else if replacement.rowIdStartKnown ∧ row.rowIdStartKnown then false
  else if replacement.recordCount ≤ row.recordCount then false
  else if row.validity.beginOrder < replacement.validity.beginOrder then false
  else sameNonEmptyKey partitionValues replacement.dataFileId row.dataFileId

def replacementsNeedPartitionValues (replacements rows : List DataFileRow) : Bool :=
  replacements.any fun replacement =>
    rows.any fun row =>
      decide (row.dataFileId ≠ replacement.dataFileId) && mightCoverByPartition replacement row

def withoutBackfilledSourceDuplicates (kv : CatalogKv) (rows : List DataFileRow) : List DataFileRow :=
  let replacements := rows.filter isBackfilledReplacementFile
  let partitionValues :=
    if replacementsNeedPartitionValues replacements rows then
      listFilePartitionValuesForDataFiles kv ((rows.map DataFileRow.dataFileId).dedup.insertionSort (· ≤ ·))
    else []
  rows.filter fun row =>
    replacements.all fun replacement =>
      decide (row.dataFileId = replacement.dataFileId) || !replacementCovers partitionValues replacement row

/-! ## Data files at a snapshot -/

/-- A begin-index entry is read with the begin order of its key. -/
def dataFileFromBeginIndexItem (entry : TableOrderKey × DataFileRow) : DataFileRow :=
  entry.2.withBeginOrder entry.1.order

def dataFileVisibleAt (row : DataFileRow) (snapshotOrder : CatalogOrderId) : Bool :=
  row.validity.isVisibleAt snapshotOrder

def dataFilesBegunBy (kv : CatalogKv) (tableId : TableId) (snapshotOrder : CatalogOrderId) : List DataFileRow :=
  (kv.dataFileBegin.scan fun key => key.tableId = tableId && key.order ≤ snapshotOrder).map
    dataFileFromBeginIndexItem

/-- Rows visible at the snapshot before duplicate suppression. -/
def visibleDataFilesAt (kv : CatalogKv) (tableId : TableId) (snapshotOrder : CatalogOrderId) : List DataFileRow :=
  let begun := (dataFilesBegunBy kv tableId snapshotOrder).filter fun row => dataFileVisibleAt row snapshotOrder
  let seen := begun.map DataFileRow.dataFileId
  begun ++ (scanCurrentDataFiles kv tableId).filter fun row =>
    decide (row.dataFileId ∉ seen) && dataFileVisibleAt row snapshotOrder

def listDataFilesAt (kv : CatalogKv) (tableId : TableId) (snapshotOrder : CatalogOrderId) : List DataFileRow :=
  withoutBackfilledSourceDuplicates kv (visibleDataFilesAt kv tableId snapshotOrder)

/-! ## Attached delete files -/

structure AttachedDataFile where
  dataFile : DataFileRow
  deleteFile : Option DeleteFileRow
  deriving DecidableEq, Repr

def deleteFileCanAnswerSnapshot (row : DeleteFileRow) (timelineOrder snapshotOrder : CatalogOrderId) : Bool :=
  row.validity.isVisibleAt snapshotOrder && decide (timelineOrder ≤ snapshotOrder)

/-- Only the newest timeline entry at or before the snapshot is asked. -/
def loadDeleteFileAt (kv : CatalogKv) (dataFileId : DataFileId) (snapshotOrder : CatalogOrderId) :
    Option DeleteFileRow :=
  match (kv.deleteFileTimeline.scan fun key =>
    key.dataFileId = dataFileId && key.order ≤ snapshotOrder).getLast? with
  | none => none
  | some (key, row) => if deleteFileCanAnswerSnapshot row key.order snapshotOrder then some row else none

def tableDeleteFileChangesExistAt (kv : CatalogKv) (tableId : TableId) (snapshotOrder : CatalogOrderId) : Bool :=
  (kv.orderDeleteFileChange.scan fun key => key.order ≤ snapshotOrder).any fun entry =>
    decide (entry.1.tableId = tableId)

def deleteFileChangesExistForFilesAt (kv : CatalogKv) (dataFiles : List DataFileRow)
    (snapshotOrder : CatalogOrderId) : Bool :=
  dataFiles.any fun row => tableDeleteFileChangesExistAt kv row.tableId snapshotOrder

def attachDeleteFilesAt (kv : CatalogKv) (dataFiles : List DataFileRow) (snapshotOrder : CatalogOrderId) :
    List AttachedDataFile :=
  if deleteFileChangesExistForFilesAt kv dataFiles snapshotOrder then
    dataFiles.map fun dataFile => ⟨dataFile, loadDeleteFileAt kv dataFile.dataFileId snapshotOrder⟩
  else
    dataFiles.map fun dataFile => ⟨dataFile, none⟩

/-- The current entry of the data file, unless it has ended. -/
def currentDeleteFileFor (kv : CatalogKv) (dataFileId : DataFileId) : Option DeleteFileRow :=
  (kv.currentDeleteFile.get? dataFileId).filter fun row => row.validity.endOrder.isNone

/-- Without a registration up to the latest snapshot the current entries are not even read. -/
def attachCurrentDeleteFiles (kv : CatalogKv) (dataFiles : List DataFileRow) : List AttachedDataFile :=
  if (latestSnapshot kv).any fun latest => !deleteFileChangesExistForFilesAt kv dataFiles latest.order then
    dataFiles.map fun dataFile => ⟨dataFile, none⟩
  else
    dataFiles.map fun dataFile => ⟨dataFile, currentDeleteFileFor kv dataFile.dataFileId⟩

def listDataFilesWithDeletesAt (kv : CatalogKv) (tableId : TableId) (snapshotOrder : CatalogOrderId) :
    List AttachedDataFile :=
  attachDeleteFilesAt kv (listDataFilesAt kv tableId snapshotOrder) snapshotOrder

end DucklakeCatalog
