import DucklakeCatalog.Fdb.FileListing
import DucklakeCatalog.File.PartitionLookup
import DucklakeCatalog.Stats.TypedScalar

/-! Listings of the data files that may hold rows of one partition value, or of
every value that compares to a boundary. -/
namespace DucklakeCatalog.Fdb

open KeyedStore

/-! ## Listings for one value -/

def partitionValueLookupIds (kv : CatalogKv) (tableId : TableId) (partitionKeyIndex : PartitionKeyIndex)
    (partitionValue : String) : List DataFileId :=
  (kv.partitionValueLookup.scan fun key => key.tableId = tableId && key.partitionKeyIndex = partitionKeyIndex &&
    key.partitionValue = partitionValue).map fun entry => entry.2.2.dataFileId

structure PartitionScanFilter where
  matched : List DataFileId
  partitioned : List DataFileId

def PartitionScanFilter.load (kv : CatalogKv) (tableId : TableId) (partitionKeyIndex : PartitionKeyIndex)
    (partitionValue : String) : PartitionScanFilter where
  matched := partitionValueLookupIds kv tableId partitionKeyIndex partitionValue
  partitioned := partitionedDataFileIds kv tableId partitionKeyIndex

def PartitionScanFilter.includes (scanFilter : PartitionScanFilter) (dataFileId : DataFileId) : Bool :=
  decide (dataFileId ∈ scanFilter.matched) || decide (dataFileId ∉ scanFilter.partitioned)

/-- The files listed under one partition value. -/
structure PartitionFiles where
  partitionValue : String
  files : List AttachedDataFile
  deriving DecidableEq

/-- A filled cache holds the visible files of the snapshot with their delete files. -/
def partitionFilesAt (kv : CatalogKv) (cached : Option (List AttachedDataFile)) (tableId : TableId)
    (partitionKeyIndex : PartitionKeyIndex) (partitionValue : String) (snapshotOrder : CatalogOrderId) :
    PartitionFiles :=
  let scanFilter := PartitionScanFilter.load kv tableId partitionKeyIndex partitionValue
  { partitionValue
    files := match cached with
      | some files => files.filter fun attached => scanFilter.includes attached.dataFile.dataFileId
      | none =>
        attachDeleteFilesAtAsync kv ((foundationdbVisibleDataFilesAt kv tableId snapshotOrder).filter fun dataFile =>
          scanFilter.includes dataFile.dataFileId) snapshotOrder }

/-- A value of the current files; without a snapshot there is nothing to list. -/
def currentPartitionFiles (kv : CatalogKv) (tableId : TableId) (partitionKeyIndex : PartitionKeyIndex)
    (partitionValue : String) : CatalogResult PartitionFiles :=
  match latestSnapshot kv with
  | none => .error (.decode "catalog snapshot does not exist")
  | some snapshot => .ok {
      partitionValue
      files := attachCurrentDeleteFilesAsync kv
        (listCurrentDataFilesForPartitionScan kv tableId partitionKeyIndex partitionValue) snapshot.order }

/-! ## Listings for several values -/

structure PartitionBatchFileIndex where
  positionsById : OrderedMap DataFileId Nat
  unpartitionedPositions : List Nat

def PartitionBatchFileIndex.new (files : List AttachedDataFile) (partitioned : List DataFileId) :
    PartitionBatchFileIndex where
  positionsById := files.zipIdx.foldl (fun positions entry => positions.insert entry.1.dataFile.dataFileId entry.2) .empty
  unpartitionedPositions := (files.zipIdx.filter fun entry =>
    decide (entry.1.dataFile.dataFileId ∉ partitioned)).map Prod.snd

def PartitionBatchFileIndex.positionsFor (index : PartitionBatchFileIndex) (matched : List DataFileId) : List Nat :=
  (index.unpartitionedPositions ++ matched.filterMap index.positionsById.get?).dedup.insertionSort (· ≤ ·)

def partitionFilesAtBatch (kv : CatalogKv) (cached : Option (List AttachedDataFile)) (tableId : TableId)
    (partitionKeyIndex : PartitionKeyIndex) (partitionValues : List String) (snapshotOrder : CatalogOrderId) :
    List PartitionFiles :=
  let attachedFiles := cached.getD
    (attachDeleteFilesAtAsync kv (foundationdbVisibleDataFilesAt kv tableId snapshotOrder) snapshotOrder)
  let fileIndex := PartitionBatchFileIndex.new attachedFiles (partitionedDataFileIds kv tableId partitionKeyIndex)
  partitionValues.map fun partitionValue =>
    { partitionValue
      files := (fileIndex.positionsFor (partitionValueLookupIds kv tableId partitionKeyIndex partitionValue)).filterMap
        fun position => attachedFiles[position]? }

def currentPartitionFilesBatch (kv : CatalogKv) (tableId : TableId) (partitionKeyIndex : PartitionKeyIndex)
    (partitionValues : List String) : CatalogResult (List PartitionFiles) :=
  match latestSnapshot kv with
  | none => .error (.decode "catalog snapshot does not exist")
  | some snapshot => .ok (partitionValues.map fun partitionValue =>
      { partitionValue
        files := attachCurrentDeleteFilesAsync kv
          (listCurrentDataFilesForPartitionScan kv tableId partitionKeyIndex partitionValue) snapshot.order })

/-! ## Pruning by a boundary -/

inductive PartitionPruneComparison where
  | equal
  | greaterThan
  | greaterThanOrEqual
  | lessThan
  | lessThanOrEqual
  deriving DecidableEq, Repr

def comparePartitionOrder (ordering : Ordering) : PartitionPruneComparison → Bool
  | .equal => ordering = .eq
  | .greaterThan => ordering = .gt
  | .greaterThanOrEqual => ordering ≠ .lt
  | .lessThan => ordering = .lt
  | .lessThanOrEqual => ordering ≠ .gt

/-- Which files to list: those whose value for the key compares to the boundary. -/
structure PartitionPruneRequest where
  tableId : TableId
  partitionKeyIndex : PartitionKeyIndex
  columnType : String
  comparison : PartitionPruneComparison
  boundary : String

def hiveNullPartition : String := "__HIVE_DEFAULT_PARTITION__"

/-- A value that does not compare to the boundary stays in the scan. -/
def partitionValueMatches (other : OtherScalarOrder) (request : PartitionPruneRequest) (candidate : String) : Bool :=
  if candidate = hiveNullPartition then false
  else
    (compareTypedScalars other (normalizeCatalogScalarType request.columnType) candidate request.boundary).all
      fun ordering => comparePartitionOrder ordering request.comparison

def matchingPartitionValues (other : OtherScalarOrder) (kv : CatalogKv) (request : PartitionPruneRequest) :
    List String :=
  (((kv.partitionValueLookup.scan fun key => key.tableId = request.tableId &&
      key.partitionKeyIndex = request.partitionKeyIndex).map fun entry => entry.1.partitionValue).filter
    (partitionValueMatches other request)).dedup.insertionSort (· ≤ ·)

def partitionPruneFilesAt (other : OtherScalarOrder) (kv : CatalogKv) (cached : Option (List AttachedDataFile))
    (request : PartitionPruneRequest) (snapshotOrder : CatalogOrderId) : List PartitionFiles :=
  let partitionValues := matchingPartitionValues other kv request
  if partitionValues = [] then []
  else partitionFilesAtBatch kv cached request.tableId request.partitionKeyIndex partitionValues snapshotOrder

def currentPartitionPruneFiles (other : OtherScalarOrder) (kv : CatalogKv) (request : PartitionPruneRequest) :
    CatalogResult (List PartitionFiles) :=
  let partitionValues := matchingPartitionValues other kv request
  if partitionValues = [] then .ok []
  else currentPartitionFilesBatch kv request.tableId request.partitionKeyIndex partitionValues

end DucklakeCatalog.Fdb
