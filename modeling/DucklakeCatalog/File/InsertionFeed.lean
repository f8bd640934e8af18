import DucklakeCatalog.File.Listing

namespace DucklakeCatalog

open KeyedStore

/-! ## Candidates -/

/-- Every begin-index row of the table. -/
def dataFilesByBegin (kv : CatalogKv) (tableId : TableId) : List DataFileRow :=
  (kv.dataFileBegin.scan fun key => key.tableId = tableId).map dataFileFromBeginIndexItem

/-- Orders of the commits whose rows the file carries. -/
def DataFileRow.insertionSpan (file : DataFileRow) : CatalogOrderId × CatalogOrderId :=
  file.maxPartialOrder.elim (file.validity.beginOrder, file.validity.beginOrder) fun maxPartialOrder =>
    (min file.validity.beginOrder maxPartialOrder, max file.validity.beginOrder maxPartialOrder)

def insertionFileOverlapsWindow (file : DataFileRow) (startOrder endOrder : CatalogOrderId) : Bool :=
  decide (file.insertionSpan.1 ≤ endOrder) && decide (startOrder ≤ file.insertionSpan.2)

def dataFileCoversSnapshotOrder (file : DataFileRow) (snapshotOrder : CatalogOrderId) : Bool :=
  file.maxPartialOrder.isSome && decide (file.insertionSpan.1 ≤ snapshotOrder) &&
    decide (snapshotOrder ≤ file.insertionSpan.2)

/-- The snapshot at the order flushed inlined data of the table. -/
def isFlushedInlineFile (kv : CatalogKv) (tableId : TableId) (order : CatalogOrderId) : Bool :=
  (kv.snapshotOperation.get? ⟨order, .inlineFlush, tableId⟩).isSome

/-- One row for each data file id, the one read last, sorted by begin order and id. -/
def collectDataFiles (rows : List DataFileRow) : List DataFileRow :=
  (((OrderedMap.empty : OrderedMap DataFileId DataFileRow).insertAll DataFileRow.dataFileId rows).entries.map
    Prod.snd).insertionSort fun left right =>
      toLex (left.validity.beginOrder, left.dataFileId) ≤ toLex (right.validity.beginOrder, right.dataFileId)

/-! ## Hiding compacted sources -/

/-- An open replacement hides every other file that begins inside its span. -/
def hidesCompactedSource (replacement file : DataFileRow) : Bool :=
  replacement.validity.endOrder.isNone && decide (replacement.dataFileId ≠ file.dataFileId) &&
    replacement.maxPartialOrder.any fun maxOrder =>
      decide (replacement.validity.beginOrder ≤ file.validity.beginOrder) &&
        decide (file.validity.beginOrder ≤ maxOrder)

def withoutCompactedSources (rows : List DataFileRow) : List DataFileRow :=
  rows.filter fun file => !rows.any fun replacement => hidesCompactedSource replacement file

/-! ## Feeds -/

def insertionFiles (kv : CatalogKv) (tableId : TableId) (startOrder endOrder : CatalogOrderId) :
    CatalogResult (List DataFileRow) :=
  if endOrder < startOrder then
    .error (.invalidMutation "change-feed end order cannot precede start order")
  else
    let begun := (dataFilesBegunBy kv tableId endOrder).filter fun row =>
      !(row.maxPartialOrder.isNone && isFlushedInlineFile kv tableId row.validity.beginOrder) &&
        insertionFileOverlapsWindow row startOrder endOrder
    let spanning := (dataFilesByBegin kv tableId).filter fun row =>
      row.maxPartialOrder.isSome && insertionFileOverlapsWindow row startOrder endOrder
    .ok (withoutCompactedSources (collectDataFiles (begun ++ spanning)))

def insertionDataFilesThrough (kv : CatalogKv) (tableId : TableId) (snapshotOrder : CatalogOrderId) :
    List DataFileRow :=
  let spanning := (dataFilesByBegin kv tableId).filter fun row =>
    row.maxPartialOrder.isSome && dataFileCoversSnapshotOrder row snapshotOrder
  withoutCompactedSources (collectDataFiles (dataFilesBegunBy kv tableId snapshotOrder ++ spanning))

theorem mem_collectDataFiles {rows : List DataFileRow}
    (agree : ∀ left ∈ rows, ∀ right ∈ rows, left.dataFileId = right.dataFileId → left = right) {row : DataFileRow} :
    row ∈ collectDataFiles rows ↔ row ∈ rows := by
  rw [collectDataFiles, List.mem_insertionSort, List.mem_map]
  constructor
  · rintro ⟨⟨dataFileId, row⟩, member, rfl⟩
    rw [← OrderedMap.get?_eq_some_iff, OrderedMap.get?_insertAll_of_agree _ _ agree] at member
    exact (member.resolve_right (by simp)).1
  · intro member
    refine ⟨(row.dataFileId, row), ?_, rfl⟩
    rw [← OrderedMap.get?_eq_some_iff, OrderedMap.get?_insertAll_of_agree _ _ agree]
    exact Or.inl ⟨member, rfl⟩

end DucklakeCatalog
