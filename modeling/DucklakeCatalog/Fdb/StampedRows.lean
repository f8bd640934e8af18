import DucklakeCatalog.Fdb.Applied
import DucklakeCatalog.File.Listing
import DucklakeCatalog.File.PartitionLookup
import DucklakeCatalog.KeyedStore.Mirror

/-! The orders of a file row in the key families that hold a copy of it. A copy
whose value keeps the placeholder is repaired from its key when it is read. -/
namespace DucklakeCatalog.Fdb

open KeyedStore

structure RowOrders where
  beginOrder : CatalogOrderId
  endOrder : Option CatalogOrderId
  maxPartialOrder : Option CatalogOrderId
  deriving DecidableEq, Repr

/-- None of the orders is the placeholder. -/
structure RowOrders.Stamped (orders : RowOrders) : Prop where
  beginOrder : orders.beginOrder ≠ autoOrder
  endOrder : orders.endOrder ≠ some autoOrder
  maxPartialOrder : orders.maxPartialOrder ≠ some autoOrder

def dataFileOrders (row : DataFileRow) : RowOrders :=
  ⟨row.validity.beginOrder, row.validity.endOrder, row.maxPartialOrder⟩

def deleteFileOrders (row : DeleteFileRow) : RowOrders :=
  ⟨row.validity.beginOrder, row.validity.endOrder, row.maxPartialOrder⟩

/-- A timeline entry is read with the order of its key in place of each placeholder. -/
def deleteFileFromTimelineItem (entry : DeleteFileTimelineKey × DeleteFileRow) : DeleteFileRow :=
  { entry.2.withBeginOrder (resolveOrder entry.1.order entry.2.validity.beginOrder) with
    maxPartialOrder := entry.2.maxPartialOrder.map (resolveOrder entry.1.order) }

/-- Only the newest timeline entry at or before the snapshot is asked. -/
def loadDeleteFileAt (kv : CatalogKv) (dataFileId : DataFileId) (snapshotOrder : CatalogOrderId) :
    Option DeleteFileRow :=
  match (kv.deleteFileTimeline.scan fun key =>
    key.dataFileId = dataFileId && key.order ≤ snapshotOrder).getLast? with
  | none => none
  | some entry =>
    let row := deleteFileFromTimelineItem entry
    if deleteFileCanAnswerSnapshot row entry.1.order snapshotOrder then some row else none

/-! ## Copies of data files -/

structure DataFileCopies where
  dataFile : OrderedMap DataFileId DataFileRow
  currentDataFile : OrderedMap TableFileKey DataFileRow
  dataFileBegin : OrderedMap TableOrderKey DataFileRow
  partitionValueLookup : OrderedMap PartitionValueLookupKey (FilePartitionValueRow × DataFileRow)

def dataFileCopies (kv : CatalogKv) : DataFileCopies :=
  ⟨kv.dataFile, kv.currentDataFile, kv.dataFileBegin, kv.partitionValueLookup⟩

def dataFileView (row : DataFileRow) : TableId × RowOrders := (row.tableId, dataFileOrders row)

namespace DataFileCopies

/-- Every stored row has its orders, and every copy has them too. -/
structure Stamped (copies : DataFileCopies) : Prop where
  stored : ∀ dataFileId row, copies.dataFile.get? dataFileId = some row →
    row.dataFileId = dataFileId ∧ (dataFileOrders row).Stamped
  current : Mirrors DataFileRow.dataFileId dataFileView (fun _ row => row) copies.dataFile copies.currentDataFile
  currentKey : ∀ key row, copies.currentDataFile.get? key = some row → key = ⟨row.tableId, row.dataFileId⟩
  begun : Mirrors DataFileRow.dataFileId dataFileView (fun key row => dataFileFromBeginIndexItem (key, row))
    copies.dataFile copies.dataFileBegin
  beginKey : ∀ key row, copies.dataFileBegin.get? key = some row → key.tableId = row.tableId ∧ key.fileId = row.dataFileId
  lookup : Mirrors DataFileRow.dataFileId dataFileView (fun _ value => value.2) copies.dataFile
    copies.partitionValueLookup
  lookupKey : ∀ key value, copies.partitionValueLookup.get? key = some value → key.dataFileId = value.2.dataFileId

def append (copies : DataFileCopies) (row begun : DataFileRow) : DataFileCopies :=
  { copies with
    dataFile := copies.dataFile.insert row.dataFileId row
    currentDataFile := copies.currentDataFile.insert ⟨row.tableId, row.dataFileId⟩ row
    dataFileBegin := copies.dataFileBegin.insert ⟨row.tableId, row.validity.beginOrder, row.dataFileId⟩ begun }

/-- The begin entry of an appended row may still hold the placeholder that its key replaces. -/
theorem Stamped.append {copies : DataFileCopies} (stamped : copies.Stamped) {row begun : DataFileRow}
    (fresh : copies.dataFile.get? row.dataFileId = none) (orders : (dataFileOrders row).Stamped)
    (same : begun.withBeginOrder row.validity.beginOrder = row) : (copies.append row begun).Stamped where
  stored := by
    intro dataFileId found present
    simp only [DataFileCopies.append, OrderedMap.get?_insert] at present
    split at present
    · rename_i here
      obtain rfl := Option.some.inj present
      exact ⟨here.symm, orders⟩
    · exact stamped.stored dataFileId found present
  current := by
    refine Mirrors.put (stamped.current.create fresh row) ?_ (rfl : dataFileView row = _)
    simp
  currentKey := by
    intro key found present
    simp only [DataFileCopies.append, OrderedMap.get?_insert] at present
    split at present
    · rename_i here
      obtain rfl := Option.some.inj present
      exact here
    · exact stamped.currentKey key found present
  begun := by
    have begunId : begun.dataFileId = row.dataFileId := by rw [← same]; rfl
    refine Mirrors.put (stamped.begun.create fresh row) (?_ : _ = some row) ?_
    · simp [dataFileFromBeginIndexItem, DataFileRow.withBeginOrder, begunId]
    · rw [dataFileFromBeginIndexItem, same]
  beginKey := by
    have begunId : begun.dataFileId = row.dataFileId := by rw [← same]; rfl
    have begunTable : begun.tableId = row.tableId := by rw [← same]; rfl
    intro key found present
    simp only [DataFileCopies.append, OrderedMap.get?_insert] at present
    split at present
    · rename_i here
      obtain rfl := Option.some.inj present
      rw [here]
      exact ⟨begunTable.symm, begunId.symm⟩
    · exact stamped.beginKey key found present
  lookup := stamped.lookup.create fresh row
  lookupKey := stamped.lookupKey

def expire (copies : DataFileCopies) (row : DataFileRow) (lookups : List PartitionValueLookupKey) : DataFileCopies :=
  { dataFile := copies.dataFile.insert row.dataFileId row
    currentDataFile := copies.currentDataFile.erase ⟨row.tableId, row.dataFileId⟩
    dataFileBegin := copies.dataFileBegin.insert ⟨row.tableId, row.validity.beginOrder, row.dataFileId⟩ row
    partitionValueLookup := lookups.foldl OrderedMap.erase copies.partitionValueLookup }

/-- A row ends in every family when it is the stored one and all its lookups are cleared. -/
theorem Stamped.expire {copies : DataFileCopies} (stamped : copies.Stamped) {row stored : DataFileRow}
    {lookups : List PartitionValueLookupKey} (present : copies.dataFile.get? row.dataFileId = some stored)
    (table : stored.tableId = row.tableId) (begun : stored.validity.beginOrder = row.validity.beginOrder)
    (orders : (dataFileOrders row).Stamped)
    (cleared : ∀ key value, copies.partitionValueLookup.get? key = some value → key.dataFileId = row.dataFileId →
      key ∈ lookups) : (copies.expire row lookups).Stamped where
  stored := by
    intro dataFileId found taken
    simp only [DataFileCopies.expire, OrderedMap.get?_insert] at taken
    split at taken
    · rename_i here
      obtain rfl := Option.some.inj taken
      exact ⟨here.symm, orders⟩
    · exact stamped.stored dataFileId found taken
  current := by
    refine (stamped.current.erase _).replace row ?_
    intro key found taken same
    rw [OrderedMap.get?_erase] at taken
    split at taken
    · simp at taken
    · rename_i elsewhere
      obtain ⟨other, listed, view⟩ := stamped.current key found taken
      rw [same, present] at listed
      obtain rfl := Option.some.inj listed
      have sameTable : stored.tableId = found.tableId := congrArg Prod.fst view
      apply elsewhere
      rw [stamped.currentKey key found taken, ← sameTable, table, same]
  currentKey := by
    intro key found taken
    simp only [DataFileCopies.expire, OrderedMap.get?_erase] at taken
    split at taken
    · simp at taken
    · exact stamped.currentKey key found taken
  begun := by
    refine stamped.begun.move ?_ rfl rfl
    intro key found taken same
    obtain ⟨other, listed, view⟩ := stamped.begun key found taken
    rw [same, present] at listed
    obtain rfl := Option.some.inj listed
    have sameTable : stored.tableId = found.tableId := congrArg Prod.fst view
    have sameBegin : stored.validity.beginOrder = key.order :=
      congrArg (fun view : TableId × RowOrders => view.2.beginOrder) view
    obtain ⟨keyTable, keyFile⟩ := stamped.beginKey key found taken
    cases key
    simp only at keyTable keyFile sameBegin
    rw [keyTable, keyFile, ← sameBegin, ← sameTable, table, begun]
    rw [show found.dataFileId = row.dataFileId from same]
  beginKey := by
    intro key found taken
    simp only [DataFileCopies.expire, OrderedMap.get?_insert] at taken
    split at taken
    · rename_i here
      obtain rfl := Option.some.inj taken
      rw [here]
      exact ⟨rfl, rfl⟩
    · exact stamped.beginKey key found taken
  lookup := by
    refine (stamped.lookup.eraseAll lookups).replace row ?_
    intro key value taken same
    rw [get?_eraseAll] at taken
    split at taken
    · simp at taken
    · rename_i kept
      exact kept (cleared key value taken ((stamped.lookupKey key value taken).trans same))
  lookupKey := by
    intro key value taken
    simp only [DataFileCopies.expire, get?_eraseAll] at taken
    split at taken
    · simp at taken
    · exact stamped.lookupKey key value taken

def register (copies : DataFileCopies) (value : FilePartitionValueRow) (row : DataFileRow) : DataFileCopies :=
  { copies with
    partitionValueLookup := copies.partitionValueLookup.insert
      ⟨value.tableId, value.partitionKeyIndex, value.partitionValue, value.dataFileId⟩ (value, row) }

theorem Stamped.register {copies : DataFileCopies} (stamped : copies.Stamped) {value : FilePartitionValueRow}
    {row : DataFileRow} (present : copies.dataFile.get? row.dataFileId = some row)
    (same : row.dataFileId = value.dataFileId) : (copies.register value row).Stamped where
  stored := stamped.stored
  current := stamped.current
  currentKey := stamped.currentKey
  begun := stamped.begun
  beginKey := stamped.beginKey
  lookup := stamped.lookup.put present rfl
  lookupKey := by
    intro key found taken
    simp only [DataFileCopies.register, OrderedMap.get?_insert] at taken
    split at taken
    · rename_i here
      obtain rfl := Option.some.inj taken
      rw [here]
      exact same.symm
    · exact stamped.lookupKey key found taken

end DataFileCopies

/-! ## Copies of delete files -/

structure DeleteFileCopies where
  deleteFile : OrderedMap DeleteFileId DeleteFileRow
  currentDeleteFile : OrderedMap DataFileId DeleteFileRow
  deleteFileTimeline : OrderedMap DeleteFileTimelineKey DeleteFileRow

def deleteFileCopies (kv : CatalogKv) : DeleteFileCopies :=
  ⟨kv.deleteFile, kv.currentDeleteFile, kv.deleteFileTimeline⟩

def deleteFileView (row : DeleteFileRow) : DataFileId × RowOrders := (row.dataFileId, deleteFileOrders row)

namespace DeleteFileCopies

structure Stamped (copies : DeleteFileCopies) : Prop where
  stored : ∀ deleteFileId row, copies.deleteFile.get? deleteFileId = some row →
    row.deleteFileId = deleteFileId ∧ (deleteFileOrders row).Stamped
  current : Mirrors DeleteFileRow.deleteFileId deleteFileView (fun _ row => row) copies.deleteFile
    copies.currentDeleteFile
  currentKey : ∀ dataFileId row, copies.currentDeleteFile.get? dataFileId = some row → row.dataFileId = dataFileId
  timeline : Mirrors DeleteFileRow.deleteFileId deleteFileView (fun key row => deleteFileFromTimelineItem (key, row))
    copies.deleteFile copies.deleteFileTimeline

/-- The timeline entries of the row, if any, all stand under the given key. -/
def HeldUnder (copies : DeleteFileCopies) (row : DeleteFileRow) (key : Option DeleteFileTimelineKey) : Prop :=
  ∀ found entry, copies.deleteFileTimeline.get? found = some entry → entry.deleteFileId = row.deleteFileId →
    key = some found

/-- The delete file of a data file is no longer the current one. -/
def forget (copies : DeleteFileCopies) (dataFileId : DataFileId) : DeleteFileCopies :=
  { copies with currentDeleteFile := copies.currentDeleteFile.erase dataFileId }

theorem Stamped.forget {copies : DeleteFileCopies} (stamped : copies.Stamped) (dataFileId : DataFileId) :
    (copies.forget dataFileId).Stamped where
  stored := stamped.stored
  current := stamped.current.erase dataFileId
  currentKey := by
    intro found row taken
    simp only [DeleteFileCopies.forget, OrderedMap.get?_erase] at taken
    split at taken
    · simp at taken
    · exact stamped.currentKey found row taken
  timeline := stamped.timeline

def close (copies : DeleteFileCopies) (row : DeleteFileRow) (key : Option DeleteFileTimelineKey) : DeleteFileCopies :=
  { copies with
    deleteFile := copies.deleteFile.insert row.deleteFileId row
    deleteFileTimeline := key.elim copies.deleteFileTimeline fun key => copies.deleteFileTimeline.insert key row }

theorem resolveOrder_of_ne {order given : CatalogOrderId} (stamped : given ≠ autoOrder) :
    resolveOrder order given = given := if_neg stamped

/-- A row without placeholders is read as it stands. -/
theorem deleteFileFromTimelineItem_of_stamped {key : DeleteFileTimelineKey} {row : DeleteFileRow}
    (orders : (deleteFileOrders row).Stamped) : deleteFileFromTimelineItem (key, row) = row := by
  have begun : resolveOrder key.order row.validity.beginOrder = row.validity.beginOrder :=
    resolveOrder_of_ne orders.beginOrder
  have partialOrder : row.maxPartialOrder.map (resolveOrder key.order) = row.maxPartialOrder := by
    have maxPartialOrder := orders.maxPartialOrder
    cases found : row.maxPartialOrder with
    | none => rfl
    | some order =>
      have given : order ≠ autoOrder := fun auto => maxPartialOrder (by simp [deleteFileOrders, found, auto])
      simp [resolveOrder_of_ne given]
  simp [deleteFileFromTimelineItem, begun, partialOrder, DeleteFileRow.withBeginOrder]

/-- A row that is no longer current ends in every family when its timeline entry is known. -/
theorem Stamped.close {copies : DeleteFileCopies} (stamped : copies.Stamped) {row stored : DeleteFileRow}
    {key : Option DeleteFileTimelineKey} (present : copies.deleteFile.get? row.deleteFileId = some stored)
    (file : stored.dataFileId = row.dataFileId) (orders : (deleteFileOrders row).Stamped)
    (replaced : copies.currentDeleteFile.get? row.dataFileId = none) (held : copies.HeldUnder row key) :
    (copies.close row key).Stamped where
  stored := by
    intro deleteFileId found taken
    simp only [DeleteFileCopies.close, OrderedMap.get?_insert] at taken
    split at taken
    · rename_i here
      obtain rfl := Option.some.inj taken
      exact ⟨here.symm, orders⟩
    · exact stamped.stored deleteFileId found taken
  current := by
    refine stamped.current.replace row ?_
    intro dataFileId found taken same
    obtain ⟨other, listed, view⟩ := stamped.current dataFileId found taken
    rw [same, present] at listed
    obtain rfl := Option.some.inj listed
    have sameFile : stored.dataFileId = found.dataFileId := congrArg Prod.fst view
    rw [← stamped.currentKey dataFileId found taken, ← sameFile, file, replaced] at taken
    simp at taken
  currentKey := stamped.currentKey
  timeline := by
    have read : ∀ found, deleteFileView row = deleteFileView (deleteFileFromTimelineItem (found, row)) := by
      intro found
      rw [deleteFileFromTimelineItem_of_stamped orders]
    cases key with
    | none =>
      refine stamped.timeline.replace row ?_
      intro found entry taken same
      exact absurd (held found entry taken same) (by simp)
    | some key =>
      refine stamped.timeline.move ?_ rfl (read key)
      intro found entry taken same
      exact (Option.some.inj (held found entry taken same)).symm

def record (copies : DeleteFileCopies) (row entry : DeleteFileRow) (key : DeleteFileTimelineKey) : DeleteFileCopies :=
  { deleteFile := copies.deleteFile.insert row.deleteFileId row
    currentDeleteFile := copies.currentDeleteFile.insert row.dataFileId row
    deleteFileTimeline := copies.deleteFileTimeline.insert key entry }

/-- A new row takes the place of the current one; its timeline entry is repaired from its key. -/
theorem Stamped.record {copies : DeleteFileCopies} (stamped : copies.Stamped) {row entry : DeleteFileRow}
    {key : DeleteFileTimelineKey} (fresh : copies.deleteFile.get? row.deleteFileId = none)
    (orders : (deleteFileOrders row).Stamped) (same : deleteFileFromTimelineItem (key, entry) = row) :
    (copies.record row entry key).Stamped where
  stored := by
    intro deleteFileId found taken
    simp only [DeleteFileCopies.record, OrderedMap.get?_insert] at taken
    split at taken
    · rename_i here
      obtain rfl := Option.some.inj taken
      exact ⟨here.symm, orders⟩
    · exact stamped.stored deleteFileId found taken
  current := by
    refine Mirrors.put (stamped.current.create fresh row) ?_ (rfl : deleteFileView row = _)
    simp
  currentKey := by
    intro found listed taken
    simp only [DeleteFileCopies.record, OrderedMap.get?_insert] at taken
    split at taken
    · rename_i here
      obtain rfl := Option.some.inj taken
      exact here.symm
    · exact stamped.currentKey found listed taken
  timeline := by
    have entryId : entry.deleteFileId = row.deleteFileId := by rw [← same]; rfl
    refine Mirrors.put (stamped.timeline.create fresh row) (?_ : _ = some row) ?_
    · simp [deleteFileFromTimelineItem, DeleteFileRow.withBeginOrder, entryId]
    · rw [same]

end DeleteFileCopies

end DucklakeCatalog.Fdb
