import DucklakeCatalog.File.DataFileStore
import Mathlib.Logic.Function.Basic

namespace DucklakeCatalog

open KeyedStore

/-- The maps that hold or name delete files. -/
structure DeleteFileIndexes where
  deleteFile : OrderedMap DeleteFileId DeleteFileRow
  currentDeleteFile : OrderedMap DataFileId DeleteFileRow
  timeline : OrderedMap DeleteFileTimelineKey DeleteFileRow
  ended : OrderedMap TableOrderKey DeleteFileId
  tableChange : OrderedMap TableOrderKey Unit
  orderChange : OrderedMap OrderTableKey Unit
  scheduled : OrderedMap DeleteFileId (TableId × Int)

def CatalogKv.deleteFileIndexes (kv : CatalogKv) : DeleteFileIndexes where
  deleteFile := kv.deleteFile
  currentDeleteFile := kv.currentDeleteFile
  timeline := kv.deleteFileTimeline
  ended := kv.deleteFileEnd
  tableChange := kv.tableDeleteFileChange
  orderChange := kv.orderDeleteFileChange
  scheduled := kv.scheduledDeleteFileCleanup

/-- What the data files of the store say about the delete files attached to them. -/
structure DeleteFileScope where
  /-- A stored data file belongs to the table. -/
  Owned : DataFileId → TableId → Prop
  /-- A stored data file has ended by the order. -/
  Ended : DataFileId → CatalogOrderId → Prop
  /-- The delete file id was registered before. -/
  Used : DeleteFileId → Prop
  /-- No registration is newer. -/
  newest : CatalogOrderId

namespace DeleteFileIndexes

/-- A later registration on the same data file that reaches back before its own order. -/
def ReplacedAt (indexes : DeleteFileIndexes) (dataFileId : DataFileId) (order : CatalogOrderId) : Prop :=
  ∃ deleteFileId row, indexes.timeline.get? ⟨dataFileId, order, deleteFileId⟩ = some row ∧
    row.validity.beginOrder < order

/-- The invariant of the delete file maps. The table of a delete file is the one its data file had when it
was registered. -/
structure Sound (indexes : DeleteFileIndexes) (scope : DeleteFileScope) (tableOf : DeleteFileId → TableId) : Prop where
  entry : ∀ {key row}, indexes.timeline.get? key = some row →
    row.deleteFileId = key.deleteFileId ∧ row.dataFileId = key.dataFileId ∧ scope.Used key.deleteFileId ∧
      key.order ≤ scope.newest
  only : ∀ {key other row stored}, indexes.timeline.get? key = some row → indexes.timeline.get? other = some stored →
    key.deleteFileId = other.deleteFileId → key = other
  primary : ∀ {deleteFileId row}, indexes.deleteFile.get? deleteFileId = some row →
    row.deleteFileId = deleteFileId ∧
      ∃ order, indexes.timeline.get? ⟨row.dataFileId, order, deleteFileId⟩ = some row
  changed : ∀ {key row}, indexes.timeline.get? key = some row →
    scope.Owned key.dataFileId (tableOf key.deleteFileId) ∧
      indexes.tableChange.get? ⟨tableOf key.deleteFileId, key.order, key.deleteFileId⟩ = some () ∧
      indexes.orderChange.get? ⟨key.order, tableOf key.deleteFileId, key.deleteFileId⟩ = some ()
  closed : ∀ {key row endOrder}, indexes.timeline.get? key = some row → row.validity.endOrder = some endOrder →
    key.order < endOrder ∧ (indexes.ReplacedAt key.dataFileId endOrder ∨ scope.Ended key.dataFileId endOrder)
  tableChanged : ∀ {key}, indexes.tableChange.get? key = some () →
    key.tableId = tableOf key.fileId ∧ ∃ dataFileId row, indexes.timeline.get? ⟨dataFileId, key.order, key.fileId⟩ = some row
  orderChanged : ∀ {key}, indexes.orderChange.get? key = some () →
    key.tableId = tableOf key.fileId ∧ ∃ dataFileId row, indexes.timeline.get? ⟨dataFileId, key.order, key.fileId⟩ = some row
  ends : ∀ {key deleteFileId}, indexes.ended.get? key = some deleteFileId →
    key.tableId = tableOf key.fileId ∧ ∃ row, indexes.deleteFile.get? key.fileId = some row ∧
      row.validity.endOrder = some key.order
  schedule : ∀ {deleteFileId cleanup}, indexes.scheduled.get? deleteFileId = some cleanup →
    cleanup.1 = tableOf deleteFileId ∧ ∃ row, indexes.deleteFile.get? deleteFileId = some row

/-- Current entries are copies of open primary rows. -/
def CurrentOpen (indexes : DeleteFileIndexes) : Prop :=
  ∀ {dataFileId row}, indexes.currentDeleteFile.get? dataFileId = some row →
    row.dataFileId = dataFileId ∧ row.validity.endOrder = none ∧
      indexes.deleteFile.get? row.deleteFileId = some row

def register (indexes : DeleteFileIndexes) (row : DeleteFileRow) (tableId : TableId) (order : CatalogOrderId) :
    DeleteFileIndexes :=
  { indexes with
    deleteFile := indexes.deleteFile.insert row.deleteFileId row
    currentDeleteFile := indexes.currentDeleteFile.insert row.dataFileId row
    timeline := indexes.timeline.insert ⟨row.dataFileId, order, row.deleteFileId⟩ row
    tableChange := indexes.tableChange.insert ⟨tableId, order, row.deleteFileId⟩ ()
    orderChange := indexes.orderChange.insert ⟨order, tableId, row.deleteFileId⟩ () }

def close (indexes : DeleteFileIndexes) (row : DeleteFileRow) (key : DeleteFileTimelineKey) (tableId : TableId)
    (endOrder : CatalogOrderId) : DeleteFileIndexes :=
  { indexes with
    deleteFile := indexes.deleteFile.insert row.deleteFileId row
    timeline := indexes.timeline.insert key row
    ended := indexes.ended.insert ⟨tableId, endOrder, row.deleteFileId⟩ row.deleteFileId }

variable {indexes : DeleteFileIndexes} {scope : DeleteFileScope} {tableOf : DeleteFileId → TableId}

/-- A wider scope and more knowledge about data files keep the invariant. -/
theorem Sound.mono {wider : DeleteFileScope} (sound : indexes.Sound scope tableOf)
    (owned : ∀ {key row}, indexes.timeline.get? key = some row → scope.Owned key.dataFileId (tableOf key.deleteFileId) →
      wider.Owned key.dataFileId (tableOf key.deleteFileId))
    (ended : ∀ {key row endOrder}, indexes.timeline.get? key = some row → scope.Ended key.dataFileId endOrder →
      wider.Ended key.dataFileId endOrder)
    (used : ∀ deleteFileId, scope.Used deleteFileId → wider.Used deleteFileId) (newest : scope.newest ≤ wider.newest) :
    indexes.Sound wider tableOf :=
  { sound with
    entry := fun found =>
      have known := sound.entry found
      ⟨known.1, known.2.1, used _ known.2.2.1, known.2.2.2.trans newest⟩
    changed := fun found => ⟨owned found (sound.changed found).1, (sound.changed found).2⟩
    closed := fun found closes => ⟨(sound.closed found closes).1, (sound.closed found closes).2.imp id (ended found)⟩ }

/-- Registering a delete file whose id no timeline entry names. -/
theorem Sound.register
    (sound : indexes.Sound scope tableOf) {row : DeleteFileRow} {tableId : TableId} {order : CatalogOrderId}
    (unnamed : ∀ key stored, indexes.timeline.get? key = some stored → key.deleteFileId ≠ row.deleteFileId)
    (opened : row.validity.endOrder = none) (owned : scope.Owned row.dataFileId tableId)
    (used : scope.Used row.deleteFileId) (recent : order ≤ scope.newest) :
    (indexes.register row tableId order).Sound scope (Function.update tableOf row.deleteFileId tableId) := by
  have absent : indexes.deleteFile.get? row.deleteFileId = none := by
    refine Option.eq_none_iff_forall_ne_some.mpr ?_
    intro stored found
    obtain ⟨_, begun, indexed⟩ := sound.primary found
    exact unnamed _ _ indexed rfl
  have sameTable {deleteFileId : DeleteFileId} (different : deleteFileId ≠ row.deleteFileId) :
      Function.update tableOf row.deleteFileId tableId deleteFileId = tableOf deleteFileId := by
    simp [Function.update_of_ne different]
  -- An entry of the new timeline is the new one or an old one of another delete file.
  have entries {key : DeleteFileTimelineKey} {stored : DeleteFileRow}
      (found : (indexes.register row tableId order).timeline.get? key = some stored) :
      (key = ⟨row.dataFileId, order, row.deleteFileId⟩ ∧ stored = row) ∨
        (indexes.timeline.get? key = some stored ∧ key.deleteFileId ≠ row.deleteFileId) := by
    simp only [DeleteFileIndexes.register, OrderedMap.get?_insert] at found
    split at found
    · rename_i same
      exact Or.inl ⟨same, (Option.some.inj found).symm⟩
    · exact Or.inr ⟨found, unnamed _ _ found⟩
  have kept {key : DeleteFileTimelineKey} {stored : DeleteFileRow} (found : indexes.timeline.get? key = some stored) :
      (indexes.register row tableId order).timeline.get? key = some stored := by
    have different : key ≠ ⟨row.dataFileId, order, row.deleteFileId⟩ := by
      rintro rfl
      exact unnamed _ _ found rfl
    simpa [DeleteFileIndexes.register, OrderedMap.get?_insert, different] using found
  have new : (indexes.register row tableId order).timeline.get? ⟨row.dataFileId, order, row.deleteFileId⟩ = some row := by
    simp [DeleteFileIndexes.register]
  have replaced {dataFileId : DataFileId} {endOrder : CatalogOrderId} (earlier : indexes.ReplacedAt dataFileId endOrder) :
      (indexes.register row tableId order).ReplacedAt dataFileId endOrder := by
    obtain ⟨deleteFileId, stored, found, reaches⟩ := earlier
    exact ⟨deleteFileId, stored, kept found, reaches⟩
  refine ⟨?_, ?_, ?_, ?_, ?_, ?_, ?_, ?_, ?_⟩
  · intro key stored found
    rcases entries found with ⟨rfl, rfl⟩ | ⟨old, _⟩
    · exact ⟨rfl, rfl, used, recent⟩
    · exact sound.entry old
  · intro key other stored another found alsoFound same
    rcases entries found with ⟨rfl, rfl⟩ | ⟨old, different⟩
    · rcases entries alsoFound with ⟨rfl, rfl⟩ | ⟨_, alsoDifferent⟩
      · rfl
      · exact absurd same.symm alsoDifferent
    · rcases entries alsoFound with ⟨rfl, rfl⟩ | ⟨alsoOld, _⟩
      · exact absurd same different
      · exact sound.only old alsoOld same
  · intro deleteFileId stored found
    simp only [DeleteFileIndexes.register, OrderedMap.get?_insert] at found
    split at found
    · rename_i same
      obtain rfl := Option.some.inj found
      exact ⟨same.symm, order, same ▸ new⟩
    · obtain ⟨named, begun, indexed⟩ := sound.primary found
      exact ⟨named, begun, kept indexed⟩
  · intro key stored found
    rcases entries found with ⟨rfl, rfl⟩ | ⟨old, different⟩
    · simpa [DeleteFileIndexes.register, Function.update_self] using owned
    · obtain ⟨ownedOld, table, ordered⟩ := sound.changed old
      rw [sameTable different]
      refine ⟨ownedOld, ?_, ?_⟩
      · simpa [DeleteFileIndexes.register, OrderedMap.get?_insert, different] using table
      · simpa [DeleteFileIndexes.register, OrderedMap.get?_insert, different] using ordered
  · intro key stored endOrder found closes
    rcases entries found with ⟨rfl, rfl⟩ | ⟨old, _⟩
    · simp [opened] at closes
    · obtain ⟨later, reason⟩ := sound.closed old closes
      exact ⟨later, reason.imp replaced id⟩
  · intro key found
    obtain ⟨table, changedAt, fileId⟩ := key
    simp only [DeleteFileIndexes.register, OrderedMap.get?_insert, TableOrderKey.mk.injEq] at found
    split at found
    · rename_i same
      obtain ⟨rfl, rfl, rfl⟩ := same
      exact ⟨by simp, row.dataFileId, row, new⟩
    · obtain ⟨sameTable', dataFileId, stored, indexed⟩ := sound.tableChanged found
      exact ⟨sameTable'.trans (sameTable (unnamed _ _ indexed)).symm, dataFileId, stored, kept indexed⟩
  · intro key found
    obtain ⟨changedAt, table, fileId⟩ := key
    simp only [DeleteFileIndexes.register, OrderedMap.get?_insert, OrderTableKey.mk.injEq] at found
    split at found
    · rename_i same
      obtain ⟨rfl, rfl, rfl⟩ := same
      exact ⟨by simp, row.dataFileId, row, new⟩
    · obtain ⟨sameTable', dataFileId, stored, indexed⟩ := sound.orderChanged found
      exact ⟨sameTable'.trans (sameTable (unnamed _ _ indexed)).symm, dataFileId, stored, kept indexed⟩
  · intro key deleteFileId found
    obtain ⟨table, stored, primary, closes⟩ := sound.ends found
    have different : key.fileId ≠ row.deleteFileId := by
      intro same
      simp [same, absent] at primary
    refine ⟨table.trans (sameTable different).symm, stored, ?_, closes⟩
    simpa [DeleteFileIndexes.register, OrderedMap.get?_insert, different] using primary
  · intro deleteFileId cleanup found
    obtain ⟨table, stored, primary⟩ := sound.schedule found
    have different : deleteFileId ≠ row.deleteFileId := by
      rintro rfl
      simp [absent] at primary
    refine ⟨table.trans (sameTable different).symm, stored, ?_⟩
    simpa [DeleteFileIndexes.register, OrderedMap.get?_insert, different] using primary

/-- Closing a delete file that is open, or that this commit has closed already. -/
theorem Sound.close
    (sound : indexes.Sound scope tableOf) {row : DeleteFileRow} {key : DeleteFileTimelineKey} {tableId : TableId}
    {endOrder : CatalogOrderId} (primary : indexes.deleteFile.get? row.deleteFileId = some row)
    (closes : row.validity.endOrder = none ∨ row.validity.endOrder = some endOrder)
    (indexed : indexes.timeline.get? key = some row) (later : key.order < endOrder)
    (reason : indexes.ReplacedAt key.dataFileId endOrder ∨ scope.Ended key.dataFileId endOrder)
    (table : tableId = tableOf row.deleteFileId) :
    (indexes.close (row.withEndOrder (some endOrder)) key tableId endOrder).Sound scope tableOf := by
  obtain ⟨named, owner, usedKey, recent⟩ := sound.entry indexed
  have entries {other : DeleteFileTimelineKey} {stored : DeleteFileRow}
      (found : (indexes.close (row.withEndOrder (some endOrder)) key tableId endOrder).timeline.get? other = some stored) :
      (other = key ∧ stored = row.withEndOrder (some endOrder)) ∨
        (other ≠ key ∧ indexes.timeline.get? other = some stored) := by
    simp only [DeleteFileIndexes.close, OrderedMap.get?_insert] at found
    split at found
    · rename_i same
      exact Or.inl ⟨same, (Option.some.inj found).symm⟩
    · rename_i different
      exact Or.inr ⟨different, found⟩
  have earlier {other : DeleteFileTimelineKey} {stored : DeleteFileRow}
      (found : (indexes.close (row.withEndOrder (some endOrder)) key tableId endOrder).timeline.get? other = some stored) :
      ∃ before, indexes.timeline.get? other = some before := by
    rcases entries found with ⟨rfl, _⟩ | ⟨_, old⟩
    · exact ⟨row, indexed⟩
    · exact ⟨stored, old⟩
  have kept {other : DeleteFileTimelineKey} {stored : DeleteFileRow} (found : indexes.timeline.get? other = some stored) :
      ∃ after, (indexes.close (row.withEndOrder (some endOrder)) key tableId endOrder).timeline.get? other = some after ∧
        after.validity.beginOrder = stored.validity.beginOrder := by
    by_cases same : other = key
    · subst same
      obtain rfl := Option.some.inj (indexed.symm.trans found)
      exact ⟨row.withEndOrder (some endOrder), by simp [DeleteFileIndexes.close], rfl⟩
    · exact ⟨stored, by simpa [DeleteFileIndexes.close, OrderedMap.get?_insert, same] using found, rfl⟩
  have replaced {dataFileId : DataFileId} {order : CatalogOrderId} (before : indexes.ReplacedAt dataFileId order) :
      (indexes.close (row.withEndOrder (some endOrder)) key tableId endOrder).ReplacedAt dataFileId order := by
    obtain ⟨deleteFileId, stored, found, reaches⟩ := before
    obtain ⟨after, found, same⟩ := kept found
    exact ⟨deleteFileId, after, found, same ▸ reaches⟩
  refine ⟨?_, ?_, ?_, ?_, ?_, ?_, ?_, ?_, ?_⟩
  · intro other stored found
    rcases entries found with ⟨rfl, rfl⟩ | ⟨_, old⟩
    · exact ⟨named, owner, usedKey, recent⟩
    · exact sound.entry old
  · intro first second stored another found alsoFound same
    obtain ⟨_, old⟩ := earlier found
    obtain ⟨_, alsoOld⟩ := earlier alsoFound
    exact sound.only old alsoOld same
  · intro deleteFileId stored found
    simp only [DeleteFileIndexes.close, OrderedMap.get?_insert] at found
    split at found
    · rename_i same
      obtain rfl := Option.some.inj found
      refine ⟨same.symm, key.order, ?_⟩
      have sameKey : (⟨row.dataFileId, key.order, deleteFileId⟩ : DeleteFileTimelineKey) = key := by
        have ids : deleteFileId = row.deleteFileId := same
        rw [ids, named, owner]
      simp [DeleteFileIndexes.close, DeleteFileRow.withEndOrder, sameKey]
    · rename_i different
      obtain ⟨names, order, old⟩ := sound.primary found
      refine ⟨names, order, ?_⟩
      have otherKey : (⟨stored.dataFileId, order, deleteFileId⟩ : DeleteFileTimelineKey) ≠ key := by
        rintro rfl
        exact different named.symm
      simpa [DeleteFileIndexes.close, OrderedMap.get?_insert, otherKey] using old
  · intro other stored found
    obtain ⟨_, old⟩ := earlier found
    exact sound.changed old
  · intro other stored order found ends
    rcases entries found with ⟨rfl, rfl⟩ | ⟨_, old⟩
    · obtain rfl : endOrder = order := by simpa [DeleteFileRow.withEndOrder] using ends
      exact ⟨later, reason.imp replaced id⟩
    · obtain ⟨before, why⟩ := sound.closed old ends
      exact ⟨before, why.imp replaced id⟩
  · intro other found
    obtain ⟨sameTable, dataFileId, stored, old⟩ := sound.tableChanged found
    obtain ⟨after, found, _⟩ := kept old
    exact ⟨sameTable, dataFileId, after, found⟩
  · intro other found
    obtain ⟨sameTable, dataFileId, stored, old⟩ := sound.orderChanged found
    obtain ⟨after, found, _⟩ := kept old
    exact ⟨sameTable, dataFileId, after, found⟩
  · intro other deleteFileId found
    obtain ⟨otherTable, order, fileId⟩ := other
    simp only [DeleteFileIndexes.close, OrderedMap.get?_insert, TableOrderKey.mk.injEq] at found
    split at found
    · rename_i same
      obtain ⟨rfl, rfl, rfl⟩ := same
      exact ⟨table, row.withEndOrder (some order), by simp [DeleteFileIndexes.close], rfl⟩
    · rename_i different
      obtain ⟨sameTable, stored, found, ends⟩ := sound.ends found
      refine ⟨sameTable, ?_⟩
      by_cases same : fileId = row.deleteFileId
      · subst same
        obtain rfl := Option.some.inj (primary.symm.trans found)
        rcases closes with opened | closes
        · simp [opened] at ends
        · have orders : order = endOrder := Option.some.inj (ends.symm.trans closes)
          exact absurd ⟨sameTable.trans table.symm, orders, rfl⟩ different
      · exact ⟨stored, by simpa [DeleteFileIndexes.close, OrderedMap.get?_insert, DeleteFileRow.withEndOrder, same] using found,
          ends⟩
  · intro deleteFileId cleanup found
    obtain ⟨sameTable, stored, found⟩ := sound.schedule found
    refine ⟨sameTable, ?_⟩
    by_cases same : deleteFileId = row.deleteFileId
    · exact ⟨row.withEndOrder (some endOrder), by simp [DeleteFileIndexes.close, DeleteFileRow.withEndOrder, same]⟩
    · exact ⟨stored, by simpa [DeleteFileIndexes.close, OrderedMap.get?_insert, DeleteFileRow.withEndOrder, same] using found⟩

end DeleteFileIndexes

end DucklakeCatalog
