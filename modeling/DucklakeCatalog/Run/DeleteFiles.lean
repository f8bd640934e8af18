import DucklakeCatalog.File.DeleteFileIndexes
import DucklakeCatalog.Run.DataFileCoherence

namespace DucklakeCatalog

open KeyedStore

/-! ## Staged delete files -/

/-- The staged part of the delete file maps. -/
def KvBatch.deleteFileMaps (batch : KvBatch) :=
  (batch.deleteFile, batch.currentDeleteFile, batch.deleteFileTimeline, batch.deleteFileEnd,
    batch.tableDeleteFileChange, batch.orderDeleteFileChange, batch.scheduledDeleteFileCleanup)

theorem CatalogKv.commit_deleteFileIndexes_congr (kv : CatalogKv) {before after : KvBatch}
    (same : after.deleteFileMaps = before.deleteFileMaps) :
    (kv.commit after).deleteFileIndexes = (kv.commit before).deleteFileIndexes := by
  simp only [KvBatch.deleteFileMaps, Prod.mk.injEq] at same
  simp only [CatalogKv.deleteFileIndexes, CatalogKv.commit, same]

theorem commit_putRegisteredDeleteFile (kv : CatalogKv) (batch : KvBatch) (tableId : TableId) (row : DeleteFileRow)
    (order : CatalogOrderId) :
    (kv.commit (putRegisteredDeleteFile batch tableId row order)).deleteFileIndexes =
      (kv.commit batch).deleteFileIndexes.register row tableId order := by
  simp [CatalogKv.deleteFileIndexes, CatalogKv.commit, putRegisteredDeleteFile, DeleteFileIndexes.register]

variable {tableId : TableId} {row : DeleteFileRow} {key : DeleteFileTimelineKey} {deleteFileId : DeleteFileId}

theorem commit_putClosedDeleteFile {kv : CatalogKv} {batch : KvBatch}
    {endOrder : CatalogOrderId} (indexed : deleteFileTimelineKeyForRow kv row = some key) :
    (kv.commit (putClosedDeleteFile kv batch tableId row endOrder)).deleteFileIndexes =
      (kv.commit batch).deleteFileIndexes.close row key tableId endOrder := by
  simp [CatalogKv.deleteFileIndexes, CatalogKv.commit, putClosedDeleteFile, indexed, DeleteFileIndexes.close]

namespace DeleteFileIndexes

/-- Closing one delete file and registering another commute. -/
theorem close_register (indexes : DeleteFileIndexes) {closing : DeleteFileRow}
    {order : CatalogOrderId} (different : closing.deleteFileId ≠ row.deleteFileId)
    (named : closing.deleteFileId = key.deleteFileId) :
    (indexes.close closing key tableId order).register row tableId order =
      (indexes.register row tableId order).close closing key tableId order := by
  have otherKey : key ≠ ⟨row.dataFileId, order, row.deleteFileId⟩ := by
    rintro rfl
    exact different named
  simp only [close, register, OrderedMap.insert_comm _ different, OrderedMap.insert_comm _ otherKey]

end DeleteFileIndexes

/-- A delete file with one timeline entry under its data file is found there. -/
theorem deleteFileTimelineKeyForRow_of_only {kv : CatalogKv} {stored : DeleteFileRow}
    (indexed : kv.deleteFileTimeline.get? key = some stored) (sameFile : key.dataFileId = row.dataFileId)
    (sameId : stored.deleteFileId = row.deleteFileId)
    (only : ∀ other found, kv.deleteFileTimeline.get? other = some found → other.dataFileId = row.dataFileId →
      found.deleteFileId = row.deleteFileId → other = key) : deleteFileTimelineKeyForRow kv row = some key := by
  unfold deleteFileTimelineKeyForRow
  have member : (key, stored) ∈ kv.deleteFileTimeline.scan fun key => key.dataFileId = row.dataFileId :=
    OrderedMap.mem_scan.mpr ⟨indexed, by simpa using sameFile⟩
  cases found : (kv.deleteFileTimeline.scan fun key => key.dataFileId = row.dataFileId).find? fun entry =>
      entry.2.deleteFileId = row.deleteFileId with
  | none =>
    have missed := List.find?_eq_none.mp found _ member
    simp [sameId] at missed
  | some entry =>
    obtain ⟨inside, ofFile⟩ := OrderedMap.mem_scan.mp (List.mem_of_find?_eq_some found)
    have ids : entry.2.deleteFileId = row.deleteFileId := by simpa using List.find?_some found
    simp [only _ _ inside (by simpa using ofFile) ids]

/-- The one timeline entry of a stored delete file is found by its id. -/
theorem deleteFileTimelineKeyForRow_eq {kv : CatalogKv} {scope : DeleteFileScope} {tableOf : DeleteFileId → TableId}
    (sound : kv.deleteFileIndexes.Sound scope tableOf) (row : DeleteFileRow) {stored : DeleteFileRow}
    (indexed : kv.deleteFileTimeline.get? key = some stored) (sameFile : key.dataFileId = row.dataFileId)
    (sameId : key.deleteFileId = row.deleteFileId) : deleteFileTimelineKeyForRow kv row = some key := by
  have names := (sound.entry indexed).1
  refine deleteFileTimelineKeyForRow_of_only indexed sameFile (names.trans sameId) ?_
  intro other found inside _ ids
  have otherNames := (sound.entry inside).1
  exact sound.only inside indexed (otherNames.symm.trans (ids.trans sameId.symm))

/-- The inherited begin order is the one of the current delete file. -/
theorem inheritCurrentDeleteBeginOrder_eq (kv : CatalogKv) (row : DeleteFileRow) :
    (inheritCurrentDeleteBeginOrder kv row).deleteFileId = row.deleteFileId ∧
      (inheritCurrentDeleteBeginOrder kv row).dataFileId = row.dataFileId ∧
      (inheritCurrentDeleteBeginOrder kv row).validity.endOrder = row.validity.endOrder ∧
      ∀ current, kv.currentDeleteFile.get? row.dataFileId = some current → current.deleteFileId ≠ row.deleteFileId →
        (inheritCurrentDeleteBeginOrder kv row).validity.beginOrder = current.validity.beginOrder := by
  unfold inheritCurrentDeleteBeginOrder
  split
  · rename_i missing
    exact ⟨rfl, rfl, rfl, fun current found => by simp [missing] at found⟩
  · rename_i current found
    split
    · rename_i same
      refine ⟨rfl, rfl, rfl, ?_⟩
      intro other stored different
      obtain rfl := Option.some.inj (found.symm.trans stored)
      exact absurd same different
    · refine ⟨rfl, rfl, rfl, ?_⟩
      intro other stored _
      obtain rfl := Option.some.inj (found.symm.trans stored)
      rfl

namespace DeleteFileIndexes

/-- Every timeline entry names a delete file whose primary row is there. -/
def EntriesStored (indexes : DeleteFileIndexes) : Prop :=
  ∀ key row, indexes.timeline.get? key = some row → (indexes.deleteFile.get? key.deleteFileId).isSome

/-- How far the maps have come within one commit that started from `start`. -/
structure Follows (start indexes : DeleteFileIndexes) (scope : DeleteFileScope) (order : CatalogOrderId) : Prop where
  sound : ∃ tableOf, indexes.Sound scope tableOf
  opened : indexes.CurrentOpen
  kept : ∀ {deleteFileId row}, start.deleteFile.get? deleteFileId = some row →
    indexes.deleteFile.get? deleteFileId = some row ∨
      indexes.deleteFile.get? deleteFileId = some (row.withEndOrder (some order))
  keys : ∀ {key row}, start.timeline.get? key = some row → ∃ after, indexes.timeline.get? key = some after
  filed : start.EntriesStored → indexes.EntriesStored

/-- No timeline entry names the delete file. -/
def Unnamed (indexes : DeleteFileIndexes) (deleteFileId : DeleteFileId) : Prop :=
  ∀ key row, indexes.timeline.get? key = some row → key.deleteFileId ≠ deleteFileId

variable {start indexes : DeleteFileIndexes} {scope before : DeleteFileScope} {tableOf : DeleteFileId → TableId}
  {order : CatalogOrderId}

theorem Unnamed.absent (unnamed : indexes.Unnamed deleteFileId)
    (sound : indexes.Sound scope tableOf) : indexes.deleteFile.get? deleteFileId = none := by
  refine Option.eq_none_iff_forall_ne_some.mpr ?_
  intro stored found
  obtain ⟨_, begun, indexed⟩ := sound.primary found
  exact unnamed _ _ indexed rfl

theorem Unnamed.register (unnamed : indexes.Unnamed deleteFileId) (different : row.deleteFileId ≠ deleteFileId) :
    (indexes.register row tableId order).Unnamed deleteFileId := by
  intro key stored found
  simp only [DeleteFileIndexes.register, OrderedMap.get?_insert] at found
  split at found
  · rename_i same
    rw [same]
    exact different
  · exact unnamed key stored found

theorem Unnamed.close {place : DeleteFileTimelineKey}
    (unnamed : indexes.Unnamed deleteFileId) (different : place.deleteFileId ≠ deleteFileId) :
    (indexes.close row place tableId order).Unnamed deleteFileId := by
  intro key stored found
  simp only [DeleteFileIndexes.close, OrderedMap.get?_insert] at found
  split at found
  · rename_i same
    rw [same]
    exact different
  · exact unnamed key stored found

section

variable (follows : start.Follows indexes scope order)

include follows

theorem Follows.register (tableId : TableId)
    (opened : row.validity.endOrder = none) (unnamed : indexes.Unnamed row.deleteFileId)
    (owned : scope.Owned row.dataFileId tableId) (used : scope.Used row.deleteFileId) (recent : order ≤ scope.newest) :
    start.Follows (indexes.register row tableId order) scope order := by
  obtain ⟨tables, sound⟩ := follows.sound
  have absent := unnamed.absent sound
  refine ⟨⟨_, sound.register unnamed opened owned used recent⟩, ?_, ?_, ?_, ?_⟩
  · intro dataFileId stored found
    simp only [DeleteFileIndexes.register, OrderedMap.get?_insert] at found ⊢
    split at found
    · rename_i same
      obtain rfl := Option.some.inj found
      exact ⟨same.symm, opened, by simp⟩
    · obtain ⟨file, stillOpen, primary⟩ := follows.opened found
      have otherId : stored.deleteFileId ≠ row.deleteFileId := by
        intro same
        simp [same, absent] at primary
      exact ⟨file, stillOpen, by simpa [otherId] using primary⟩
  · intro deleteFileId stored found
    have otherId : deleteFileId ≠ row.deleteFileId := by
      rintro rfl
      rcases follows.kept found with kept | kept
      · simp [absent] at kept
      · simp [absent] at kept
    simpa [DeleteFileIndexes.register, OrderedMap.get?_insert, otherId] using follows.kept found
  · intro key stored found
    obtain ⟨after, still⟩ := follows.keys found
    simp only [DeleteFileIndexes.register, OrderedMap.get?_insert]
    split
    · exact ⟨row, rfl⟩
    · exact ⟨after, still⟩
  · intro filed key stored found
    simp only [DeleteFileIndexes.register, OrderedMap.get?_insert] at found ⊢
    split at found
    · rename_i same
      simp [same]
    · split
      · rfl
      · exact follows.filed filed _ _ found

/-- The delete file to close, with its one timeline entry. -/
theorem Follows.located (sound : start.Sound before tableOf)
    (stored : start.deleteFile.get? row.deleteFileId = some row) (opened : row.validity.endOrder = none) :
    ∃ key current, start.timeline.get? key = some row ∧ key.dataFileId = row.dataFileId ∧
      key.deleteFileId = row.deleteFileId ∧ indexes.deleteFile.get? current.deleteFileId = some current ∧
      indexes.timeline.get? key = some current ∧
      (current.validity.endOrder = none ∨ current.validity.endOrder = some order) ∧
      current.deleteFileId = row.deleteFileId ∧
      current.withEndOrder (some order) = row.withEndOrder (some order) := by
  obtain ⟨_, begun, indexed⟩ := sound.primary stored
  obtain ⟨_, soundNow⟩ := follows.sound
  obtain ⟨after, still⟩ := follows.keys indexed
  have current : ∃ current, indexes.deleteFile.get? row.deleteFileId = some current ∧
      (current.validity.endOrder = none ∨ current.validity.endOrder = some order) ∧
      current.deleteFileId = row.deleteFileId ∧ current.withEndOrder (some order) = row.withEndOrder (some order) := by
    rcases follows.kept stored with untouched | closed
    · exact ⟨row, untouched, Or.inl opened, rfl, rfl⟩
    · exact ⟨row.withEndOrder (some order), closed, Or.inr rfl, rfl, rfl⟩
  obtain ⟨current, primary, closes, sameId, same⟩ := current
  obtain ⟨_, placed, entry⟩ := soundNow.primary primary
  have sameKey := soundNow.only entry still rfl
  exact ⟨_, current, indexed, rfl, rfl, sameId ▸ primary, sameKey ▸ entry, closes, sameId, same⟩

/-- Closing keeps what the commit started with; the current entry of the data file must have moved on. -/
theorem Follows.close (sound : start.Sound before tableOf)
    (older : ∀ {key row}, start.timeline.get? key = some row → key.order < order)
    (stored : start.deleteFile.get? row.deleteFileId = some row) (opened : row.validity.endOrder = none)
    (moved : ∀ current, indexes.currentDeleteFile.get? row.dataFileId = some current →
      current.deleteFileId ≠ row.deleteFileId)
    (reason : indexes.ReplacedAt row.dataFileId order ∨ scope.Ended row.dataFileId order)
    (owner : ∀ table, scope.Owned row.dataFileId table → tableId = table)
    (indexed : start.timeline.get? key = some row) :
    start.Follows (indexes.close (row.withEndOrder (some order)) key tableId order) scope order := by
  obtain ⟨place, current, located, file, named, primary, entry, closes, sameId, same⟩ :=
    follows.located sound stored opened
  obtain rfl := sound.only indexed located (((sound.entry indexed).1.symm.trans named.symm))
  obtain ⟨tables, soundNow⟩ := follows.sound
  have table : tableId = tables current.deleteFileId := by
    have owned := (soundNow.changed entry).1
    rw [file, named, ← sameId] at owned
    exact owner _ owned
  have soundClosed := soundNow.close primary closes entry (older indexed) (file ▸ reason) table
  rw [same] at soundClosed
  refine ⟨⟨tables, soundClosed⟩, ?_, ?_, ?_, ?_⟩
  · intro dataFileId other found
    obtain ⟨otherFile, stillOpen, otherPrimary⟩ := follows.opened found
    have otherId : other.deleteFileId ≠ row.deleteFileId := by
      intro sameOther
      rw [sameOther, ← sameId, primary] at otherPrimary
      obtain rfl := Option.some.inj otherPrimary
      have sameFile := congrArg DeleteFileRow.dataFileId same
      obtain rfl : row.dataFileId = dataFileId := Eq.trans sameFile.symm otherFile
      exact moved _ found sameId
    refine ⟨otherFile, stillOpen, ?_⟩
    simpa [DeleteFileIndexes.close, OrderedMap.get?_insert, DeleteFileRow.withEndOrder, otherId] using otherPrimary
  · intro deleteFileId other found
    by_cases sameOther : deleteFileId = row.deleteFileId
    · subst sameOther
      obtain rfl := Option.some.inj (stored.symm.trans found)
      right
      simp [DeleteFileIndexes.close, DeleteFileRow.withEndOrder]
    · simpa [DeleteFileIndexes.close, OrderedMap.get?_insert, DeleteFileRow.withEndOrder, sameOther] using
        follows.kept found
  · intro other earlier found
    obtain ⟨after, still⟩ := follows.keys found
    simp only [DeleteFileIndexes.close, OrderedMap.get?_insert]
    split
    · exact ⟨_, rfl⟩
    · exact ⟨after, still⟩
  · intro filed other after found
    simp only [DeleteFileIndexes.close, OrderedMap.get?_insert] at found ⊢
    split
    · rfl
    · rename_i different
      split at found
      · rename_i sameKey
        exact absurd (sameKey ▸ named) different
      · exact follows.filed filed _ _ found

end

def dropCurrent (indexes : DeleteFileIndexes) (dataFileId : DataFileId) : DeleteFileIndexes :=
  { indexes with currentDeleteFile := indexes.currentDeleteFile.erase dataFileId }

theorem Follows.dropCurrent (follows : start.Follows indexes scope order) (dataFileId : DataFileId) :
    start.Follows (indexes.dropCurrent dataFileId) scope order := by
  obtain ⟨tables, sound⟩ := follows.sound
  refine ⟨⟨tables, { sound with }⟩, ?_, follows.kept, follows.keys, follows.filed⟩
  intro other row found
  simp only [DeleteFileIndexes.dropCurrent, OrderedMap.get?_erase] at found
  split at found
  · simp at found
  · exact follows.opened found

def schedule (indexes : DeleteFileIndexes) (tableId : TableId) (deleteFileId : DeleteFileId) (now : Int) :
    DeleteFileIndexes :=
  { indexes with scheduled := indexes.scheduled.insert deleteFileId (tableId, now) }

theorem Follows.schedule (follows : start.Follows indexes scope order)
    (row : DeleteFileRow) (stored : indexes.deleteFile.get? deleteFileId = some row)
    (owner : ∀ table, scope.Owned row.dataFileId table → tableId = table) (now : Int) :
    start.Follows (indexes.schedule tableId deleteFileId now) scope order := by
  obtain ⟨tables, sound⟩ := follows.sound
  refine ⟨⟨tables, { sound with schedule := ?_ }⟩, follows.opened, follows.kept, follows.keys, follows.filed⟩
  intro other cleanup found
  simp only [DeleteFileIndexes.schedule, OrderedMap.get?_insert] at found
  split at found
  · rename_i same
    obtain rfl := Option.some.inj found
    subst same
    obtain ⟨_, placed, indexed⟩ := sound.primary stored
    exact ⟨owner _ (sound.changed indexed).1, row, stored⟩
  · exact sound.schedule found

end DeleteFileIndexes

/-! ## Staging steps -/

section

variable {kv : CatalogKv} {scope before : DeleteFileScope} {tableOf : DeleteFileId → TableId} {order : CatalogOrderId}
  {batch next : KvBatch}

/-- A registration, together with the closing of the delete file it replaces. -/
theorem stageRegisterDeleteFileForDataFile_follows
    (follows : kv.deleteFileIndexes.Follows (kv.commit batch).deleteFileIndexes scope order)
    (sound : kv.deleteFileIndexes.Sound before tableOf) (openBefore : kv.deleteFileIndexes.CurrentOpen)
    (older : ∀ {key row}, kv.deleteFileTimeline.get? key = some row → key.order < order) {dataFile : DataFileRow}
    {registered : DeleteFileRow} (opened : row.validity.endOrder = none)
    (unnamed : (kv.commit batch).deleteFileIndexes.Unnamed row.deleteFileId)
    (owned : scope.Owned row.dataFileId dataFile.tableId)
    (owner : ∀ tableId, scope.Owned row.dataFileId tableId → dataFile.tableId = tableId)
    (used : scope.Used row.deleteFileId) (recent : order ≤ scope.newest)
    (success : stageRegisterDeleteFileForDataFile kv batch dataFile row order = .ok (registered, next)) :
    kv.deleteFileIndexes.Follows (kv.commit next).deleteFileIndexes scope order ∧
      ∀ deleteFileId, (kv.commit batch).deleteFileIndexes.Unnamed deleteFileId → row.deleteFileId ≠ deleteFileId →
        (kv.commit next).deleteFileIndexes.Unnamed deleteFileId := by
  unfold stageRegisterDeleteFileForDataFile at success
  simp only [bind_eq_ok, pure_eq_ok, Prod.mk.injEq] at success
  obtain ⟨closed, closes, rfl, rfl⟩ := success
  obtain ⟨sameId, sameFile, sameEnd, inherits⟩ := inheritCurrentDeleteBeginOrder_eq kv row
  generalize inheritCurrentDeleteBeginOrder kv row = registered at *
  have registers := follows.register dataFile.tableId (sameEnd.trans opened) (sameId ▸ unnamed)
    (sameFile ▸ owned) (sameId ▸ used) recent
  have indexes : (kv.commit (stageMaxFileIdWatermark kv
      (putRegisteredDeleteFile closed dataFile.tableId registered order) registered.deleteFileId)).deleteFileIndexes =
      (kv.commit closed).deleteFileIndexes.register registered dataFile.tableId order :=
    commit_putRegisteredDeleteFile kv closed dataFile.tableId registered order
  rw [indexes]
  rcases stageCloseCurrentDeleteFile_ok closes with ⟨_, rfl⟩ | ⟨current, isCurrent, different, begun, rfl⟩
  · exact ⟨registers, fun deleteFileId unnamed other => unnamed.register (sameId ▸ other)⟩
  · obtain ⟨file, currentOpen, stored⟩ := openBefore isCurrent
    obtain ⟨_, placed, indexed⟩ := sound.primary stored
    have located := deleteFileTimelineKeyForRow_eq sound (current.withEndOrder (some order)) indexed rfl rfl
    have otherId : (current.withEndOrder (some order)).deleteFileId ≠ registered.deleteFileId := different
    rw [commit_putClosedDeleteFile located, DeleteFileIndexes.close_register _ otherId rfl]
    have reaches : registered.validity.beginOrder < order := by
      rw [inherits current (sameFile ▸ isCurrent) (sameId ▸ different)]
      exact begun
    refine ⟨registers.close sound older stored currentOpen ?_ (Or.inl ?_) ?_ indexed, ?_⟩
    · intro now found
      rw [file] at found
      obtain rfl : registered = now := by simpa [DeleteFileIndexes.register] using found
      exact different.symm
    · exact ⟨registered.deleteFileId, registered, by simp [DeleteFileIndexes.register, file], reaches⟩
    · intro tableId owned
      rw [file, sameFile] at owned
      exact owner tableId owned
    · intro deleteFileId unnamedId other
      refine (unnamedId.register (sameId ▸ other)).close ?_
      intro same
      obtain ⟨after, still⟩ := follows.keys indexed
      exact unnamedId _ _ still same

/-- The source of a rewrite: its current delete file ends with it and is scheduled for cleanup. -/
theorem expireCompactedDeleteFile_follows
    (follows : kv.deleteFileIndexes.Follows (kv.commit batch).deleteFileIndexes scope order)
    (sound : kv.deleteFileIndexes.Sound before tableOf)
    (older : ∀ {key row}, kv.deleteFileTimeline.get? key = some row → key.order < order) {dataFile : DataFileRow}
    {now : Int} (owner : ∀ tableId, scope.Owned dataFile.dataFileId tableId → dataFile.tableId = tableId)
    (ended : scope.Ended dataFile.dataFileId order) (unwritten : batch.currentDeleteFile.writes = [])
    (success : expireCompactedDeleteFile kv now batch dataFile deleteFileId order = .ok next) :
    kv.deleteFileIndexes.Follows (kv.commit next).deleteFileIndexes scope order ∧
      next.currentDeleteFile.writes = [] := by
  obtain ⟨expired, expires, rfl⟩ := expireCompactedDeleteFile_ok success
  obtain ⟨row, stored, file, _, opened, rfl⟩ := stageExpireCurrentDeleteFile_ok expires
  obtain ⟨named, placed, indexed⟩ := sound.primary stored
  subst named
  have located := deleteFileTimelineKeyForRow_eq sound (row.withEndOrder (some order)) indexed rfl rfl
  have silent : ¬batch.currentDeleteFile.Writes dataFile.dataFileId := by
    rintro ⟨value, member⟩
    simp [unwritten] at member
  have indexes : (kv.commit (stageScheduledDeleteFileCleanup
      { putClosedDeleteFile kv batch dataFile.tableId (row.withEndOrder (some order)) order with
        currentDeleteFile := batch.currentDeleteFile.delete dataFile.dataFileId }
      dataFile.tableId row.deleteFileId now)).deleteFileIndexes =
      (((kv.commit batch).deleteFileIndexes.dropCurrent dataFile.dataFileId).close (row.withEndOrder (some order))
        ⟨row.dataFileId, placed, row.deleteFileId⟩ dataFile.tableId order).schedule dataFile.tableId row.deleteFileId now := by
    simp [CatalogKv.deleteFileIndexes, CatalogKv.commit, stageScheduledDeleteFileCleanup, putClosedDeleteFile, located,
      DeleteFileIndexes.schedule, DeleteFileIndexes.close, DeleteFileIndexes.dropCurrent,
      OrderedMap.commit_delete _ _ _ silent]
  rw [indexes]
  refine ⟨?_, unwritten⟩
  have closes := (follows.dropCurrent dataFile.dataFileId).close sound older stored opened
    (fun current found => by simp [DeleteFileIndexes.dropCurrent, OrderedMap.get?_erase, file] at found)
    (Or.inr (file ▸ ended)) (fun table owned => owner table (file ▸ owned)) indexed
  refine closes.schedule (row.withEndOrder (some order)) ?_ (fun table owned => owner table (file ▸ owned)) now
  simp [DeleteFileIndexes.close, DeleteFileRow.withEndOrder]

end

end DucklakeCatalog
