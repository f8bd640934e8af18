import DucklakeCatalog.Fdb.Effects
import DucklakeCatalog.Fdb.StampedRows

/-! What the stages of a data mutation do to the copies of file rows. -/
namespace DucklakeCatalog.Fdb

open KeyedStore

variable {before after kv next seen : CatalogKv} {order timelineOrder : CatalogOrderId} {row : DeleteFileRow}
  {context : MutationDataFileContext} {now : Int} {copies : DeleteFileCopies}

theorem WritesDataFiles.deleteFileCopies (writes : WritesDataFiles before after) :
    deleteFileCopies after = deleteFileCopies before := by
  obtain ⟨_, _, _, _, _, _, _, _, _, rfl⟩ := writes
  rfl

theorem WritesDeleteFiles.dataFileCopies (writes : WritesDeleteFiles before after) :
    dataFileCopies after = dataFileCopies before := by
  obtain ⟨_, _, _, _, _, _, _, rfl⟩ := writes
  rfl

theorem WritesFileDetails.deleteFileCopies (writes : WritesFileDetails before after) :
    deleteFileCopies after = deleteFileCopies before := by
  obtain ⟨_, _, _, _, _, _, rfl⟩ := writes
  rfl

/-- Neither family of file rows has changed. -/
def SameCopies (before after : CatalogKv) : Prop :=
  dataFileCopies after = dataFileCopies before ∧ deleteFileCopies after = deleteFileCopies before

theorem SameCopies.trans {first second third : CatalogKv} (left : SameCopies first second)
    (right : SameCopies second third) : SameCopies first third :=
  ⟨right.1.trans left.1, right.2.trans left.2⟩

theorem WritesFlushes.sameCopies {before after : FdbStore} (writes : WritesFlushes before after) :
    SameCopies before.kv after.kv := by
  obtain ⟨_, _, _, _, _, _, rfl⟩ := writes
  exact ⟨rfl, rfl⟩

theorem WritesInlineRows.sameCopies {before after : FdbStore} (writes : WritesInlineRows before after) :
    SameCopies before.kv after.kv := by
  obtain ⟨_, _, _, _, _, _, _, _, _, _, _, _, rfl⟩ := writes
  exact ⟨rfl, rfl⟩

/-! ## Data files -/

/-- The stored row and the begin entry of an appended file. -/
def appendedRows (order : CatalogOrderId) (row : DataFileRow) : DataFileRow × DataFileRow :=
  match row.maxPartialOrder with
  | some maxPartialOrder =>
    let row := { row with maxPartialOrder := some (resolveOrder order maxPartialOrder) }
    (row, row)
  | none => (row.withBeginOrder order, row)

theorem stageDataFile_copies {row : DataFileRow} (staged : stageDataFile order kv row = .ok next) :
    dataFileCopies next = (dataFileCopies kv).append (appendedRows order row).1 (appendedRows order row).2 := by
  unfold stageDataFile at staged
  rw [bind_eq_ok] at staged
  obtain ⟨appended, appends, staged⟩ := staged
  simp only [pure_eq_ok] at staged
  have counted : dataFileCopies next = dataFileCopies appended := by
    subst staged
    cases dataFileNextRowId row with
    | none => rfl
    | some nextRowId => rfl
  rw [counted]
  unfold stageDataFileWithoutWatermark at appends
  unfold appendedRows
  cases given : row.maxPartialOrder with
  | some maxPartialOrder =>
    simp only [given, bind_eq_ok] at appends
    obtain ⟨compacted, compacts, appends⟩ := appends
    simp only [pure_eq_ok] at appends
    subst appends
    unfold stageCompactedDataFile at compacts
    split at compacts
    · simp at compacts
    · simp only [Except.ok.injEq] at compacts
      subst compacts
      rfl
  | none =>
    simp only [given, Except.ok.injEq] at appends
    subst appends
    rfl

@[simp] theorem appendedRows_dataFileId (order : CatalogOrderId) (row : DataFileRow) :
    (appendedRows order row).1.dataFileId = row.dataFileId := by
  unfold appendedRows
  split <;> rfl

/-- The begin order of an appended file with a partial order is not left to the commit. -/
def NamesBegin (row : DataFileRow) : Prop := row.maxPartialOrder.isSome → row.validity.beginOrder ≠ autoOrder

instance (row : DataFileRow) : Decidable (NamesBegin row) :=
  inferInstanceAs (Decidable (row.maxPartialOrder.isSome → _))

theorem appendedRows_begun (order : CatalogOrderId) (row : DataFileRow) :
    (appendedRows order row).2.withBeginOrder (appendedRows order row).1.validity.beginOrder =
      (appendedRows order row).1 := by
  unfold appendedRows
  split <;> rfl

theorem resolveOrder_ne {given : CatalogOrderId} (committed : order ≠ autoOrder) :
    resolveOrder order given ≠ autoOrder := by
  unfold resolveOrder
  split
  · exact committed
  · assumption

theorem appendedRows_orders (committed : order ≠ autoOrder) {row : DataFileRow}
    (named : NamesBegin row) (opened : row.validity.endOrder = none) :
    (dataFileOrders (appendedRows order row).1).Stamped := by
  unfold appendedRows
  split
  · rename_i maxPartialOrder given
    refine ⟨named (by simp [given]), by simp [dataFileOrders, opened], ?_⟩
    simpa [dataFileOrders] using resolveOrder_ne committed
  · rename_i given
    exact ⟨committed, by simp [dataFileOrders, DataFileRow.withBeginOrder, opened],
      by simp [dataFileOrders, DataFileRow.withBeginOrder, given]⟩

theorem stageDataFiles_stamped (committed : order ≠ autoOrder)
    {rows : List DataFileRow} (staged : stageDataFiles order kv rows = .ok next)
    (stamped : (dataFileCopies kv).Stamped) (distinct : (rows.map DataFileRow.dataFileId).Nodup)
    (fresh : ∀ row ∈ rows, kv.dataFile.get? row.dataFileId = none) (named : ∀ row ∈ rows, NamesBegin row)
    (opened : ∀ row ∈ rows, row.validity.endOrder = none) : (dataFileCopies next).Stamped := by
  unfold stageDataFiles at staged
  induction rows generalizing kv with
  | nil =>
    obtain rfl : kv = next := by simpa [pure, Except.pure] using staged
    exact stamped
  | cons row rest ih =>
    rw [List.foldlM_cons, bind_eq_ok] at staged
    obtain ⟨appended, appends, staged⟩ := staged
    rw [List.map_cons, List.nodup_cons] at distinct
    have copies := stageDataFile_copies appends
    have fits : ((dataFileCopies kv).append (appendedRows order row).1 (appendedRows order row).2).Stamped := by
      refine stamped.append ?_ ?_ (appendedRows_begun order row)
      · rw [appendedRows_dataFileId]
        exact fresh row List.mem_cons_self
      · exact appendedRows_orders committed (named row List.mem_cons_self) (opened row List.mem_cons_self)
    refine ih staged (copies ▸ fits) distinct.2 ?_ ?_ ?_
    · intro other member
      have different : other.dataFileId ≠ row.dataFileId :=
        fun same => distinct.1 (same ▸ List.mem_map_of_mem member)
      have files : appended.dataFile = (dataFileCopies appended).dataFile := rfl
      rw [files, copies]
      simp only [DataFileCopies.append, OrderedMap.get?_insert, appendedRows_dataFileId, if_neg different]
      exact fresh other (List.mem_cons_of_mem _ member)
    · exact fun other member => named other (List.mem_cons_of_mem _ member)
    · exact fun other member => opened other (List.mem_cons_of_mem _ member)

/-! ## Partition values -/

variable {dataFileId : DataFileId} {other entry : DeleteFileRow} {key : DeleteFileTimelineKey}
  {staging : DeleteFileStaging} {dataFile : DataFileRow}

theorem MutationDataFileContext.load_eq_ok
    {row : DataFileRow} : context.load dataFileId = .ok row ↔ context.get? dataFileId = some row := by
  unfold MutationDataFileContext.load
  cases context.get? dataFileId with
  | none => simp
  | some found => simp

theorem stageFilePartitionValues_stamped (keyed : context.Keyed) {rows : List FilePartitionValueRow}
    (staged : stageFilePartitionValues context kv rows = .ok next) (stamped : (dataFileCopies kv).Stamped)
    (stored : ∀ row ∈ rows, ∀ file, context.get? row.dataFileId = some file →
      kv.dataFile.get? file.dataFileId = some file) :
    (dataFileCopies next).Stamped ∧ next.dataFile = kv.dataFile := by
  refine foldlM_invariant (fun staged : CatalogKv => (dataFileCopies staged).Stamped ∧ staged.dataFile = kv.dataFile)
    staged ⟨stamped, rfl⟩ ?_
  intro staged row next member soFar taken
  rw [bind_eq_ok] at taken
  obtain ⟨file, loaded, taken⟩ := taken
  simp only [pure_eq_ok] at taken
  subst taken
  have found := MutationDataFileContext.load_eq_ok.mp loaded
  refine ⟨?_, soFar.2⟩
  refine DataFileCopies.Stamped.register soFar.1 ?_ (keyed row.dataFileId file found)
  rw [dataFileCopies, soFar.2]
  exact stored row member file found

theorem stageFileStats_copies (order : CatalogOrderId) (kv : CatalogKv) (rows : List FileColumnStatsRow) :
    dataFileCopies (stageFileStatsVersions order (rows.foldl stageFileColumnStats kv) rows) = dataFileCopies kv := by
  have counted : dataFileCopies (rows.foldl stageFileColumnStats kv) = dataFileCopies kv := by
    have kept : ∀ kv row, dataFileCopies (stageFileColumnStats kv row) = dataFileCopies kv := fun _ _ => rfl
    exact foldl_view dataFileCopies kept rows kv
  unfold stageFileStatsVersions
  split
  · exact counted
  · exact counted

/-! ## Dropped data files -/

/-- The lookups of a file that a transaction read. -/
def seenLookups (seen : CatalogKv) (dataFileId : DataFileId) : List PartitionValueLookupKey :=
  (seen.filePartitionValue.scan fun key => key.dataFileId = dataFileId).map fun entry =>
    ⟨entry.2.tableId, entry.2.partitionKeyIndex, entry.2.partitionValue, entry.2.dataFileId⟩

theorem stageExpiredDataFile_copies (seen : CatalogKv) (order : CatalogOrderId) (kv : CatalogKv) (row : DataFileRow) :
    dataFileCopies (stageExpiredDataFile seen order kv row) =
      (dataFileCopies kv).expire (row.withEndOrder (some order)) (seenLookups seen row.dataFileId) := rfl

/-- The row is the stored one, its end aside, and the transaction read all its lookups. -/
structure DropsStored (seen : CatalogKv) (copies : DataFileCopies) (row : DataFileRow) : Prop where
  stored : ∃ stored ∈ copies.dataFile.get? row.dataFileId,
    dataFileView (stored.withEndOrder none) = dataFileView (row.withEndOrder none)
  lookups : ∀ entry ∈ copies.partitionValueLookup.entries, entry.1.dataFileId = row.dataFileId →
    entry.1 ∈ seenLookups seen row.dataFileId

theorem dropsStored_iff {copies : DataFileCopies} {row : DataFileRow} :
    DropsStored seen copies row ↔ (∃ stored ∈ copies.dataFile.get? row.dataFileId,
        dataFileView (stored.withEndOrder none) = dataFileView (row.withEndOrder none)) ∧
      ∀ entry ∈ copies.partitionValueLookup.entries, entry.1.dataFileId = row.dataFileId →
        entry.1 ∈ seenLookups seen row.dataFileId :=
  ⟨fun drops => ⟨drops.stored, drops.lookups⟩, fun drops => ⟨drops.1, drops.2⟩⟩

instance (seen : CatalogKv) (copies : DataFileCopies) (row : DataFileRow) : Decidable (DropsStored seen copies row) :=
  decidable_of_iff _ dropsStored_iff.symm

theorem DropsStored.after_expire {row other : DataFileRow} (order : CatalogOrderId)
    (drops : DropsStored seen (dataFileCopies kv) other) (dropped : DropsStored seen (dataFileCopies kv) row) :
    DropsStored seen (dataFileCopies (stageExpiredDataFile seen order kv row)) other := by
  refine ⟨?_, ?_⟩
  · obtain ⟨stored, present, same⟩ := drops.stored
    change ∃ stored, (kv.dataFile.insert row.dataFileId (row.withEndOrder (some order))).get? other.dataFileId =
      some stored ∧ _
    rw [OrderedMap.get?_insert]
    by_cases here : other.dataFileId = row.dataFileId
    · obtain ⟨found, listed, sameRow⟩ := dropped.stored
      rw [here, listed] at present
      obtain rfl := Option.some.inj present
      exact ⟨row.withEndOrder (some order), if_pos here, sameRow.symm.trans same⟩
    · exact ⟨stored, (if_neg here).trans present, same⟩
  · intro entry member
    rw [← OrderedMap.get?_eq_some_iff] at member
    change (OrderedMap.get? ((seenLookups seen row.dataFileId).foldl OrderedMap.erase kv.partitionValueLookup)
      entry.1) = some entry.2 at member
    rw [get?_eraseAll] at member
    split at member
    · simp at member
    · exact drops.lookups entry ((OrderedMap.get?_eq_some_iff _).mp member)

theorem stageExpiredDataFile_stamped (committed : order ≠ autoOrder)
    {row : DataFileRow} (stamped : (dataFileCopies kv).Stamped) (drops : DropsStored seen (dataFileCopies kv) row) :
    (dataFileCopies (stageExpiredDataFile seen order kv row)).Stamped := by
  rw [stageExpiredDataFile_copies]
  obtain ⟨stored, present, same⟩ := drops.stored
  have orders := (stamped.stored row.dataFileId stored present).2
  have table : stored.tableId = row.tableId := congrArg Prod.fst same
  have begun : stored.validity.beginOrder = row.validity.beginOrder :=
    congrArg (fun view : TableId × RowOrders => view.2.beginOrder) same
  have maxPartial : stored.maxPartialOrder = row.maxPartialOrder :=
    congrArg (fun view : TableId × RowOrders => view.2.maxPartialOrder) same
  refine stamped.expire present table begun ⟨?_, ?_, ?_⟩ ?_
  · have given := orders.beginOrder
    simp only [dataFileOrders, begun] at given
    exact given
  · simpa [dataFileOrders, DataFileRow.withEndOrder] using committed
  · have given := orders.maxPartialOrder
    simp only [dataFileOrders, maxPartial] at given
    exact given
  · intro key value found sameFile
    exact drops.lookups (key, value) ((OrderedMap.get?_eq_some_iff _).mp found) sameFile

theorem stageDroppedDataFiles_stamped (committed : order ≠ autoOrder) {policy : ExpiredObjectCleanupPolicy}
    {droppedIds : List DataFileId} (staged : stageDroppedDataFiles seen now order policy context droppedIds kv = .ok next)
    (stamped : (dataFileCopies kv).Stamped)
    (drops : ∀ dataFileId ∈ droppedIds, ∀ row, context.get? dataFileId = some row →
      DropsStored seen (dataFileCopies kv) row) :
    (dataFileCopies next).Stamped := by
  unfold stageDroppedDataFiles at staged
  rw [bind_eq_ok] at staged
  obtain ⟨rows, loads, staged⟩ := staged
  simp only [pure_eq_ok] at staged
  have known : ∀ row ∈ rows, DropsStored seen (dataFileCopies kv) row := by
    intro row member
    obtain ⟨droppedId, listed, loaded⟩ := mapM_source loads member
    exact drops droppedId listed row (MutationDataFileContext.load_eq_ok.mp loaded)
  subst staged
  clear loads drops
  induction rows generalizing kv with
  | nil => exact stamped
  | cons row rest ih =>
    rw [List.foldl_cons]
    have first := known row List.mem_cons_self
    have expired := stageExpiredDataFile_stamped committed stamped first
    have later : ∀ other ∈ rest, DropsStored seen (dataFileCopies (stageExpiredDataFile seen order kv row)) other :=
      fun other member => (known other (List.mem_cons_of_mem _ member)).after_expire order first
    cases policy with
    | schedule cleanupKind
    | preserve => exact ih expired later

/-! ## Delete files -/

/-- The timeline key that a transaction closes depends on the ids of the row only. -/
theorem deleteFileTimelineKeyForRow_congr (seen : CatalogKv) {left right : DeleteFileRow}
    (sameFile : left.dataFileId = right.dataFileId) (same : left.deleteFileId = right.deleteFileId) :
    deleteFileTimelineKeyForRow seen left = deleteFileTimelineKeyForRow seen right := by
  unfold deleteFileTimelineKeyForRow
  rw [sameFile, same]

/-- Every timeline entry of the row is the one that the transaction found. -/
def FoundInTimeline (seen : CatalogKv) (copies : DeleteFileCopies) (row : DeleteFileRow) : Prop :=
  ∀ entry ∈ copies.deleteFileTimeline.entries, entry.2.deleteFileId = row.deleteFileId →
    deleteFileTimelineKeyForRow seen row = some entry.1

instance (seen : CatalogKv) (copies : DeleteFileCopies) (row : DeleteFileRow) :
    Decidable (FoundInTimeline seen copies row) :=
  inferInstanceAs (Decidable (∀ entry ∈ copies.deleteFileTimeline.entries, _))

theorem FoundInTimeline.held
    (found : FoundInTimeline seen copies row) : copies.HeldUnder row (deleteFileTimelineKeyForRow seen row) := by
  intro key entry present same
  exact found (key, entry) ((OrderedMap.get?_eq_some_iff _).mp present) same

/-- The row is the stored one, its end aside, and its timeline entry was found. -/
structure ClosesStored (seen : CatalogKv) (copies : DeleteFileCopies) (row : DeleteFileRow) : Prop where
  stored : ∃ stored ∈ copies.deleteFile.get? row.deleteFileId,
    deleteFileView (stored.withEndOrder none) = deleteFileView (row.withEndOrder none)
  found : FoundInTimeline seen copies row

theorem closesStored_iff :
    ClosesStored seen copies row ↔ (∃ stored ∈ copies.deleteFile.get? row.deleteFileId,
        deleteFileView (stored.withEndOrder none) = deleteFileView (row.withEndOrder none)) ∧
      FoundInTimeline seen copies row :=
  ⟨fun closes => ⟨closes.stored, closes.found⟩, fun closes => ⟨closes.1, closes.2⟩⟩

instance (seen : CatalogKv) (copies : DeleteFileCopies) (row : DeleteFileRow) :
    Decidable (ClosesStored seen copies row) :=
  decidable_of_iff _ closesStored_iff.symm

theorem ClosesStored.after_close
    (order : CatalogOrderId) (closes : ClosesStored seen copies other) (closed : ClosesStored seen copies row) :
    ClosesStored seen (copies.close (row.withEndOrder (some order)) (deleteFileTimelineKeyForRow seen row)) other := by
  obtain ⟨stored, present, same⟩ := closes.stored
  obtain ⟨found, listed, sameRow⟩ := closed.stored
  have ids : other.deleteFileId = row.deleteFileId → deleteFileView (row.withEndOrder none) =
      deleteFileView (other.withEndOrder none) := by
    intro here
    rw [here, listed] at present
    obtain rfl := Option.some.inj present
    exact sameRow.symm.trans same
  refine ⟨?_, ?_⟩
  · change ∃ stored, (copies.deleteFile.insert row.deleteFileId (row.withEndOrder (some order))).get?
      other.deleteFileId = some stored ∧ _
    rw [OrderedMap.get?_insert]
    by_cases here : other.deleteFileId = row.deleteFileId
    · exact ⟨row.withEndOrder (some order), if_pos here, ids here⟩
    · exact ⟨stored, (if_neg here).trans present, same⟩
  · intro entry member sameId
    rw [← OrderedMap.get?_eq_some_iff] at member
    cases key : deleteFileTimelineKeyForRow seen row with
    | none =>
      rw [key] at member
      exact closes.found entry ((OrderedMap.get?_eq_some_iff _).mp member) sameId
    | some key' =>
      rw [key] at member
      change (copies.deleteFileTimeline.insert key' (row.withEndOrder (some order))).get? entry.1 = some entry.2 at member
      rw [OrderedMap.get?_insert] at member
      split at member
      · rename_i here
        rw [← Option.some.inj member] at sameId
        have sameFile : row.dataFileId = other.dataFileId := congrArg Prod.fst (ids sameId.symm)
        rw [here, ← key]
        exact (deleteFileTimelineKeyForRow_congr seen sameFile sameId).symm
      · exact closes.found entry ((OrderedMap.get?_eq_some_iff _).mp member) sameId

theorem ClosesStored.after_record (closes : ClosesStored seen copies other)
    (fresh : copies.deleteFile.get? row.deleteFileId = none) (same : entry.deleteFileId = row.deleteFileId) :
    ClosesStored seen (copies.record row entry key) other := by
  obtain ⟨stored, present, view⟩ := closes.stored
  have different : other.deleteFileId ≠ row.deleteFileId := by
    intro here
    rw [here, fresh] at present
    simp at present
  refine ⟨⟨stored, ?_, view⟩, ?_⟩
  · change (copies.deleteFile.insert row.deleteFileId row).get? other.deleteFileId = some stored
    rw [OrderedMap.get?_insert, if_neg different]
    exact present
  · intro listed member sameId
    rw [← OrderedMap.get?_eq_some_iff] at member
    change (copies.deleteFileTimeline.insert key entry).get? listed.1 = some listed.2 at member
    rw [OrderedMap.get?_insert] at member
    split at member
    · rw [← Option.some.inj member, same] at sameId
      exact absurd sameId.symm different
    · exact closes.found listed ((OrderedMap.get?_eq_some_iff _).mp member) sameId

theorem DeleteFileCopies.Stamped.close_stored (stamped : copies.Stamped) (committed : order ≠ autoOrder)
    (closes : ClosesStored seen copies row) (replaced : copies.currentDeleteFile.get? row.dataFileId = none) :
    (copies.close (row.withEndOrder (some order)) (deleteFileTimelineKeyForRow seen row)).Stamped := by
  obtain ⟨stored, present, same⟩ := closes.stored
  have orders := (stamped.stored row.deleteFileId stored present).2
  have file : stored.dataFileId = row.dataFileId := congrArg Prod.fst same
  have begun : stored.validity.beginOrder = row.validity.beginOrder :=
    congrArg (fun view : DataFileId × RowOrders => view.2.beginOrder) same
  have maxPartial : stored.maxPartialOrder = row.maxPartialOrder :=
    congrArg (fun view : DataFileId × RowOrders => view.2.maxPartialOrder) same
  refine stamped.close present file ⟨?_, ?_, ?_⟩ replaced closes.found.held
  · have given := orders.beginOrder
    simp only [deleteFileOrders, begun] at given
    exact given
  · simpa [deleteFileOrders, DeleteFileRow.withEndOrder] using committed
  · have given := orders.maxPartialOrder
    simp only [deleteFileOrders, maxPartial] at given
    exact given

/-- A current delete file is the stored one. -/
theorem DeleteFileCopies.Stamped.closes_current (stamped : copies.Stamped) {current : DeleteFileRow}
    (listed : copies.currentDeleteFile.get? dataFileId = some current) (found : FoundInTimeline seen copies current) :
    ClosesStored seen copies current := by
  obtain ⟨stored, present, view⟩ := stamped.current dataFileId current listed
  refine ⟨⟨stored, present, ?_⟩, found⟩
  have file : stored.dataFileId = current.dataFileId := congrArg Prod.fst view
  have begun : stored.validity.beginOrder = current.validity.beginOrder :=
    congrArg (fun view : DataFileId × RowOrders => view.2.beginOrder) view
  have maxPartial : stored.maxPartialOrder = current.maxPartialOrder :=
    congrArg (fun view : DataFileId × RowOrders => view.2.maxPartialOrder) view
  simp [deleteFileView, deleteFileOrders, DeleteFileRow.withEndOrder, file, begun, maxPartial]

/-- The key that a delete file gets in the timeline. -/
def recordedKey (order timelineOrder : CatalogOrderId) (row : DeleteFileRow) : DeleteFileTimelineKey :=
  ⟨row.dataFileId, resolveOrder order timelineOrder, row.deleteFileId⟩

/-- The copies once the delete file that is current for the row has made way for it. -/
def replacedCopies (seen : CatalogKv) (order : CatalogOrderId) (copies : DeleteFileCopies) (row : DeleteFileRow) :
    DeleteFileCopies :=
  (copies.currentDeleteFile.get? row.dataFileId).elim copies fun current =>
    copies.close (current.withEndOrder (some order)) (deleteFileTimelineKeyForRow seen current)

/-- The row as it is staged: a replacement begins where the replaced file began. -/
def stagedDeleteFile (copies : DeleteFileCopies) (timelineOrder : CatalogOrderId) (row : DeleteFileRow) :
    DeleteFileRow :=
  inheritingDeleteFile ((copies.currentDeleteFile.get? row.dataFileId).map fun current => current.validity.beginOrder)
    timelineOrder row

theorem stageDeleteFileWithoutWatermark_copies {next : DeleteFileStaging}
    (staged : stageDeleteFileWithoutWatermark seen now order staging dataFile row timelineOrder = .ok next) :
    let inheriting := stagedDeleteFile (deleteFileCopies staging.kv) timelineOrder row
    ¬(inheriting.validity.beginOrder = autoOrder ∧ inheriting.maxPartialOrder = some autoOrder) ∧
      deleteFileCopies next.kv = (replacedCopies seen order (deleteFileCopies staging.kv) row).record
        (stampedDeleteFile order inheriting) inheriting (recordedKey order timelineOrder row) := by
  unfold stageDeleteFileWithoutWatermark at staged
  rw [bind_eq_ok] at staged
  obtain ⟨⟨inherited, closed⟩, closes, staged⟩ := staged
  dsimp only at staged
  have closing : inherited = ((deleteFileCopies staging.kv).currentDeleteFile.get? row.dataFileId).map
        (fun current => current.validity.beginOrder) ∧
      deleteFileCopies closed = replacedCopies seen order (deleteFileCopies staging.kv) row := by
    unfold stageCloseCurrentDeleteFile at closes
    unfold replacedCopies
    split at closes
    · simp at closes
    · change _ = ((staging.kv.currentDeleteFile.get? row.dataFileId).map _) ∧
        _ = (staging.kv.currentDeleteFile.get? row.dataFileId).elim _ _
      split at closes
      · rename_i none
        simp only [Except.ok.injEq, Prod.mk.injEq] at closes
        rw [none, ← closes.1, ← closes.2]
        exact ⟨rfl, rfl⟩
      · rename_i current listed
        split at closes
        · simp at closes
        · simp only [Except.ok.injEq, Prod.mk.injEq] at closes
          rw [listed, ← closes.1, ← closes.2]
          exact ⟨rfl, rfl⟩
  have files : ∀ inherited, (inheritingDeleteFile inherited timelineOrder row).dataFileId = row.dataFileId ∧
      (inheritingDeleteFile inherited timelineOrder row).deleteFileId = row.deleteFileId := by
    intro inherited
    cases inherited with
    | none
    | some beginOrder => exact ⟨rfl, rfl⟩
  intro inheriting
  have same : inheritingDeleteFile inherited timelineOrder row = inheriting := by
    rw [closing.1]
    rfl
  rw [same] at staged
  have ids : inheriting.dataFileId = row.dataFileId ∧ inheriting.deleteFileId = row.deleteFileId := files _
  split at staged
  · simp at staged
  · rename_i separate
    simp only [pure_eq_ok] at staged
    refine ⟨separate, ?_⟩
    subst staged
    rw [← closing.2]
    have stampedIds : (stampedDeleteFile order inheriting).dataFileId = inheriting.dataFileId ∧
        (stampedDeleteFile order inheriting).deleteFileId = inheriting.deleteFileId := by
      unfold stampedDeleteFile
      split <;> exact ⟨rfl, rfl⟩
    simp only [deleteFileCopies, DeleteFileCopies.record, recordedKey, stampedIds.1, stampedIds.2, ids.1, ids.2]

theorem stampedDeleteFile_orders (committed : order ≠ autoOrder) (opened : row.validity.endOrder = none)
    (separate : ¬(row.validity.beginOrder = autoOrder ∧ row.maxPartialOrder = some autoOrder)) :
    (deleteFileOrders (stampedDeleteFile order row)).Stamped := by
  unfold stampedDeleteFile
  split
  · rename_i auto
    refine ⟨committed, by simp [deleteFileOrders, DeleteFileRow.withBeginOrder, opened], ?_⟩
    exact fun given => separate ⟨auto, given⟩
  · rename_i given
    refine ⟨given, by simp [deleteFileOrders, opened], ?_⟩
    cases row.maxPartialOrder with
    | none => simp [deleteFileOrders]
    | some maxPartialOrder => simpa [deleteFileOrders] using resolveOrder_ne committed

/-- Reading the timeline entry restores the stamped row, if its key holds every order that the value leaves open. -/
theorem deleteFileFromTimelineItem_recorded {named : DeleteFileRow}
    (separate : ¬(row.validity.beginOrder = autoOrder ∧ row.maxPartialOrder = some autoOrder))
    (begins : row.validity.beginOrder = autoOrder → timelineOrder = autoOrder)
    (ends : row.maxPartialOrder = some autoOrder → timelineOrder = autoOrder) :
    deleteFileFromTimelineItem (recordedKey order timelineOrder named, row) = stampedDeleteFile order row := by
  have keyed : timelineOrder = autoOrder → resolveOrder order timelineOrder = order := fun auto => if_pos auto
  unfold stampedDeleteFile deleteFileFromTimelineItem recordedKey
  dsimp only
  split
  · rename_i auto
    rw [keyed (begins auto), auto]
    have partialOrder : row.maxPartialOrder.map (resolveOrder order) = row.maxPartialOrder := by
      cases found : row.maxPartialOrder with
      | none => rfl
      | some given =>
        have other : given ≠ autoOrder := fun same => separate ⟨auto, by rw [found, same]⟩
        simp [DeleteFileCopies.resolveOrder_of_ne other]
    rw [partialOrder, show resolveOrder order autoOrder = order from if_pos rfl]
    rfl
  · rename_i given
    rw [DeleteFileCopies.resolveOrder_of_ne given]
    have partialOrder : row.maxPartialOrder.map (resolveOrder (resolveOrder order timelineOrder)) =
        row.maxPartialOrder.map (resolveOrder order) := by
      cases found : row.maxPartialOrder with
      | none => rfl
      | some maxPartialOrder =>
        by_cases auto : maxPartialOrder = autoOrder
        · rw [keyed (ends (by rw [found, auto]))]
        · simp [DeleteFileCopies.resolveOrder_of_ne auto]
    rw [partialOrder]
    rfl

@[simp] theorem stampedDeleteFile_ids (order : CatalogOrderId) (row : DeleteFileRow) :
    (stampedDeleteFile order row).deleteFileId = row.deleteFileId ∧
      (stampedDeleteFile order row).dataFileId = row.dataFileId := by
  unfold stampedDeleteFile
  split <;> exact ⟨rfl, rfl⟩

theorem stagedDeleteFile_same (copies : DeleteFileCopies) (timelineOrder : CatalogOrderId) (row : DeleteFileRow) :
    (stagedDeleteFile copies timelineOrder row).deleteFileId = row.deleteFileId ∧
      (stagedDeleteFile copies timelineOrder row).dataFileId = row.dataFileId ∧
      (stagedDeleteFile copies timelineOrder row).validity.endOrder = row.validity.endOrder := by
  unfold stagedDeleteFile
  cases copies.currentDeleteFile.get? row.dataFileId with
  | none
  | some current => exact ⟨rfl, rfl, rfl⟩

theorem DeleteFileCopies.close_forget_record (copies : DeleteFileCopies) (closed row entry : DeleteFileRow)
    (closedKey : Option DeleteFileTimelineKey) (key : DeleteFileTimelineKey) :
    ((copies.forget row.dataFileId).close closed closedKey).record row entry key =
      (copies.close closed closedKey).record row entry key := by
  have current : (copies.currentDeleteFile.erase row.dataFileId).insert row.dataFileId row =
      copies.currentDeleteFile.insert row.dataFileId row := by
    refine OrderedMap.ext_get? fun query => ?_
    rw [OrderedMap.get?_insert, OrderedMap.get?_insert, OrderedMap.get?_erase]
    by_cases here : query = row.dataFileId
    · simp [here]
    · simp [here]
  simp only [DeleteFileCopies.record, DeleteFileCopies.close, DeleteFileCopies.forget, current]

/-- What one staged delete file leaves of the copies. -/
structure StagesDeleteFile (seen : CatalogKv) (before after : DeleteFileCopies) (row : DeleteFileRow) : Prop where
  stamped : after.Stamped
  closes : ∀ other, ClosesStored seen before other → ClosesStored seen after other
  current : ∀ dataFileId, dataFileId ≠ row.dataFileId →
    after.currentDeleteFile.get? dataFileId = before.currentDeleteFile.get? dataFileId
  fresh : ∀ deleteFileId, deleteFileId ≠ row.deleteFileId → before.deleteFile.get? deleteFileId = none →
    after.deleteFile.get? deleteFileId = none

/-- The copies after the replaced row has ended, before the new one is recorded. -/
theorem replacedCopies_record (committed : order ≠ autoOrder) (stamped : copies.Stamped)
    (fresh : copies.deleteFile.get? row.deleteFileId = none)
    (found : ∀ current, copies.currentDeleteFile.get? row.dataFileId = some current → FoundInTimeline seen copies current)
    {recorded : DeleteFileRow} (sameId : recorded.deleteFileId = row.deleteFileId)
    (sameFile : recorded.dataFileId = row.dataFileId) (orders : (deleteFileOrders recorded).Stamped)
    (read : deleteFileFromTimelineItem (key, entry) = recorded) :
    StagesDeleteFile seen copies ((replacedCopies seen order copies row).record recorded entry key) row := by
  have entryId : entry.deleteFileId = recorded.deleteFileId := by rw [← read]; rfl
  have others : ∀ copies : DeleteFileCopies, ∀ dataFileId, dataFileId ≠ row.dataFileId →
      (copies.record recorded entry key).currentDeleteFile.get? dataFileId =
        copies.currentDeleteFile.get? dataFileId := by
    intro copies dataFileId different
    simp only [DeleteFileCopies.record, OrderedMap.get?_insert, sameFile, if_neg different]
  have stillFresh : ∀ copies : DeleteFileCopies, ∀ deleteFileId, deleteFileId ≠ row.deleteFileId →
      copies.deleteFile.get? deleteFileId = none →
        (copies.record recorded entry key).deleteFile.get? deleteFileId = none := by
    intro copies deleteFileId different missing
    simp only [DeleteFileCopies.record, OrderedMap.get?_insert, sameId, if_neg different]
    exact missing
  have freshRecord : copies.deleteFile.get? recorded.deleteFileId = none := sameId.symm ▸ fresh
  unfold replacedCopies
  cases listed : copies.currentDeleteFile.get? row.dataFileId with
  | none =>
    refine ⟨stamped.record freshRecord orders read, ?_, others copies, stillFresh copies⟩
    exact fun other closes => closes.after_record freshRecord entryId
  | some current =>
    have closes := stamped.closes_current listed (found current listed)
    have currentFile : current.dataFileId = row.dataFileId := stamped.currentKey _ _ listed
    have freshClosed : ∀ deleteFileId, copies.deleteFile.get? deleteFileId = none →
        (copies.close (current.withEndOrder (some order)) (deleteFileTimelineKeyForRow seen current)).deleteFile.get?
          deleteFileId = none := by
      intro deleteFileId missing
      obtain ⟨stored, present, _⟩ := closes.stored
      have different : deleteFileId ≠ current.deleteFileId := by
        rintro rfl
        rw [missing] at present
        simp at present
      change (copies.deleteFile.insert current.deleteFileId _).get? deleteFileId = none
      rw [OrderedMap.get?_insert, if_neg different]
      exact missing
    refine ⟨?_, ?_, ?_, ?_⟩
    · have forgotten : ClosesStored seen (copies.forget recorded.dataFileId) current := ⟨closes.stored, closes.found⟩
      have ended := (stamped.forget recorded.dataFileId).close_stored committed forgotten (by
        simp [DeleteFileCopies.forget, OrderedMap.get?_erase, sameFile, currentFile])
      rw [Option.elim_some, ← DeleteFileCopies.close_forget_record]
      exact ended.record (freshClosed _ freshRecord) orders read
    · intro other closesOther
      exact (closesOther.after_close order closes).after_record (freshClosed _ freshRecord) entryId
    · intro dataFileId different
      exact others _ dataFileId different
    · intro deleteFileId different missing
      exact stillFresh _ deleteFileId different (freshClosed _ missing)

/-- The timeline holds every order that the value of its entry leaves to the commit. -/
structure TimelineHolds (timelineOrder : CatalogOrderId) (row : DeleteFileRow) : Prop where
  begins : row.validity.beginOrder = autoOrder → timelineOrder = autoOrder
  ends : row.maxPartialOrder = some autoOrder → timelineOrder = autoOrder

theorem TimelineHolds.staged (holds : TimelineHolds timelineOrder row) (stamped : copies.Stamped) :
    TimelineHolds timelineOrder (stagedDeleteFile copies timelineOrder row) := by
  unfold stagedDeleteFile
  cases listed : copies.currentDeleteFile.get? row.dataFileId with
  | none => exact holds
  | some current =>
    obtain ⟨stored, present, view⟩ := stamped.current _ _ listed
    have begun : stored.validity.beginOrder = current.validity.beginOrder :=
      congrArg (fun view : DataFileId × RowOrders => view.2.beginOrder) view
    have given := (stamped.stored _ stored present).2.beginOrder
    refine ⟨fun auto => absurd (begun.trans auto) given, ?_⟩
    intro partialOrder
    cases own : row.maxPartialOrder with
    | none =>
      simp only [Option.map_some, inheritingDeleteFile, own, Option.none_or, Option.some.injEq] at partialOrder
      exact partialOrder
    | some maxPartialOrder =>
      simp only [Option.map_some, inheritingDeleteFile, own, Option.some_or, Option.some.injEq] at partialOrder
      exact holds.ends (by rw [own, partialOrder])

theorem stageDeleteFile_stages (committed : order ≠ autoOrder) {next : DeleteFileStaging}
    (staged : stageDeleteFileWithoutWatermark seen now order staging dataFile row timelineOrder = .ok next)
    (stamped : (deleteFileCopies staging.kv).Stamped) (opened : row.validity.endOrder = none)
    (holds : TimelineHolds timelineOrder row) (fresh : staging.kv.deleteFile.get? row.deleteFileId = none)
    (found : ∀ current, staging.kv.currentDeleteFile.get? row.dataFileId = some current →
      FoundInTimeline seen (deleteFileCopies staging.kv) current) :
    StagesDeleteFile seen (deleteFileCopies staging.kv) (deleteFileCopies next.kv) row := by
  obtain ⟨separate, copies⟩ := stageDeleteFileWithoutWatermark_copies staged
  have same := stagedDeleteFile_same (deleteFileCopies staging.kv) timelineOrder row
  have ids := stampedDeleteFile_ids order (stagedDeleteFile (deleteFileCopies staging.kv) timelineOrder row)
  have inherited := holds.staged stamped
  rw [copies]
  refine replacedCopies_record committed stamped fresh found (ids.1.trans same.1) (ids.2.trans same.2.1) ?_ ?_
  · exact stampedDeleteFile_orders committed (same.2.2.trans opened) separate
  · exact deleteFileFromTimelineItem_recorded separate inherited.begins inherited.ends

/-- A list of delete files for different data files, each with its own timeline order. -/
structure DeleteFilesFit (seen : CatalogKv) (copies : DeleteFileCopies)
    (timelineOrder : DeleteFileRow → CatalogOrderId) (rows : List DeleteFileRow) : Prop where
  files : (rows.map DeleteFileRow.dataFileId).Nodup
  distinct : (rows.map DeleteFileRow.deleteFileId).Nodup
  fresh : ∀ row ∈ rows, copies.deleteFile.get? row.deleteFileId = none
  opened : ∀ row ∈ rows, row.validity.endOrder = none
  holds : ∀ row ∈ rows, TimelineHolds (timelineOrder row) row
  found : ∀ row ∈ rows, ∀ current, copies.currentDeleteFile.get? row.dataFileId = some current →
    FoundInTimeline seen copies current

theorem DeleteFilesFit.rest {before after : DeleteFileCopies}
    {timelineOrder : DeleteFileRow → CatalogOrderId} {rest : List DeleteFileRow}
    (fits : DeleteFilesFit seen before timelineOrder (row :: rest)) (stamped : before.Stamped)
    (stages : StagesDeleteFile seen before after row) : DeleteFilesFit seen after timelineOrder rest := by
  have files := fits.files
  have distinct := fits.distinct
  rw [List.map_cons, List.nodup_cons] at files distinct
  constructor
  · exact files.2
  · exact distinct.2
  · intro other member
    have different : other.deleteFileId ≠ row.deleteFileId :=
      fun same => distinct.1 (same ▸ List.mem_map_of_mem member)
    exact stages.fresh _ different (fits.fresh other (List.mem_cons_of_mem _ member))
  · exact fun other member => fits.opened other (List.mem_cons_of_mem _ member)
  · exact fun other member => fits.holds other (List.mem_cons_of_mem _ member)
  · intro other member current listed
    have different : other.dataFileId ≠ row.dataFileId := fun same => files.1 (same ▸ List.mem_map_of_mem member)
    have before := (stages.current other.dataFileId different).symm.trans listed
    have known := fits.found other (List.mem_cons_of_mem _ member) current before
    exact (stages.closes current (stamped.closes_current before known)).found

theorem foldlM_deleteFiles_stamped (committed : order ≠ autoOrder)
    {timelineOrder : DeleteFileRow → CatalogOrderId} {rows : List DeleteFileRow} {begun finish : DeleteFileStaging}
    (folded : rows.foldlM (fun (staging : DeleteFileStaging) row => do
      let dataFile ← context.load row.dataFileId
      stageDeleteFileWithoutWatermark seen now order staging dataFile row (timelineOrder row)) begun = .ok finish)
    (stamped : (deleteFileCopies begun.kv).Stamped)
    (fits : DeleteFilesFit seen (deleteFileCopies begun.kv) timelineOrder rows) :
    (deleteFileCopies finish.kv).Stamped ∧ ∀ other, ClosesStored seen (deleteFileCopies begun.kv) other →
      ClosesStored seen (deleteFileCopies finish.kv) other := by
  induction rows generalizing begun with
  | nil =>
    obtain rfl : begun = finish := by simpa [pure, Except.pure] using folded
    exact ⟨stamped, fun _ closes => closes⟩
  | cons row rest ih =>
    rw [List.foldlM_cons, bind_eq_ok] at folded
    obtain ⟨middle, taken, folded⟩ := folded
    rw [bind_eq_ok] at taken
    obtain ⟨dataFile, _, taken⟩ := taken
    have stages := stageDeleteFile_stages committed taken stamped (fits.opened row List.mem_cons_self)
      (fits.holds row List.mem_cons_self) (fits.fresh row List.mem_cons_self) (fits.found row List.mem_cons_self)
    obtain ⟨finished, closes⟩ := ih folded stages.stamped (fits.rest stamped stages)
    exact ⟨finished, fun other known => closes other (stages.closes other known)⟩

theorem stageDeleteFiles_stamped (committed : order ≠ autoOrder) {prepared : PreparedDataMutation}
    (staged : stageDeleteFiles seen now order prepared kv = .ok next) (stamped : (deleteFileCopies kv).Stamped)
    (fits : DeleteFilesFit seen (deleteFileCopies kv) (deleteFileTimelineOrderForCommit prepared.mutation.dataFiles)
      prepared.mutation.deleteFiles) :
    (deleteFileCopies next).Stamped ∧
      ∀ other, ClosesStored seen (deleteFileCopies kv) other → ClosesStored seen (deleteFileCopies next) other := by
  unfold stageDeleteFiles at staged
  rw [bind_eq_ok] at staged
  obtain ⟨staging, folded, staged⟩ := staged
  simp only [pure_eq_ok] at staged
  subst staged
  exact foldlM_deleteFiles_stamped committed folded stamped fits

theorem stageExpiredDeleteFiles_stamped
    (committed : order ≠ autoOrder) (policy : ExpiredObjectCleanupPolicy) {expired : List FdbExpiredDeleteFile}
    (stamped : (deleteFileCopies kv).Stamped)
    (closes : ∀ row ∈ expired, ClosesStored seen (deleteFileCopies kv) row.deleteFile) :
    (deleteFileCopies (stageExpiredDeleteFiles seen now order policy expired kv)).Stamped := by
  unfold stageExpiredDeleteFiles
  induction expired generalizing kv with
  | nil => exact stamped
  | cons first rest ih =>
    rw [List.foldl_cons]
    have known := closes first List.mem_cons_self
    have forgotten : ClosesStored seen ((deleteFileCopies kv).forget first.deleteFile.dataFileId) first.deleteFile :=
      ⟨known.stored, known.found⟩
    have ended := (stamped.forget first.deleteFile.dataFileId).close_stored committed forgotten (by
      simp [DeleteFileCopies.forget, OrderedMap.get?_erase])
    have later : ∀ row ∈ rest, ClosesStored seen (((deleteFileCopies kv).forget first.deleteFile.dataFileId).close
        (first.deleteFile.withEndOrder (some order)) (deleteFileTimelineKeyForRow seen first.deleteFile))
          row.deleteFile := by
      intro row member
      have other := closes row (List.mem_cons_of_mem _ member)
      have otherForgotten : ClosesStored seen ((deleteFileCopies kv).forget first.deleteFile.dataFileId)
          row.deleteFile := ⟨other.stored, other.found⟩
      exact otherForgotten.after_close order forgotten
    cases policy with
    | schedule cleanupKind
    | preserve => exact ih ended later

end DucklakeCatalog.Fdb
