import DucklakeCatalog.Run.DataFiles

namespace DucklakeCatalog

open KeyedStore

/-- The copies agree, and every stored file has an id that some accepted operation used. -/
structure DataFilesSound (history : CatalogHistory) : Prop where
  coherent : history.kv.dataFileIndexes.Coherent
  used : ∀ {dataFileId row}, history.kv.dataFile.get? dataFileId = some row → dataFileId ∈ history.dataFileIds

theorem DataFilesSound.start (lastOrder : CatalogOrderId) (now : Int) :
    DataFilesSound (CatalogHistory.start lastOrder now) where
  coherent := by
    have empty : (CatalogHistory.start lastOrder now).kv.dataFileIndexes = ⟨.empty, .empty, .empty, .empty⟩ := rfl
    rw [empty]
    refine ⟨?_, ?_, ?_, ?_⟩
    · intro dataFileId row found
      simp at found
    · intro key row
      simp
    · intro key row
      simp
    · intro key dataFileId
      simp
  used := by
    intro dataFileId row found
    have empty : (CatalogHistory.start lastOrder now).kv.dataFile = .empty := rfl
    simp [empty] at found

variable {history : CatalogHistory} {operation : CatalogOperation} {batch : KvBatch}

theorem DataFilesSound.unknown (sound : DataFilesSound history)
    (fresh : dataFileId ∉ history.dataFileIds) : history.kv.dataFile.get? dataFileId = none := by
  refine Option.eq_none_iff_forall_ne_some.mpr ?_
  intro row found
  exact fresh (sound.used found)

theorem DataFilesSound.commit (sound : DataFilesSound history) (fresh : history.FreshDataFileIds operation)
    (commits : operation.Commits history.kv batch) : DataFilesSound (history.committed operation batch) := by
  have staged := commits.dataFiles sound.coherent.named fresh.1 fun dataFileId new => sound.unknown (fresh.2 _ new)
  refine ⟨staged.steps.coherent sound.coherent, ?_⟩
  intro dataFileId row found
  rcases staged.steps.stored_or_new (Option.isSome_iff_exists.mpr ⟨row, found⟩) with known | new
  · obtain ⟨stored, known⟩ := Option.isSome_iff_exists.mp known
    exact List.mem_append_left _ (sound.used known)
  · exact List.mem_append_right _ new

theorem DataFilesSound.maintain (sound : DataFilesSound history) (maintains : operation.Maintains history.kv batch) :
    DataFilesSound (history.maintained batch) := by
  have removes := maintains.dataFiles sound.coherent.named
  refine ⟨removes.steps.coherent sound.coherent, ?_⟩
  intro dataFileId row found
  exact sound.used (removes.kept found)

theorem CatalogHistory.Reachable.dataFilesSound {Allowed : CatalogHistory → CatalogOperation → Prop}
    (fresh : ∀ history operation, Allowed history operation → history.FreshDataFileIds operation)
    (reachable : CatalogHistory.Reachable Allowed history) : DataFilesSound history :=
  reachable.invariant DataFilesSound DataFilesSound.start (fun _ sound => ⟨sound.coherent, sound.used⟩)
    (fun _ _ _ sound allowed commits => sound.commit (fresh _ _ allowed) commits)
    (fun _ _ _ sound _ maintains => sound.maintain maintains)

/-! ## Entries of one file -/

/-- The entries of an index that name the file, as the index lists them. -/
def currentEntriesOf (kv : CatalogKv) (dataFileId : DataFileId) : List (TableFileKey × DataFileRow) :=
  kv.currentDataFile.scan fun key => key.dataFileId = dataFileId

def beginEntriesOf (kv : CatalogKv) (dataFileId : DataFileId) : List (TableOrderKey × DataFileRow) :=
  kv.dataFileBegin.scan fun key => key.fileId = dataFileId

def endEntriesOf (kv : CatalogKv) (dataFileId : DataFileId) : List (TableOrderKey × DataFileId) :=
  kv.dataFileEnd.scan fun key => key.fileId = dataFileId

/-- What the three indexes hold for a file, given its primary row. -/
def CopiesAgree (kv : CatalogKv) (dataFileId : DataFileId) : Prop :=
  match kv.dataFile.get? dataFileId with
  | none => currentEntriesOf kv dataFileId = [] ∧ beginEntriesOf kv dataFileId = [] ∧ endEntriesOf kv dataFileId = []
  | some row =>
    currentEntriesOf kv dataFileId =
        (if row.validity.endOrder = none then [(⟨row.tableId, dataFileId⟩, row)] else []) ∧
      beginEntriesOf kv dataFileId = [(⟨row.tableId, row.validity.beginOrder, dataFileId⟩, row)] ∧
      (beginEntriesOf kv dataFileId).map dataFileFromBeginIndexItem = [row] ∧
      endEntriesOf kv dataFileId =
        row.validity.endOrder.toList.map fun endOrder => (⟨row.tableId, endOrder, dataFileId⟩, dataFileId)

theorem DataFileIndexes.Coherent.copiesAgree {kv : CatalogKv} (coherent : kv.dataFileIndexes.Coherent)
    (dataFileId : DataFileId) : CopiesAgree kv dataFileId := by
  unfold CopiesAgree
  split
  · rename_i missing
    have gone : kv.dataFileIndexes.dataFile.get? dataFileId = none := missing
    refine ⟨OrderedMap.scan_eq_nil ?_, OrderedMap.scan_eq_nil ?_, OrderedMap.scan_eq_nil ?_⟩
    · intro key row found
      refine decide_eq_false ?_
      rintro rfl
      have primary := (coherent.current.mp found).1
      simp [gone] at primary
    · intro key row found
      refine decide_eq_false ?_
      rintro rfl
      have primary := (coherent.begins.mp found).1
      simp [gone] at primary
    · intro key ended found
      refine decide_eq_false ?_
      rintro rfl
      obtain ⟨_, row, primary, _⟩ := coherent.ends.mp found
      simp [gone] at primary
  · rename_i row stored
    have primary : kv.dataFileIndexes.dataFile.get? dataFileId = some row := stored
    have begun : beginEntriesOf kv dataFileId = [(⟨row.tableId, row.validity.beginOrder, dataFileId⟩, row)] := by
      refine OrderedMap.scan_eq_singleton (coherent.begins.mpr ⟨primary, rfl, rfl⟩) (by simp) ?_
      intro key other found within
      obtain rfl := of_decide_eq_true within
      obtain ⟨same, table, order⟩ := coherent.begins.mp found
      obtain rfl := Option.some.inj (primary.symm.trans same)
      rw [table, order]
    refine ⟨?_, begun, by rw [begun]; rfl, ?_⟩
    · split
      · rename_i opened
        refine OrderedMap.scan_eq_singleton (coherent.current.mpr ⟨primary, rfl, opened⟩) (by simp) ?_
        intro key other found within
        obtain rfl := of_decide_eq_true within
        obtain ⟨same, table, _⟩ := coherent.current.mp found
        obtain rfl := Option.some.inj (primary.symm.trans same)
        rw [table]
      · rename_i closed
        refine OrderedMap.scan_eq_nil ?_
        intro key other found
        refine decide_eq_false ?_
        rintro rfl
        obtain ⟨same, _, opened⟩ := coherent.current.mp found
        obtain rfl := Option.some.inj (primary.symm.trans same)
        exact closed opened
    · cases closed : row.validity.endOrder with
      | none =>
        refine OrderedMap.scan_eq_nil ?_
        intro key other found
        refine decide_eq_false ?_
        rintro rfl
        obtain ⟨_, ended, same, _, ends⟩ := coherent.ends.mp found
        obtain rfl := Option.some.inj (primary.symm.trans same)
        simp [closed] at ends
      | some endOrder =>
        refine OrderedMap.scan_eq_singleton (coherent.ends.mpr ⟨rfl, row, primary, rfl, closed⟩) (by simp) ?_
        intro key other found within
        obtain rfl := of_decide_eq_true within
        obtain ⟨_, ended, same, table, ends⟩ := coherent.ends.mp found
        obtain rfl := Option.some.inj (primary.symm.trans same)
        rw [closed] at ends
        rw [table, Option.some.inj ends]

/-- In every reachable state the current, begin and end entries of a file are exactly those its primary row
calls for. -/
theorem reachable_copiesAgree (reachable : CatalogHistory.Reachable CatalogHistory.FreshDataFileIds history)
    (dataFileId : DataFileId) : CopiesAgree history.kv dataFileId :=
  (reachable.dataFilesSound fun _ _ fresh => fresh).coherent.copiesAgree dataFileId

/-- Two appended files, merged into a third one which is then dropped. -/
def mergedThenDropped : List CatalogOperation :=
  let file (dataFileId rowIdStart recordCount : Nat) : DataFileRow :=
    { dataFileId, tableId := 1, path := "", recordCount, fileSizeBytes := 1, rowIdStart, rowIdStartKnown := true,
      validity := ⟨autoOrder, none⟩ }
  [.appendDataFiles 0 [file 1 0 10] [], .appendDataFiles 0 [file 2 10 5] [],
    .mergeAdjacent 0 { sourceFileIds := [1, 2], newFiles := [file 3 0 15] },
    .dataMutation 0 { droppedDataFileIds := [3] }]

theorem reachable_copiesAgree_mergedThenDropped :
    ((CatalogHistory.start 0 0).run mergedThenDropped).kv.dataFile.entries.length = 3 ∧
      CopiesAgree ((CatalogHistory.start 0 0).run mergedThenDropped).kv 3 :=
  ⟨by decide +kernel, reachable_copiesAgree (.run (.start 0 0) (by decide +kernel)) 3⟩

end DucklakeCatalog
