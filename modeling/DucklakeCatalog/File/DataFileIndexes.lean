import DucklakeCatalog.File.DataFileStore
import Mathlib.Logic.Relation

namespace DucklakeCatalog

open KeyedStore

/-- The four maps that hold copies of a data file. -/
structure DataFileIndexes where
  dataFile : OrderedMap DataFileId DataFileRow
  currentDataFile : OrderedMap TableFileKey DataFileRow
  dataFileBegin : OrderedMap TableOrderKey DataFileRow
  dataFileEnd : OrderedMap TableOrderKey DataFileId

def CatalogKv.dataFileIndexes (kv : CatalogKv) : DataFileIndexes where
  dataFile := kv.dataFile
  currentDataFile := kv.currentDataFile
  dataFileBegin := kv.dataFileBegin
  dataFileEnd := kv.dataFileEnd

namespace DataFileIndexes

/-- Each index is a function of the primary rows. -/
structure Coherent (indexes : DataFileIndexes) : Prop where
  named : ∀ {dataFileId row}, indexes.dataFile.get? dataFileId = some row → row.dataFileId = dataFileId
  current : ∀ {key row}, indexes.currentDataFile.get? key = some row ↔
    indexes.dataFile.get? key.dataFileId = some row ∧ row.tableId = key.tableId ∧ row.validity.endOrder = none
  begins : ∀ {key row}, indexes.dataFileBegin.get? key = some row ↔
    indexes.dataFile.get? key.fileId = some row ∧ row.tableId = key.tableId ∧ row.validity.beginOrder = key.order
  ends : ∀ {key dataFileId}, indexes.dataFileEnd.get? key = some dataFileId ↔
    dataFileId = key.fileId ∧ ∃ row, indexes.dataFile.get? key.fileId = some row ∧
      row.tableId = key.tableId ∧ row.validity.endOrder = some key.order

def append (indexes : DataFileIndexes) (row : DataFileRow) : DataFileIndexes :=
  { indexes with
    dataFile := indexes.dataFile.insert row.dataFileId row
    currentDataFile := indexes.currentDataFile.insert ⟨row.tableId, row.dataFileId⟩ row
    dataFileBegin := indexes.dataFileBegin.insert ⟨row.tableId, row.validity.beginOrder, row.dataFileId⟩ row }

def expire (indexes : DataFileIndexes) (row : DataFileRow) (endOrder : CatalogOrderId) : DataFileIndexes where
  dataFile := indexes.dataFile.insert row.dataFileId row
  currentDataFile := indexes.currentDataFile.erase ⟨row.tableId, row.dataFileId⟩
  dataFileBegin := indexes.dataFileBegin.insert ⟨row.tableId, row.validity.beginOrder, row.dataFileId⟩ row
  dataFileEnd := indexes.dataFileEnd.insert ⟨row.tableId, endOrder, row.dataFileId⟩ row.dataFileId

def remove (indexes : DataFileIndexes) (row : DataFileRow) : DataFileIndexes where
  dataFile := indexes.dataFile.erase row.dataFileId
  currentDataFile := indexes.currentDataFile.erase ⟨row.tableId, row.dataFileId⟩
  dataFileBegin := indexes.dataFileBegin.erase ⟨row.tableId, row.validity.beginOrder, row.dataFileId⟩
  dataFileEnd := row.validity.endOrder.elim indexes.dataFileEnd fun endOrder =>
    indexes.dataFileEnd.erase ⟨row.tableId, endOrder, row.dataFileId⟩

theorem Coherent.append {indexes : DataFileIndexes} (coherent : indexes.Coherent) {row : DataFileRow}
    (absent : indexes.dataFile.get? row.dataFileId = none) (opened : row.validity.endOrder = none) :
    (indexes.append row).Coherent where
  named := by
    intro dataFileId stored found
    simp only [DataFileIndexes.append, OrderedMap.get?_insert] at found
    split at found
    · rename_i same
      obtain rfl := Option.some.inj found
      exact same.symm
    · exact coherent.named found
  current := by
    intro key stored
    obtain ⟨tableId, dataFileId⟩ := key
    simp only [DataFileIndexes.append, OrderedMap.get?_insert, TableFileKey.mk.injEq]
    by_cases same : dataFileId = row.dataFileId
    · subst same
      have missing (table : TableId) : indexes.currentDataFile.get? ⟨table, row.dataFileId⟩ = none := by
        refine Option.eq_none_iff_forall_ne_some.mpr ?_
        intro other found
        simp [coherent.current, absent] at found
      by_cases table : tableId = row.tableId
      · subst table
        simp only [and_self, if_true, Option.some.injEq]
        exact ⟨fun same => same ▸ ⟨rfl, rfl, opened⟩, fun found => found.1⟩
      · simp only [table, false_and, if_false, missing, if_true, Option.some.injEq, reduceCtorEq, false_iff]
        intro found
        exact table (found.1 ▸ found.2.1).symm
    · simp only [same, and_false, if_false]
      exact coherent.current
  begins := by
    intro key stored
    obtain ⟨tableId, order, dataFileId⟩ := key
    simp only [DataFileIndexes.append, OrderedMap.get?_insert, TableOrderKey.mk.injEq]
    by_cases same : dataFileId = row.dataFileId
    · subst same
      have missing (table : TableId) (begun : CatalogOrderId) :
          indexes.dataFileBegin.get? ⟨table, begun, row.dataFileId⟩ = none := by
        refine Option.eq_none_iff_forall_ne_some.mpr ?_
        intro other found
        simp [coherent.begins, absent] at found
      by_cases place : tableId = row.tableId ∧ order = row.validity.beginOrder
      · obtain ⟨rfl, rfl⟩ := place
        simp only [and_self, if_true, Option.some.injEq]
        exact ⟨fun same => same ▸ ⟨rfl, rfl, rfl⟩, fun found => found.1⟩
      · have elsewhere : ¬(tableId = row.tableId ∧ order = row.validity.beginOrder ∧ True) :=
          fun found => place ⟨found.1, found.2.1⟩
        simp only [elsewhere, if_false, missing, if_true, Option.some.injEq, reduceCtorEq, false_iff]
        rintro ⟨rfl, rfl, rfl⟩
        exact place ⟨rfl, rfl⟩
    · simp only [same, and_false, if_false]
      exact coherent.begins
  ends := by
    intro key ended
    obtain ⟨tableId, order, dataFileId⟩ := key
    simp only [DataFileIndexes.append, OrderedMap.get?_insert]
    by_cases same : dataFileId = row.dataFileId
    · subst same
      have missing : indexes.dataFileEnd.get? ⟨tableId, order, row.dataFileId⟩ = none := by
        refine Option.eq_none_iff_forall_ne_some.mpr ?_
        intro other found
        simp [coherent.ends, absent] at found
      simp [missing, opened]
    · simp only [same, if_false]
      exact coherent.ends

theorem Coherent.expire {indexes : DataFileIndexes} (coherent : indexes.Coherent) {row : DataFileRow}
    {endOrder : CatalogOrderId} (stored : indexes.dataFile.get? row.dataFileId = some row)
    (closes : row.validity.endOrder = none ∨ row.validity.endOrder = some endOrder) :
    (indexes.expire (row.withEndOrder (some endOrder)) endOrder).Coherent where
  named := by
    intro dataFileId other found
    simp only [DataFileIndexes.expire, OrderedMap.get?_insert] at found
    split at found
    · rename_i same
      obtain rfl := Option.some.inj found
      exact same.symm
    · exact coherent.named found
  current := by
    intro key other
    obtain ⟨tableId, dataFileId⟩ := key
    simp only [DataFileIndexes.expire, OrderedMap.get?_insert, OrderedMap.get?_erase, DataFileRow.withEndOrder,
      TableFileKey.mk.injEq]
    by_cases same : dataFileId = row.dataFileId
    · subst same
      have missing : (if tableId = row.tableId ∧ True then none
          else indexes.currentDataFile.get? ⟨tableId, row.dataFileId⟩) = (none : Option DataFileRow) := by
        split
        · rfl
        · rename_i elsewhere
          refine Option.eq_none_iff_forall_ne_some.mpr ?_
          intro found indexed
          obtain ⟨primary, table, _⟩ := coherent.current.mp indexed
          obtain rfl := Option.some.inj (stored.symm.trans primary)
          exact elsewhere ⟨table.symm, trivial⟩
      simp only [missing, if_true, Option.some.injEq, reduceCtorEq, false_iff]
      rintro ⟨rfl, _, opened⟩
      simp at opened
    · simp only [same, and_false, if_false]
      exact coherent.current
  begins := by
    intro key other
    obtain ⟨tableId, order, dataFileId⟩ := key
    simp only [DataFileIndexes.expire, OrderedMap.get?_insert, DataFileRow.withEndOrder, TableOrderKey.mk.injEq]
    by_cases same : dataFileId = row.dataFileId
    · subst same
      by_cases place : tableId = row.tableId ∧ order = row.validity.beginOrder
      · obtain ⟨rfl, rfl⟩ := place
        simp only [and_self, if_true, Option.some.injEq]
        exact ⟨fun same => same ▸ ⟨rfl, rfl, rfl⟩, fun found => found.1⟩
      · have elsewhere : ¬(tableId = row.tableId ∧ order = row.validity.beginOrder ∧ True) :=
          fun found => place ⟨found.1, found.2.1⟩
        simp only [elsewhere, if_false, if_true, Option.some.injEq, coherent.begins, stored]
        constructor
        · rintro ⟨rfl, rfl, rfl⟩
          exact absurd ⟨rfl, rfl⟩ place
        · rintro ⟨rfl, rfl, rfl⟩
          exact absurd ⟨rfl, rfl⟩ place
    · simp only [same, and_false, if_false]
      exact coherent.begins
  ends := by
    intro key ended
    obtain ⟨tableId, order, dataFileId⟩ := key
    simp only [DataFileIndexes.expire, OrderedMap.get?_insert, DataFileRow.withEndOrder, TableOrderKey.mk.injEq]
    by_cases same : dataFileId = row.dataFileId
    · subst same
      by_cases place : tableId = row.tableId ∧ order = endOrder
      · obtain ⟨rfl, rfl⟩ := place
        simp [eq_comm]
      · have elsewhere : ¬(tableId = row.tableId ∧ order = endOrder ∧ True) :=
          fun found => place ⟨found.1, found.2.1⟩
        simp only [elsewhere, if_false, if_true, Option.some.injEq, coherent.ends, stored]
        constructor
        · rintro ⟨_, _, rfl, table, closed⟩
          rcases closes with opened | closes
          · simp [opened] at closed
          · rw [closes] at closed
            exact absurd ⟨table.symm, (Option.some.inj closed).symm⟩ place
        · rintro ⟨_, _, rfl, table, closed⟩
          exact absurd ⟨table.symm, (Option.some.inj closed).symm⟩ place
    · simp only [same, and_false, if_false]
      exact coherent.ends

theorem Coherent.remove {indexes : DataFileIndexes} (coherent : indexes.Coherent) {row : DataFileRow}
    (stored : ∀ other, indexes.dataFile.get? row.dataFileId = some other → other = row) :
    (indexes.remove row).Coherent where
  named := by
    intro dataFileId other found
    simp only [DataFileIndexes.remove, OrderedMap.get?_erase] at found
    split at found
    · simp at found
    · exact coherent.named found
  current := by
    intro key other
    obtain ⟨tableId, dataFileId⟩ := key
    simp only [DataFileIndexes.remove, OrderedMap.get?_erase, TableFileKey.mk.injEq]
    by_cases same : dataFileId = row.dataFileId
    · subst same
      simp only [and_true, if_true, reduceCtorEq, false_and, iff_false]
      split
      · simp
      · rename_i elsewhere
        intro indexed
        obtain ⟨primary, table, _⟩ := coherent.current.mp indexed
        exact elsewhere (stored other primary ▸ table).symm
    · simp only [same, and_false, if_false]
      exact coherent.current
  begins := by
    intro key other
    obtain ⟨tableId, order, dataFileId⟩ := key
    simp only [DataFileIndexes.remove, OrderedMap.get?_erase, TableOrderKey.mk.injEq]
    by_cases same : dataFileId = row.dataFileId
    · subst same
      simp only [and_true, if_true, reduceCtorEq, false_and, iff_false]
      split
      · simp
      · rename_i elsewhere
        intro indexed
        obtain ⟨primary, table, begun⟩ := coherent.begins.mp indexed
        obtain rfl := stored other primary
        exact elsewhere ⟨table.symm, begun.symm⟩
    · simp only [same, and_false, if_false]
      exact coherent.begins
  ends := by
    intro key ended
    obtain ⟨tableId, order, dataFileId⟩ := key
    by_cases same : dataFileId = row.dataFileId
    · subst same
      simp only [DataFileIndexes.remove, OrderedMap.get?_erase, if_true, reduceCtorEq, false_and,
        exists_false, and_false, iff_false]
      cases closed : row.validity.endOrder with
      | none =>
        intro indexed
        obtain ⟨_, other, primary, _, ends⟩ := coherent.ends.mp indexed
        obtain rfl := stored other primary
        simp [closed] at ends
      | some endOrder =>
        simp only [Option.elim, OrderedMap.get?_erase, TableOrderKey.mk.injEq]
        split
        · simp
        · rename_i elsewhere
          intro indexed
          obtain ⟨_, other, primary, table, ends⟩ := coherent.ends.mp indexed
          obtain rfl := stored other primary
          rw [closed] at ends
          exact elsewhere ⟨table.symm, (Option.some.inj ends).symm, trivial⟩
    · have kept : (indexes.remove row).dataFileEnd.get? ⟨tableId, order, dataFileId⟩ =
          indexes.dataFileEnd.get? ⟨tableId, order, dataFileId⟩ := by
        cases closed : row.validity.endOrder with
        | none => simp [DataFileIndexes.remove, closed]
        | some endOrder => simp [DataFileIndexes.remove, closed, OrderedMap.get?_erase, same]
      rw [kept]
      simp only [DataFileIndexes.remove, OrderedMap.get?_erase, same, if_false]
      exact coherent.ends

/-- What one staged file does: a new file, a closed one or a removed one. -/
inductive Step (newIds : List DataFileId) (order : CatalogOrderId) : DataFileIndexes → DataFileIndexes → Prop
  | append (new : row.dataFileId ∈ newIds) (absent : indexes.dataFile.get? row.dataFileId = none)
      (opened : row.validity.endOrder = none) : Step newIds order indexes (indexes.append row)
  | expire (stored : indexes.dataFile.get? row.dataFileId = some row)
      (closes : row.validity.endOrder = none ∨ row.validity.endOrder = some order) :
      Step newIds order indexes (indexes.expire (row.withEndOrder (some order)) order)
  | remove (stored : ∀ other, indexes.dataFile.get? row.dataFileId = some other → other = row) :
      Step newIds order indexes (indexes.remove row)

abbrev Steps (newIds : List DataFileId) (order : CatalogOrderId) : DataFileIndexes → DataFileIndexes → Prop :=
  Relation.ReflTransGen (Step newIds order)

theorem Step.coherent (step : Step newIds order before after) (coherent : before.Coherent) : after.Coherent := by
  cases step with
  | append new absent opened => exact coherent.append absent opened
  | expire stored closes => exact coherent.expire stored closes
  | remove stored => exact coherent.remove stored

theorem Steps.coherent (steps : Steps newIds order before after) (coherent : before.Coherent) : after.Coherent := by
  induction steps with
  | refl => exact coherent
  | tail _ step ih => exact step.coherent ih

/-- Only new ids gain a row. -/
theorem Step.stored_or_new (step : Step newIds order before after)
    (found : (after.dataFile.get? dataFileId).isSome) :
    (before.dataFile.get? dataFileId).isSome ∨ dataFileId ∈ newIds := by
  cases step with
  | append new absent opened =>
    simp only [DataFileIndexes.append, OrderedMap.get?_insert] at found
    split at found
    · rename_i same
      exact Or.inr (same ▸ new)
    · exact Or.inl found
  | expire stored closes =>
    simp only [DataFileIndexes.expire, OrderedMap.get?_insert] at found
    split at found
    · rename_i same
      left
      rw [same]
      exact Option.isSome_iff_exists.mpr ⟨_, stored⟩
    · exact Or.inl found
  | remove stored =>
    simp only [DataFileIndexes.remove, OrderedMap.get?_erase] at found
    split at found
    · simp at found
    · exact Or.inl found

theorem Steps.stored_or_new (steps : Steps newIds order before after)
    (found : (after.dataFile.get? dataFileId).isSome) :
    (before.dataFile.get? dataFileId).isSome ∨ dataFileId ∈ newIds := by
  induction steps with
  | refl => exact Or.inl found
  | tail _ step ih =>
    rcases step.stored_or_new found with earlier | new
    · exact ih earlier
    · exact Or.inr new

/-- A row of an old id keeps its table and begin order, and once ended its end order. -/
def Continues (before after : DataFileRow) : Prop :=
  after.tableId = before.tableId ∧ after.validity.beginOrder = before.validity.beginOrder ∧
    ∀ endOrder, before.validity.endOrder = some endOrder → after.validity.endOrder = some endOrder

theorem Step.origin (step : Step newIds order before after) (old : dataFileId ∉ newIds)
    (found : after.dataFile.get? dataFileId = some row) :
    ∃ earlier, before.dataFile.get? dataFileId = some earlier ∧ Continues earlier row := by
  cases step with
  | append new absent opened =>
    simp only [DataFileIndexes.append, OrderedMap.get?_insert] at found
    split at found
    · rename_i same
      exact absurd (same ▸ new) old
    · exact ⟨row, found, rfl, rfl, fun _ closed => closed⟩
  | @expire stored _ primary closes =>
    simp only [DataFileIndexes.expire, OrderedMap.get?_insert] at found
    split at found
    · rename_i same
      obtain rfl := Option.some.inj found
      refine ⟨stored, same ▸ primary, rfl, rfl, ?_⟩
      intro endOrder closed
      rcases closes with opened | closes
      · simp [opened] at closed
      · rw [closes] at closed
        exact closed
    · exact ⟨row, found, rfl, rfl, fun _ closed => closed⟩
  | remove stored =>
    simp only [DataFileIndexes.remove, OrderedMap.get?_erase] at found
    split at found
    · simp at found
    · exact ⟨row, found, rfl, rfl, fun _ closed => closed⟩

theorem Steps.origin (steps : Steps newIds order before after) (old : dataFileId ∉ newIds)
    (found : after.dataFile.get? dataFileId = some row) :
    ∃ earlier, before.dataFile.get? dataFileId = some earlier ∧ Continues earlier row := by
  induction steps generalizing row with
  | refl => exact ⟨row, found, rfl, rfl, fun _ closed => closed⟩
  | tail _ step ih =>
    obtain ⟨middle, between, table, begun, ended⟩ := step.origin old found
    obtain ⟨earlier, first, sameTable, sameBegin, sameEnd⟩ := ih between
    exact ⟨earlier, first, table.trans sameTable, begun.trans sameBegin, fun endOrder closed =>
      ended endOrder (sameEnd endOrder closed)⟩

end DataFileIndexes

/-! ## Staged data files -/

/-- The staged part of the four maps. -/
def KvBatch.dataFiles (batch : KvBatch) :
    Staged DataFileId DataFileRow × Staged TableFileKey DataFileRow × Staged TableOrderKey DataFileRow ×
      Staged TableOrderKey DataFileId :=
  (batch.dataFile, batch.currentDataFile, batch.dataFileBegin, batch.dataFileEnd)

theorem CatalogKv.commit_dataFileIndexes_congr (kv : CatalogKv) {before after : KvBatch}
    (same : after.dataFiles = before.dataFiles) :
    (kv.commit after).dataFileIndexes = (kv.commit before).dataFileIndexes := by
  simp only [KvBatch.dataFiles, Prod.mk.injEq] at same
  simp only [CatalogKv.dataFileIndexes, CatalogKv.commit, same]

theorem commit_putAppendedDataFile (kv : CatalogKv) (batch : KvBatch) (row : DataFileRow) :
    (kv.commit (putAppendedDataFile batch row)).dataFileIndexes = (kv.commit batch).dataFileIndexes.append row := by
  simp [CatalogKv.dataFileIndexes, CatalogKv.commit, putAppendedDataFile, DataFileIndexes.append]

theorem commit_putExpiredDataFile (kv : CatalogKv) (batch : KvBatch) (row : DataFileRow)
    (endOrder : CatalogOrderId) (unwritten : ¬batch.currentDataFile.Writes ⟨row.tableId, row.dataFileId⟩) :
    (kv.commit (putExpiredDataFile batch row endOrder)).dataFileIndexes =
      (kv.commit batch).dataFileIndexes.expire row endOrder := by
  simp [CatalogKv.dataFileIndexes, CatalogKv.commit, putExpiredDataFile, DataFileIndexes.expire,
    OrderedMap.commit_delete _ _ _ unwritten]

/-- How far a batch has come with its data files: it only touches files of the store and new ones. -/
structure StagesDataFiles (kv : CatalogKv) (newIds : List DataFileId) (order : CatalogOrderId)
    (batch : KvBatch) : Prop where
  steps : DataFileIndexes.Steps newIds order kv.dataFileIndexes (kv.commit batch).dataFileIndexes
  written : ∀ {tableId dataFileId}, batch.currentDataFile.Writes ⟨tableId, dataFileId⟩ → dataFileId ∈ newIds
  kept : ∀ {dataFileId row}, kv.dataFile.get? dataFileId = some row →
    (kv.commit batch).dataFile.get? dataFileId = some row ∨
      (kv.commit batch).dataFile.get? dataFileId = some (row.withEndOrder (some order))

namespace StagesDataFiles

variable {kv : CatalogKv} {newIds : List DataFileId} {order : CatalogOrderId} {batch next : KvBatch}

theorem start (untouched : batch.dataFiles = ({} : KvBatch).dataFiles) : StagesDataFiles kv newIds order batch := by
  have same := kv.commit_dataFileIndexes_congr untouched
  have unchanged : (kv.commit batch).dataFile = kv.dataFile := congrArg DataFileIndexes.dataFile same
  refine ⟨?_, ?_, ?_⟩
  · rw [same]
    exact .refl
  · intro tableId dataFileId writes
    simp only [KvBatch.dataFiles, Prod.mk.injEq] at untouched
    rw [untouched.2.1] at writes
    exact absurd writes Staged.not_writes_empty
  · intro dataFileId row found
    exact Or.inl (unchanged ▸ found)

section

variable (staged : StagesDataFiles kv newIds order batch)

include staged

theorem congr (same : next.dataFiles = batch.dataFiles) :
    StagesDataFiles kv newIds order next := by
  have indexes := kv.commit_dataFileIndexes_congr same
  have unchanged : (kv.commit next).dataFile = (kv.commit batch).dataFile := congrArg DataFileIndexes.dataFile indexes
  simp only [KvBatch.dataFiles, Prod.mk.injEq] at same
  refine ⟨indexes ▸ staged.steps, ?_, ?_⟩
  · intro tableId dataFileId writes
    exact staged.written (same.2.1 ▸ writes)
  · intro dataFileId row found
    exact unchanged ▸ staged.kept found

theorem append {row : DataFileRow}
    (new : row.dataFileId ∈ newIds) (unknown : kv.dataFile.get? row.dataFileId = none)
    (absent : (kv.commit batch).dataFile.get? row.dataFileId = none) (opened : row.validity.endOrder = none)
    (same : next.dataFiles = (putAppendedDataFile batch row).dataFiles) :
    StagesDataFiles kv newIds order next := by
  refine StagesDataFiles.congr ?_ same
  refine ⟨?_, ?_, ?_⟩
  · rw [commit_putAppendedDataFile]
    exact .tail staged.steps (.append new absent opened)
  · intro tableId dataFileId writes
    rcases Staged.writes_put.mp writes with same | earlier
    · simp only [TableFileKey.mk.injEq] at same
      exact same.2 ▸ new
    · exact staged.written earlier
  · intro dataFileId stored found
    have different : dataFileId ≠ row.dataFileId := by
      rintro rfl
      simp [unknown] at found
    have kept := staged.kept found
    simpa [CatalogKv.commit, putAppendedDataFile, OrderedMap.get?_insert, different] using kept

theorem expire
    (unknown : ∀ dataFileId ∈ newIds, kv.dataFile.get? dataFileId = none) {row : DataFileRow}
    (stored : kv.dataFile.get? row.dataFileId = some row) (opened : row.validity.endOrder = none)
    (same : next.dataFiles = (putExpiredDataFile batch (row.withEndOrder (some order)) order).dataFiles) :
    StagesDataFiles kv newIds order next := by
  refine StagesDataFiles.congr ?_ same
  have unwritten : ¬batch.currentDataFile.Writes ⟨row.tableId, row.dataFileId⟩ := by
    intro writes
    simp [unknown _ (staged.written writes)] at stored
  refine ⟨?_, ?_, ?_⟩
  · rw [commit_putExpiredDataFile kv batch (row.withEndOrder (some order)) order unwritten]
    refine .tail staged.steps ?_
    -- The file may be listed twice; closing it again at the same order changes nothing.
    rcases staged.kept stored with untouched | closed
    · exact .expire untouched (Or.inl opened)
    · have again : (row.withEndOrder (some order)).withEndOrder (some order) = row.withEndOrder (some order) := rfl
      rw [← again]
      exact .expire closed (Or.inr rfl)
  · intro tableId dataFileId writes
    exact staged.written writes
  · intro dataFileId other found
    by_cases same : dataFileId = row.dataFileId
    · subst same
      obtain rfl := Option.some.inj (stored.symm.trans found)
      right
      simp [CatalogKv.commit, putExpiredDataFile, DataFileRow.withEndOrder]
    · have kept := staged.kept found
      simpa [CatalogKv.commit, putExpiredDataFile, OrderedMap.get?_insert, DataFileRow.withEndOrder, same] using kept

end

end StagesDataFiles

end DucklakeCatalog
