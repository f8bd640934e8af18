import DucklakeCatalog.Fdb.Applied
import Mathlib.Data.List.Dedup

/-! What an applied data mutation does to the current files and to the inline
file deletions of one data file. -/
namespace DucklakeCatalog.Fdb

open KeyedStore

variable {attempt : MutationAttempt} {store next : FdbStore}

/-! ## Preparation -/

variable {plan : FdbMutationPlan} {prepared : PreparedDataMutation} {context : MutationDataFileContext}
  {seen kv staged : CatalogKv} {dataFileId : DataFileId} {row : DataFileRow} {now : Int} {order : CatalogOrderId}

theorem prepareDataMutation_mutation {seen : FdbStore} (prepares : prepareDataMutation seen plan = .ok prepared) :
    prepared.mutation = FdbDataMutation.prepared plan.mutation := by
  unfold prepareDataMutation at prepares
  simp only [bind_eq_ok, pure_eq_ok] at prepares
  obtain ⟨_, _, _, _, _, _, _, _, _, _, rfl⟩ := prepares
  rfl

/-- Every row of the context stands under its own id. -/
def MutationDataFileContext.Keyed (context : MutationDataFileContext) : Prop :=
  ∀ dataFileId row, context.get? dataFileId = some row → row.dataFileId = dataFileId

theorem MutationDataFileContext.Keyed.insert (keyed : context.Keyed)
    (row : DataFileRow) : MutationDataFileContext.Keyed (OrderedMap.insert context row.dataFileId row) := by
  intro dataFileId found present
  rw [OrderedMap.get?_insert] at present
  split at present
  · rename_i same
    rw [Option.some.injEq] at present
    rw [← present, same]
  · exact keyed dataFileId found present

theorem MutationDataFileContext.known_keyed (proposed preloaded : List DataFileRow) :
    (MutationDataFileContext.known proposed preloaded).Keyed := by
  have empty : MutationDataFileContext.Keyed .empty := by
    intro dataFileId row present
    simp at present
  have first : MutationDataFileContext.Keyed
      (proposed.foldl (fun context row => OrderedMap.insert context row.dataFileId row) .empty) := by
    generalize (OrderedMap.empty : MutationDataFileContext) = start at empty ⊢
    induction proposed generalizing start with
    | nil => exact empty
    | cons row rest ih => exact ih _ (empty.insert row)
  unfold MutationDataFileContext.known
  generalize proposed.foldl (fun context row => OrderedMap.insert context row.dataFileId row) .empty = start at first ⊢
  induction preloaded generalizing start with
  | nil => exact first
  | cons row rest ih =>
    rw [List.foldl_cons]
    split
    · exact ih _ first
    · exact ih _ (first.insert row)

theorem loadMissingDataFiles_keyed {loaded : MutationDataFileContext}
    {referencedIds : List DataFileId} (loads : loadMissingDataFiles seen context referencedIds = .ok loaded)
    (keyed : context.Keyed) : loaded.Keyed := by
  refine foldlM_invariant MutationDataFileContext.Keyed loads keyed ?_
  intro context dataFileId next _ soFar taken
  split at taken
  · simp at taken
  · rename_i row _
    split at taken
    · simp at taken
    · rename_i same
      obtain rfl : row.dataFileId = dataFileId := by simpa using same
      simp only [Except.ok.injEq] at taken
      exact taken ▸ soFar.insert row

theorem prepareDataMutation_keyed {seen : FdbStore}
    (prepares : prepareDataMutation seen plan = .ok prepared) : prepared.dataFileContext.Keyed := by
  unfold prepareDataMutation at prepares
  simp only [bind_eq_ok, pure_eq_ok] at prepares
  obtain ⟨_, _, _, _, _, _, _, _, context, loads, rfl⟩ := prepares
  exact loadMissingDataFiles_keyed loads (MutationDataFileContext.known_keyed _ _)

/-! ## Validation -/

/-- A committed file that a mutation writes a delete file for or drops, as the mutation knows it. -/
structure ValidatedTarget (plan : FdbMutationPlan) (prepared : PreparedDataMutation) (row : DataFileRow) : Prop where
  listed : row.dataFileId ∈ plan.mutation.deleteFiles.map DeleteFileRow.dataFileId ++ plan.mutation.droppedDataFileIds
  committed : row.dataFileId ∉ plan.mutation.dataFiles.map DataFileRow.dataFileId
  known : prepared.dataFileContext.get? row.dataFileId = some row
  begun : ∀ order, plan.readContext.order = some order → row.validity.beginOrder ≤ order

theorem prepared_dataFile_ids (mutation : FdbDataMutation) :
    (FdbDataMutation.prepared mutation).dataFiles.map DataFileRow.dataFileId =
      mutation.dataFiles.map DataFileRow.dataFileId := by
  simp only [FdbDataMutation.prepared, List.map_map, List.map_inj_left, Function.comp_apply]
  intro row _
  unfold preparedDataFile
  split <;> rfl

theorem prepared_deleteFile_dataFileIds (mutation : FdbDataMutation) :
    (FdbDataMutation.prepared mutation).deleteFiles.map DeleteFileRow.dataFileId =
      mutation.deleteFiles.map DeleteFileRow.dataFileId := by
  simp only [FdbDataMutation.prepared, List.map_map]
  rfl

theorem mem_targetIds {mutation : FdbDataMutation} :
    dataFileId ∈ targetIds mutation ↔
      dataFileId ∈ mutation.deleteFiles.map DeleteFileRow.dataFileId ++ mutation.droppedDataFileIds ∧
        dataFileId ∉ mutation.dataFiles.map DataFileRow.dataFileId := by
  unfold targetIds
  simp only [List.mem_insertionSort, List.mem_dedup, List.mem_filter, decide_eq_true_eq]

theorem ValidatedTarget.mem_active {active : List DataFileRow} (target : ValidatedTarget plan prepared row)
    (sameMutation : prepared.mutation = FdbDataMutation.prepared plan.mutation)
    (listed : activeTargets prepared.dataFileContext plan.readContext.order prepared.mutation = .ok active) :
    row ∈ active := by
  unfold activeTargets at listed
  rw [bind_eq_ok] at listed
  obtain ⟨rows, loads, listed⟩ := listed
  simp only [pure_eq_ok] at listed
  have wanted : row.dataFileId ∈ targetIds prepared.mutation := by
    rw [sameMutation, mem_targetIds, prepared_dataFile_ids, prepared_deleteFile_dataFileIds]
    exact ⟨target.listed, target.committed⟩
  obtain ⟨found, member, loaded⟩ := mapM_accepts loads wanted
  have same : found = row := by
    simpa [MutationDataFileContext.load, target.known, eq_comm] using loaded
  rw [← listed, List.mem_filter]
  refine ⟨same ▸ member, ?_⟩
  rw [Option.all_eq_true]
  intro order given
  exact decide_eq_true (target.begun order given)

section

variable (applied : AppliedMutation attempt store next)

include applied

theorem AppliedMutation.active :
    ∃ active, activeTargets applied.prepared.dataFileContext applied.plan.readContext.order
        applied.prepared.mutation = .ok active ∧
      (∀ row ∈ active, rejectNoLongerCurrent store.kv row = .ok ()) ∧
      rejectDeletesAfterRead store.kv applied.plan.readContext.order applied.prepared.mutation active = .ok () := by
  have validated := applied.validated
  unfold rejectStaleDataFileTargetsInTransaction at validated
  rw [bind_eq_ok] at validated
  obtain ⟨active, listed, validated⟩ := validated
  split at validated
  · simp [pure, Except.pure] at validated
  · simp only [bind_eq_ok] at validated
    obtain ⟨⟨⟩, current, ⟨⟩, _, ⟨⟩, undeleted, _⟩ := validated
    exact ⟨active, listed, forM_eq_ok_iff.mp current, undeleted⟩

/-- The transaction sees every validated target among the current files. -/
theorem AppliedMutation.target_current
    (target : ValidatedTarget applied.plan applied.prepared row) :
    (store.kv.currentDataFile.get? ⟨row.tableId, row.dataFileId⟩).isSome := by
  obtain ⟨active, listed, current, _⟩ := applied.active
  have passes := current row (target.mem_active (prepareDataMutation_mutation applied.prepares) listed)
  unfold rejectNoLongerCurrent at passes
  by_cases present : (store.kv.currentDataFile.get? ⟨row.tableId, row.dataFileId⟩).isSome
  · exact present
  · rw [if_neg present] at passes
    simp at passes

/-- The delete file that is current for a delete target began by the read order. -/
theorem AppliedMutation.deleteFile_begun
    {readOrder : CatalogOrderId} {current : DeleteFileRow}
    (target : ValidatedTarget applied.plan applied.prepared row)
    (deletes : row.dataFileId ∈ applied.plan.mutation.deleteFiles.map DeleteFileRow.dataFileId)
    (reads : applied.plan.readContext.order = some readOrder)
    (found : store.kv.currentDeleteFile.get? row.dataFileId = some current) :
    current.validity.beginOrder ≤ readOrder := by
  obtain ⟨active, listed, _, undeleted⟩ := applied.active
  have sameMutation := prepareDataMutation_mutation applied.prepares
  have member := target.mem_active sameMutation listed
  unfold rejectDeletesAfterRead at undeleted
  simp only [reads] at undeleted
  have checked : row.dataFileId ∈ (active.map DataFileRow.dataFileId).filter fun dataFileId =>
      dataFileId ∈ applied.prepared.mutation.deleteFiles.map DeleteFileRow.dataFileId := by
    rw [List.mem_filter, sameMutation, prepared_deleteFile_dataFileIds]
    exact ⟨List.mem_map_of_mem member, decide_eq_true deletes⟩
  have passes := forM_eq_ok_iff.mp undeleted _ checked
  unfold rejectCurrentDeleteFileAfterRead at passes
  simp only [found] at passes
  by_cases after : readOrder < current.validity.beginOrder
  · rw [if_pos after] at passes
    simp at passes
  · exact Nat.le_of_not_lt after

end

/-! ## Delete files -/

/-- Where a staged delete file begins: inherited, asked for, or at the commit. -/
theorem stampedDeleteFile_beginOrder (order timelineOrder : CatalogOrderId) (inherited : Option CatalogOrderId)
    (row : DeleteFileRow) :
    (stampedDeleteFile order (inheritingDeleteFile inherited timelineOrder row)).validity.beginOrder =
      resolveOrder order (inherited.getD row.validity.beginOrder) := by
  have staged : (inheritingDeleteFile inherited timelineOrder row).validity.beginOrder =
      inherited.getD row.validity.beginOrder := by
    cases inherited <;> rfl
  rw [← staged]
  unfold stampedDeleteFile resolveOrder
  split
  · rfl
  · rfl

/-- A staged delete file becomes the current one of its data file and of no other. -/
theorem stageDeleteFileWithoutWatermark_current
    {staging staged : DeleteFileStaging} {dataFile : DataFileRow} {row : DeleteFileRow} {timelineOrder : CatalogOrderId}
    (stages : stageDeleteFileWithoutWatermark seen now order staging dataFile row timelineOrder = .ok staged) :
    staged.kv.currentDeleteFile = staging.kv.currentDeleteFile.insert row.dataFileId
      (stampedDeleteFile order (inheritingDeleteFile
        ((staging.kv.currentDeleteFile.get? row.dataFileId).map fun current => current.validity.beginOrder)
        timelineOrder row)) := by
  unfold stageDeleteFileWithoutWatermark at stages
  rw [bind_eq_ok] at stages
  obtain ⟨⟨inherited, closed⟩, closes, stages⟩ := stages
  have closing : closed.currentDeleteFile = staging.kv.currentDeleteFile ∧
      inherited = (staging.kv.currentDeleteFile.get? row.dataFileId).map fun current => current.validity.beginOrder := by
    unfold stageCloseCurrentDeleteFile at closes
    split at closes
    · simp at closes
    · split at closes
      · rename_i missing
        simp only [Except.ok.injEq, Prod.mk.injEq] at closes
        obtain ⟨rfl, rfl⟩ := closes
        exact ⟨rfl, by rw [missing]; rfl⟩
      · rename_i current found
        split at closes
        · simp at closes
        · simp only [Except.ok.injEq, Prod.mk.injEq] at closes
          obtain ⟨rfl, rfl⟩ := closes
          exact ⟨rfl, by rw [found]; rfl⟩
  obtain ⟨sameCurrent, rfl⟩ := closing
  dsimp only at stages
  split at stages
  · simp at stages
  · simp only [pure_eq_ok] at stages
    subst stages
    have sameFile : ∀ inherited, (inheritingDeleteFile inherited timelineOrder row).dataFileId = row.dataFileId := by
      intro inherited
      cases inherited <;> rfl
    simp only [sameFile, sameCurrent]

/-- A property of the current delete file of one data file that each staged delete file keeps. -/
theorem stageDeleteFiles_current {deleted : CatalogKv} (Holds : Option DeleteFileRow → Prop)
    (stages : stageDeleteFiles seen now order prepared kv = .ok deleted)
    (holds : Holds (kv.currentDeleteFile.get? dataFileId))
    (kept : ∀ row ∈ prepared.mutation.deleteFiles, row.dataFileId = dataFileId → ∀ current timelineOrder,
      Holds current → Holds (some (stampedDeleteFile order (inheritingDeleteFile
        (current.map fun current => current.validity.beginOrder) timelineOrder row)))) :
    Holds (deleted.currentDeleteFile.get? dataFileId) := by
  unfold stageDeleteFiles at stages
  rw [bind_eq_ok] at stages
  obtain ⟨staging, folded, stages⟩ := stages
  simp only [pure_eq_ok] at stages
  subst stages
  refine foldlM_invariant (fun staging : DeleteFileStaging => Holds (staging.kv.currentDeleteFile.get? dataFileId))
    folded holds ?_
  intro staging row staged member soFar taken
  rw [bind_eq_ok] at taken
  obtain ⟨dataFile, _, taken⟩ := taken
  rw [stageDeleteFileWithoutWatermark_current taken, OrderedMap.get?_insert]
  split
  · rename_i same
    subst same
    exact kept row member rfl _ _ soFar
  · exact soFar

theorem stageExpiredDeleteFiles_current (seen : CatalogKv) (now : Int) (order : CatalogOrderId)
    (policy : ExpiredObjectCleanupPolicy) (expired : List FdbExpiredDeleteFile) (kv : CatalogKv)
    (dataFileId : DataFileId) :
    (stageExpiredDeleteFiles seen now order policy expired kv).currentDeleteFile.get? dataFileId =
      if dataFileId ∈ expired.map (fun expired => expired.deleteFile.dataFileId) then none
      else kv.currentDeleteFile.get? dataFileId := by
  unfold stageExpiredDeleteFiles
  refine OrderedMap.get?_foldl_erases CatalogKv.currentDeleteFile
    (fun expired : FdbExpiredDeleteFile => expired.deleteFile.dataFileId) ?_ expired kv dataFileId
  intro kv expired
  cases policy <;> rfl

/-- The files that a mutation gives a new delete file, or whose delete file it expires. -/
def FdbMutationPlan.deleteFileTargets (plan : FdbMutationPlan) : List DataFileId :=
  plan.mutation.deleteFiles.map DeleteFileRow.dataFileId ++
    plan.expiredDeleteFiles.map fun expired => expired.deleteFile.dataFileId

/-- A property of the current delete file that the mutation's own delete files keep and that their absence has. -/
theorem AppliedMutation.currentDeleteFile (applied : AppliedMutation attempt store next)
    (Holds : Option DeleteFileRow → Prop) (holds : Holds (store.kv.currentDeleteFile.get? dataFileId))
    (expires : dataFileId ∈ applied.plan.expiredDeleteFiles.map (fun expired => expired.deleteFile.dataFileId) →
      Holds none)
    (kept : ∀ row ∈ applied.plan.mutation.deleteFiles, row.dataFileId = dataFileId → ∀ current timelineOrder,
      Holds current → Holds (some (stampedDeleteFile store.commitOrder (inheritingDeleteFile
        (current.map fun current => current.validity.beginOrder) timelineOrder (row.withEndOrder none))))) :
    Holds (next.kv.currentDeleteFile.get? dataFileId) := by
  obtain ⟨opening⟩ := applied.opening
  have same := applied.opened_sameFiles opening
  have appended := (stageDataFiles_writes opening.files.appends).others.1
  have described := opening.files.describes.sameFiles.1.currentDeleteFile
  have dropped := (stageDroppedDataFiles_writes opening.files.drops).others.1
  have before : opening.files.described.currentDeleteFile = store.kv.currentDeleteFile :=
    described.trans (appended.trans same.currentDeleteFile)
  have after : opening.files.dropped.currentDeleteFile = opening.files.deleted.currentDeleteFile :=
    dropped.trans opening.files.noted_sameFiles.currentDeleteFile
  have deleted : Holds (opening.files.deleted.currentDeleteFile.get? dataFileId) := by
    refine stageDeleteFiles_current Holds opening.files.deletes (before ▸ holds) ?_
    intro row member sameFile current timelineOrder soFar
    rw [prepareDataMutation_mutation applied.prepares] at member
    obtain ⟨given, listed, rfl⟩ := List.mem_map.mp member
    exact kept given listed sameFile current timelineOrder soFar
  rw [opening.ends]
  change Holds (opening.filed.currentDeleteFile.get? dataFileId)
  rw [opening.files.expires, stageExpiredDeleteFiles_current]
  split
  · rename_i expired
    exact expires expired
  · rw [after]
    exact deleted

theorem AppliedMutation.currentDeleteFile_of_not_target (applied : AppliedMutation attempt store next)
    (untouched : dataFileId ∉ applied.plan.deleteFileTargets) :
    next.kv.currentDeleteFile.get? dataFileId = store.kv.currentDeleteFile.get? dataFileId := by
  unfold FdbMutationPlan.deleteFileTargets at untouched
  rw [List.mem_append, not_or] at untouched
  refine applied.currentDeleteFile (fun current => current = store.kv.currentDeleteFile.get? dataFileId) rfl ?_ ?_
  · exact fun expired => absurd expired untouched.2
  · intro row member sameFile
    exact absurd (List.mem_map.mpr ⟨row, member, sameFile⟩) untouched.1

/-! ## Data files -/

/-- A stored file that is listed as current under its table. -/
def StoredCurrent (kv : CatalogKv) (dataFileId : DataFileId) : Prop :=
  ∃ row, kv.dataFile.get? dataFileId = some row ∧ (kv.currentDataFile.get? ⟨row.tableId, dataFileId⟩).isSome

/-- Staging a data file stores one row under its id and under its table. -/
theorem stageDataFileWithoutWatermark_stores (stages : stageDataFileWithoutWatermark order kv row = .ok staged) :
    ∃ stored : DataFileRow, stored.tableId = row.tableId ∧
      staged.dataFile = kv.dataFile.insert row.dataFileId stored ∧
      staged.currentDataFile = kv.currentDataFile.insert ⟨row.tableId, row.dataFileId⟩ stored := by
  unfold stageDataFileWithoutWatermark at stages
  split at stages
  · rw [bind_eq_ok] at stages
    obtain ⟨compacted, compacts, stages⟩ := stages
    simp only [pure_eq_ok] at stages
    subst stages
    unfold stageCompactedDataFile at compacts
    split at compacts
    · simp at compacts
    · simp only [Except.ok.injEq] at compacts
      subst compacts
      refine ⟨_, ?_, rfl, rfl⟩
      rfl
  · simp only [Except.ok.injEq] at stages
    subst stages
    refine ⟨_, ?_, rfl, rfl⟩
    rfl

theorem StoredCurrent.insert {stored : DataFileRow}
    (current : StoredCurrent kv dataFileId) (sameTable : stored.tableId = row.tableId)
    (files : staged.dataFile = kv.dataFile.insert row.dataFileId stored)
    (currents : staged.currentDataFile = kv.currentDataFile.insert ⟨row.tableId, row.dataFileId⟩ stored) :
    StoredCurrent staged dataFileId := by
  obtain ⟨found, present, listed⟩ := current
  unfold StoredCurrent
  rw [files, currents]
  by_cases same : dataFileId = row.dataFileId
  · subst same
    exact ⟨stored, by simp, by simp [sameTable]⟩
  · refine ⟨found, ?_, ?_⟩
    · rw [OrderedMap.get?_insert, if_neg same]
      exact present
    · rw [OrderedMap.get?_insert, if_neg (fun keys => same (congrArg TableFileKey.dataFileId keys))]
      exact listed

theorem stageDataFile_stores (stages : stageDataFile order kv row = .ok staged) :
    ∃ stored : DataFileRow, stored.tableId = row.tableId ∧
      staged.dataFile = kv.dataFile.insert row.dataFileId stored ∧
      staged.currentDataFile = kv.currentDataFile.insert ⟨row.tableId, row.dataFileId⟩ stored := by
  unfold stageDataFile at stages
  rw [bind_eq_ok] at stages
  obtain ⟨appended, appends, stages⟩ := stages
  simp only [pure_eq_ok] at stages
  subst stages
  obtain ⟨stored, sameTable, files, currents⟩ := stageDataFileWithoutWatermark_stores appends
  cases dataFileNextRowId row with
  | none
  | some nextRowId => exact ⟨stored, sameTable, files, currents⟩

variable {rows : List DataFileRow}

/-- Every appended file is stored and current afterwards. -/
theorem stageDataFiles_storedCurrent (stages : stageDataFiles order kv rows = .ok staged) :
    ∀ row ∈ rows, StoredCurrent staged row.dataFileId := by
  refine foldlM_establishes (fun kv row => StoredCurrent kv row.dataFileId) stages ?_ ?_
  · intro kv row next taken
    obtain ⟨stored, sameTable, files, currents⟩ := stageDataFile_stores taken
    exact ⟨stored, by rw [files]; simp, by rw [currents]; simp [sameTable]⟩
  · intro kv row next earlier taken current
    obtain ⟨stored, sameTable, files, currents⟩ := stageDataFile_stores taken
    exact current.insert sameTable files currents

/-- Files that are not appended keep their rows. -/
theorem stageDataFiles_of_not_mem (stages : stageDataFiles order kv rows = .ok staged)
    (missed : dataFileId ∉ rows.map DataFileRow.dataFileId) :
    staged.dataFile.get? dataFileId = kv.dataFile.get? dataFileId ∧
      ∀ tableId, staged.currentDataFile.get? ⟨tableId, dataFileId⟩ = kv.currentDataFile.get? ⟨tableId, dataFileId⟩ := by
  refine foldlM_invariant (fun staged : CatalogKv => staged.dataFile.get? dataFileId = kv.dataFile.get? dataFileId ∧
    ∀ tableId, staged.currentDataFile.get? ⟨tableId, dataFileId⟩ = kv.currentDataFile.get? ⟨tableId, dataFileId⟩)
    stages ⟨rfl, fun _ => rfl⟩ ?_
  intro staged row next member soFar taken
  have different : dataFileId ≠ row.dataFileId := fun same => missed (same ▸ List.mem_map_of_mem member)
  obtain ⟨stored, _, files, currents⟩ := stageDataFile_stores taken
  refine ⟨?_, fun tableId => ?_⟩
  · rw [files, OrderedMap.get?_insert, if_neg different]
    exact soFar.1
  · rw [currents, OrderedMap.get?_insert, if_neg (fun keys => different (congrArg TableFileKey.dataFileId keys))]
    exact soFar.2 tableId

/-- Dropping other files leaves a file as it was. -/
theorem stageDroppedDataFiles_of_not_mem {dropped : CatalogKv}
    {policy : ExpiredObjectCleanupPolicy} {droppedIds : List DataFileId} (keyed : context.Keyed)
    (stages : stageDroppedDataFiles seen now order policy context droppedIds kv = .ok dropped)
    (missed : dataFileId ∉ droppedIds) :
    dropped.dataFile.get? dataFileId = kv.dataFile.get? dataFileId ∧
      ∀ tableId, dropped.currentDataFile.get? ⟨tableId, dataFileId⟩ = kv.currentDataFile.get? ⟨tableId, dataFileId⟩ := by
  unfold stageDroppedDataFiles at stages
  rw [bind_eq_ok] at stages
  obtain ⟨rows, loads, stages⟩ := stages
  simp only [pure_eq_ok] at stages
  have others : ∀ row ∈ rows, dataFileId ≠ row.dataFileId := by
    intro row member same
    obtain ⟨droppedId, listed, loaded⟩ := mapM_source loads member
    have found : context.get? droppedId = some row := by
      unfold MutationDataFileContext.load at loaded
      cases present : context.get? droppedId with
      | none => simp [present] at loaded
      | some stored => simpa [present] using loaded
    exact missed (same.trans (keyed droppedId row found) ▸ listed)
  subst stages
  clear loads
  induction rows generalizing kv with
  | nil => exact ⟨rfl, fun _ => rfl⟩
  | cons row rest ih =>
    have different := others row List.mem_cons_self
    have restOthers : ∀ other ∈ rest, dataFileId ≠ other.dataFileId :=
      fun other member => others other (List.mem_cons_of_mem _ member)
    rw [List.foldl_cons]
    refine ⟨(ih restOthers).1.trans ?_, fun tableId => ((ih restOthers).2 tableId).trans ?_⟩
    · have expired : (stageExpiredDataFile seen order kv row).dataFile.get? dataFileId =
          kv.dataFile.get? dataFileId := (OrderedMap.get?_insert _ _ _ _).trans (if_neg different)
      cases policy with
      | schedule cleanupKind => exact expired
      | preserve => exact expired
    · have expired : (stageExpiredDataFile seen order kv row).currentDataFile.get? ⟨tableId, dataFileId⟩ =
          kv.currentDataFile.get? ⟨tableId, dataFileId⟩ :=
        (OrderedMap.get?_erase _ _ _).trans
          (if_neg fun keys => different (congrArg TableFileKey.dataFileId keys))
      cases policy with
      | schedule cleanupKind => exact expired
      | preserve => exact expired

/-- What a mutation that does not drop a file does to it. -/
theorem AppliedMutation.dataFile_of_not_dropped (applied : AppliedMutation attempt store next)
    (kept : dataFileId ∉ applied.plan.mutation.droppedDataFileIds) :
    (dataFileId ∈ applied.plan.mutation.dataFiles.map DataFileRow.dataFileId ∧ StoredCurrent next.kv dataFileId) ∨
      (dataFileId ∉ applied.plan.mutation.dataFiles.map DataFileRow.dataFileId ∧
        next.kv.dataFile.get? dataFileId = store.kv.dataFile.get? dataFileId ∧
        ∀ tableId, next.kv.currentDataFile.get? ⟨tableId, dataFileId⟩ =
          store.kv.currentDataFile.get? ⟨tableId, dataFileId⟩) := by
  obtain ⟨opening⟩ := applied.opening
  have same := applied.opened_sameFiles opening
  have sameMutation := prepareDataMutation_mutation applied.prepares
  have missed : dataFileId ∉ applied.prepared.mutation.droppedDataFileIds := by
    rw [sameMutation]
    exact kept
  have dropped := stageDroppedDataFiles_of_not_mem (prepareDataMutation_keyed applied.prepares)
    opening.files.drops missed
  have noted := opening.files.noted_dataFile
  have filed := opening.files.next_writes.others
  have ended : next.kv = { opening.filed with nextOrder := store.commitOrder } := congrArg FdbStore.kv opening.ends
  have files : next.kv.dataFile.get? dataFileId = opening.files.appended.dataFile.get? dataFileId := by
    rw [congrArg CatalogKv.dataFile ended, ← noted.1, ← dropped.1, ← filed.1]
  have currents : ∀ tableId, next.kv.currentDataFile.get? ⟨tableId, dataFileId⟩ =
      opening.files.appended.currentDataFile.get? ⟨tableId, dataFileId⟩ := by
    intro tableId
    rw [congrArg CatalogKv.currentDataFile ended, ← noted.2, ← dropped.2, ← filed.2.1]
  by_cases appended : dataFileId ∈ applied.plan.mutation.dataFiles.map DataFileRow.dataFileId
  · refine Or.inl ⟨appended, ?_⟩
    rw [← prepared_dataFile_ids, ← sameMutation] at appended
    obtain ⟨row, member, rfl⟩ := List.mem_map.mp appended
    obtain ⟨stored, present, listed⟩ := stageDataFiles_storedCurrent opening.files.appends row member
    exact ⟨stored, files.trans present, by rw [currents]; exact listed⟩
  · refine Or.inr ⟨appended, ?_⟩
    rw [← prepared_dataFile_ids, ← sameMutation] at appended
    have untouched := stageDataFiles_of_not_mem opening.files.appends appended
    refine ⟨files.trans (untouched.1.trans ?_), fun tableId => (currents tableId).trans ((untouched.2 tableId).trans ?_)⟩
    · rw [same.dataFile]
    · rw [same.currentDataFile]

end DucklakeCatalog.Fdb
