import DucklakeCatalog.File.ImmutableMetadata
import DucklakeCatalog.Run.CatalogSteps
import DucklakeCatalog.Run.DataFileCoherence
import DucklakeCatalog.Run.TableListings

/-! Runs of the ordered store under all its calls, and the metadata of the data
files along them. -/
namespace DucklakeCatalog

open KeyedStore

inductive StoreCall where
  | step (step : CatalogStep)
  | table (operation : TableOperation)

namespace CatalogHistory

def afterStep (history : CatalogHistory) : CatalogStep → CatalogHistory
  | .call operation => history.after operation
  | step => { history with kv := (step.apply history.kv).2 }

def afterCall (history : CatalogHistory) : StoreCall → CatalogHistory
  | .step step => history.afterStep step
  | .table operation => history.afterTable operation

/-- New data files have ids that no earlier call used. -/
def FreshCall (history : CatalogHistory) : StoreCall → Prop
  | .step (.call operation) => history.FreshDataFileIds operation
  | _ => True

end CatalogHistory

abbrev StoreHistory := History CatalogHistory

def StoreStart (state : CatalogHistory) : Prop := ∃ lastOrder now, state = CatalogHistory.start lastOrder now

def StoreStep (history : StoreHistory) (next : CatalogHistory) : Prop :=
  ∃ call, history.current.FreshCall call ∧ next = history.current.afterCall call

def CatalogHistory.dataFile (history : CatalogHistory) : OrderedMap DataFileId DataFileRow := history.kv.dataFile

/-! ## Table commits -/

section

variable {kv : CatalogKv} {now : Int} {order : CatalogOrderId}

theorem expireDroppedTableFile_dataFiles {state next : DroppedTable × KvBatch} {attached : AttachedDataFile}
    (named : ∀ {dataFileId row}, kv.dataFile.get? dataFileId = some row → row.dataFileId = dataFileId)
    (success : expireDroppedTableFile kv now order state attached = .ok next)
    (staged : StagesDataFiles kv [] order state.2) : StagesDataFiles kv [] order next.2 := by
  obtain ⟨_, _, expires, _, _, _, _, ⟨_, _, _, _, _, _, _, rfl⟩, same⟩ := expireDroppedTableFile_ok success
  obtain ⟨row, stored, _, opened, rfl, _, _, rfl⟩ := stageExpireCurrentDataFile_ok expires
  rw [← named stored] at stored
  rw [same]
  exact (staged.expire (fun _ new => absurd new List.not_mem_nil) stored opened rfl).congr rfl

/-- Dropping tables closes files of the store and adds none. -/
theorem stageDropTables_dataFiles {tableIds : List TableId} {sequence : RawSnapshotSequence}
    {dropped : List DroppedTable} {batch : KvBatch}
    (named : ∀ {dataFileId row}, kv.dataFile.get? dataFileId = some row → row.dataFileId = dataFileId)
    (staged : stageDropTables kv now tableIds sequence order = .ok (dropped, batch)) :
    StagesDataFiles kv [] order batch := by
  refine foldlM_invariant (fun state : List DroppedTable × KvBatch => StagesDataFiles kv [] order state.2) staged
    (.start rfl) ?_
  intro state tableId next _ soFar taken
  unfold stageDropTable at taken
  simp only [bind_eq_ok, pure_eq_ok] at taken
  obtain ⟨table, _, ⟨closed, expired⟩, expires, rfl⟩ := taken
  have files := foldlM_invariant (fun reached : DroppedTable × KvBatch => StagesDataFiles kv [] order reached.2) expires
    soFar fun _ _ _ _ reached taken => expireDroppedTableFile_dataFiles named taken reached
  exact files.congr rfl

theorem commitTableReplacements_dataFiles (sequence : RawSnapshotSequence)
    (replacements : List TableVersionReplacement) :
    (commitTableReplacements kv now sequence replacements).2.dataFileIndexes = kv.dataFileIndexes := by
  unfold commitTableReplacements
  split
  · rfl
  · have untouched : (replacements.foldl (stageTableReplacement kv kv.generatedOrderId)
        (stageSnapshot {} (SnapshotRow.new kv.generatedOrderId (sequence + 1) now))).dataFiles =
          ({} : KvBatch).dataFiles := by
      refine (foldl_view KvBatch.dataFiles ?_ _ _).trans rfl
      intro batch replacement
      unfold stageTableReplacement stageMaxCatalogIdWatermark
      rfl
    exact (kv.withGeneratedOrder.commit_dataFileIndexes_congr untouched).trans rfl

theorem commitPrepared_dataFiles {α : Type} (prepared : CatalogResult (PreparedReplacements α)) :
    (commitPrepared kv now prepared).2.dataFileIndexes = kv.dataFileIndexes := by
  cases prepared with
  | error failure => rfl
  | ok accepted => exact commitTableReplacements_dataFiles accepted.previousSequence accepted.replacements

/-- Of the table commits only a drop touches data files. -/
theorem TableOperation.apply_dataFiles (operation : TableOperation)
    (named : ∀ {dataFileId row}, kv.dataFile.get? dataFileId = some row → row.dataFileId = dataFileId) :
    DataFileIndexes.Steps [] kv.generatedOrderId kv.dataFileIndexes (operation.apply kv).dataFileIndexes := by
  have same {next : CatalogKv} (untouched : next.dataFileIndexes = kv.dataFileIndexes) :
      DataFileIndexes.Steps [] kv.generatedOrderId kv.dataFileIndexes next.dataFileIndexes := by
    rw [untouched]
  cases operation with
  | appendColumns now tableId columns =>
    refine same ?_
    simp only [TableOperation.apply, commitAppendTableColumns]
    split
    · rfl
    · have kept := @commitPrepared_dataFiles kv now _ (prepareAppendTableColumns kv tableId columns)
      split
      · rename_i failed
        rw [failed] at kept
        exact kept
      · rename_i succeeded
        rw [succeeded] at kept
        exact kept
  | renameTables now renames =>
    refine same ?_
    simp only [TableOperation.apply, commitRenameTables]
    split
    · rfl
    · exact commitPrepared_dataFiles _
  | renameColumns now renames =>
    refine same ?_
    simp only [TableOperation.apply, commitRenameTableColumns]
    split
    · rfl
    · exact commitPrepared_dataFiles _
  | dropColumns now drops =>
    refine same ?_
    simp only [TableOperation.apply, commitDropTableColumns]
    split
    · rfl
    · exact commitPrepared_dataFiles _
  | changeColumnTypes now changes =>
    refine same ?_
    simp only [TableOperation.apply, commitChangeTableColumnTypes]
    split
    · rfl
    · exact commitPrepared_dataFiles _
  | dropTables now tableIds commitRawSnapshot =>
    simp only [TableOperation.apply, commitDropTablesAt]
    split
    · exact .refl
    · split
      · exact .refl
      · rename_i sequence _
        rcases commitWith_cases kv (stageDropTables kv now tableIds sequence) with
          ⟨_, result⟩ | ⟨dropped, batch, staged, result⟩
        · rw [result]
          exact .refl
        · rw [result]
          exact (stageDropTables_dataFiles named staged).steps

end

/-! ## Calls on inline rows -/

/-- Nothing but an operation touches data files. -/
theorem CatalogStep.apply_dataFiles (kv : CatalogKv) (step : CatalogStep)
    (inline : ∀ operation, step ≠ .call operation) : (step.apply kv).2.dataFileIndexes = kv.dataFileIndexes := by
  have leaves := step.apply_leaves kv
  generalize (step.apply kv).2 = next at leaves
  cases leaves with
  | unchanged => rfl
  | drawn => rfl
  | committed commits
  | maintained maintains => exact absurd rfl (inline _)
  | deletedAtNewSnapshot deletes
  | deletedAtSnapshot deletes =>
    obtain ⟨_, _, _, same⟩ := stageInlineDeletes_changes deletes.stages
    rw [same]
    rfl
  | removedPayloads staged =>
    unfold stageRemoveOldInlineTablePayloads at staged
    simp only [bind_eq_ok, pure_eq_ok, Prod.mk.injEq] at staged
    obtain ⟨listed, _, _, rfl⟩ := staged
    refine (@CatalogKv.commit_dataFileIndexes_congr kv {} _ ?_).trans rfl
    rw [foldl_view KvBatch.dataFiles ?_ _ _, foldl_view KvBatch.dataFiles ?_ _ _]
    · intro state id
      rfl
    · intro state key
      unfold stageRemoveCoveredWatermark
      dsimp only
      split
      · rfl
      · rfl

/-! ## Runs -/

/-- What a call does to the data files: ids it adds are new, and the files it had keep their metadata. -/
structure KeepsMetadata (history next : CatalogHistory) : Prop where
  sound : DataFilesSound next
  ids : history.dataFileIds ⊆ next.dataFileIds
  metadata : ∀ dataFileId row, next.dataFile.get? dataFileId = some row →
    (∃ earlier, history.dataFile.get? dataFileId = some earlier ∧ earlier.immutableMetadata = row.immutableMetadata) ∨
      dataFileId ∉ history.dataFileIds

theorem KeepsMetadata.steps {history next : CatalogHistory} {order : CatalogOrderId} (sound : DataFilesSound history)
    (steps : DataFileIndexes.Steps [] order history.kv.dataFileIndexes next.kv.dataFileIndexes)
    (ids : next.dataFileIds = history.dataFileIds) : KeepsMetadata history next where
  sound := by
    refine ⟨steps.coherent sound.coherent, ?_⟩
    intro dataFileId row found
    rcases steps.stored_or_new (Option.isSome_iff_exists.mpr ⟨row, found⟩) with known | new
    · obtain ⟨stored, known⟩ := Option.isSome_iff_exists.mp known
      exact ids ▸ sound.used known
    · exact absurd new List.not_mem_nil
  ids := ids ▸ List.Subset.refl _
  metadata := by
    intro dataFileId row found
    exact Or.inl (steps.metadata List.not_mem_nil found)

theorem KeepsMetadata.operation {history : CatalogHistory} {operation : CatalogOperation} (sound : DataFilesSound history)
    (fresh : history.FreshDataFileIds operation) : KeepsMetadata history (history.after operation) := by
  refine CatalogHistory.after_invariant (KeepsMetadata history) ?_ ?_ ?_ ?_
  · exact @KeepsMetadata.steps _ _ 0 sound .refl rfl
  · exact @KeepsMetadata.steps _ _ 0 sound .refl rfl
  · intro batch commits
    have staged := commits.dataFiles sound.coherent.named fresh.1 fun dataFileId new => sound.unknown (fresh.2 _ new)
    refine ⟨sound.commit fresh commits, List.subset_append_left _ _, ?_⟩
    intro dataFileId row found
    by_cases new : dataFileId ∈ operation.newDataFileIds
    · exact Or.inr (fresh.2 dataFileId new)
    · exact Or.inl (staged.steps.metadata new found)
  · intro batch maintains
    refine ⟨sound.maintain maintains, List.Subset.refl _, ?_⟩
    intro dataFileId row found
    exact Or.inl ⟨row, (maintains.dataFiles sound.coherent.named).kept found, rfl⟩

theorem KeepsMetadata.call {history : CatalogHistory} {call : StoreCall} (sound : DataFilesSound history)
    (fresh : history.FreshCall call) : KeepsMetadata history (history.afterCall call) := by
  cases call with
  | table operation => exact .steps sound (operation.apply_dataFiles sound.coherent.named) rfl
  | step step =>
    have inline (others : ∀ operation, step ≠ .call operation)
        (same : history.afterStep step = { history with kv := (step.apply history.kv).2 }) :
        KeepsMetadata history (history.afterStep step) := by
      rw [same]
      refine @KeepsMetadata.steps _ _ 0 sound ?_ rfl
      dsimp only
      rw [step.apply_dataFiles history.kv others]
    cases step with
    | call operation => exact .operation sound fresh
    | deleteInlineRows
    | removeOldInlinePayloads => exact inline (by simp) rfl

section

variable {history : StoreHistory}

section

variable (run : History.Reachable StoreStart StoreStep history)

include run

theorem storeRun_sound :
    ∀ state ∈ history.states, DataFilesSound state := by
  refine run.invariant DataFilesSound ?_ ?_
  · rintro state ⟨lastOrder, now, rfl⟩
    exact .start lastOrder now
  · rintro history next sound ⟨call, fresh, rfl⟩
    exact (KeepsMetadata.call (sound _ history.current_mem) fresh).sound

theorem storeRun_ids :
    ∀ state ∈ history.states, state.dataFileIds ⊆ history.current.dataFileIds := by
  refine run.later (fun earlier later => earlier.dataFileIds ⊆ later.dataFileIds) (fun _ => List.Subset.refl _)
    (fun _ _ _ left right => List.Subset.trans left right) ?_
  rintro history next run ⟨call, fresh, rfl⟩
  exact (KeepsMetadata.call (storeRun_sound run _ history.current_mem) fresh).ids

/-- The metadata of a data file is written once. -/
theorem storeRun_writeOnce :
    WriteOnce (storedMetadata CatalogHistory.dataFile) history := by
  induction run with
  | start isInitial => exact .start _ _
  | @step history next earlier taken ih =>
    refine ih.extend ?_
    obtain ⟨call, fresh, rfl⟩ := taken
    have keeps := KeepsMetadata.call (storeRun_sound earlier _ history.current_mem) fresh
    intro dataFileId metadata stored
    obtain ⟨row, found, rfl⟩ := Option.map_eq_some_iff.mp stored
    rcases keeps.metadata dataFileId row found with ⟨before, known, same⟩ | new
    · refine Or.inl ⟨_, history.current_mem, ?_⟩
      rw [storedMetadata, known, ← same]
      rfl
    · refine Or.inr fun past member => ?_
      rw [storedMetadata, Option.map_eq_none_iff]
      refine (storeRun_sound earlier past member).unknown ?_
      exact fun used => new (storeRun_ids earlier past member used)

theorem storeRun_named :
    ∀ state ∈ history.states, ∀ dataFileId row, state.dataFile.get? dataFileId = some row →
      row.dataFileId = dataFileId :=
  fun state member _ _ found => (storeRun_sound run state member).coherent.named found

end

end

end DucklakeCatalog
